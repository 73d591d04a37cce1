import Workflow.Proofs.Lower.Settle
import Workflow.Proofs.Lower.Weigh

/-!
# What lowering settles

The graph of an activity weighs exactly the calls that are scheduled in the source, where those in
the condition of a loop that is tested first count twice.
-/

namespace Workflow

open Stage CodeStmt

variable {r : Unit}

namespace Account

variable {β : Type} {k : Account β}

/-! ### Runs of code -/

section Runs

variable {s t u : StageState} {p q : Multiset β} {site : Site}

variable (k) in
/-- The steps and the pending statements grow by some weight, and skips stay nested. -/
structure Grows (s t : StageState) (q : Multiset β) : Prop where
  load : Step.weights k.weighing t.steps.flush.steps =
    Step.weights k.weighing s.steps.flush.steps + q
  generated : s.steps.Generated → t.steps.Generated
  nested : StepList.Nested (s.steps.flush.steps.map Step.over?) →
    StepList.Nested (t.steps.flush.steps.map Step.over?)
  errors : t.lower.errors.errors = [] → s.lower.errors.errors = []

theorem Grows.trans (h : k.Grows s t p) (h' : k.Grows t u q) : k.Grows s u (p + q) where
  load := by rw [h'.load, h.load, add_assoc]
  generated hs := h'.generated (h.generated hs)
  nested hs := h'.nested (h.nested hs)
  errors hu := h.errors (h'.errors hu)

theorem grows_refl (s : StageState) : k.Grows s s 0 :=
  ⟨(add_zero _).symm, id, id, id⟩

theorem Adds.grows (h : k.Adds a q) (hem : Emits s t a) : k.Grows s t q where
  load := by rw [hem.flush_eq, Step.weights_append, h.1]
  generated := hem.generated
  nested hs := by simpa [hem.flush_eq] using hs.append h.2
  errors := hem.errors

theorem Grows.flush (h : k.Grows s t q) : k.Grows s { t with steps := t.steps.flush } q where
  load := by rw [StepList.flush_flush]; exact h.load
  generated hs := (h.generated hs).flush
  nested hs := by rw [StepList.flush_flush]; exact h.nested hs
  errors := h.errors

theorem load_eq (l : StepList) : Step.weights k.weighing l.flush.steps =
    Step.weights k.weighing l.steps + k.weighing.body l.pending := by
  rw [StepList.steps_flush]
  split
  case isTrue h => rw [h]; exact (add_zero _).symm
  case isFalse => simp [Step.weight, Node.weight_code]

theorem grows_pushed (s : StageState) (stmt : CodeStmt) (h : k.AllSettled stmt.nodes) :
    k.Grows s (s.pushed stmt) 0 where
  load := by
    have hbody : k.weighing.body (s.steps.pending ++ [stmt]) = k.weighing.body s.steps.pending := by
      simp [weighing, nodesList_append, nodesList, h.sum_eq]
    rw [load_eq, load_eq, add_zero]
    exact congrArg _ hbody
  generated hs := hs.pushPlain stmt
  nested hs := by
    rw [StepList.steps_flush] at hs ⊢
    by_cases hp : s.steps.pending = [] <;>
      simp_all [StageState.pushed, StepList.pushPlain, Step.over?, StepList.Nested.append,
        StepList.Nested.node]
  errors h := h

variable (hh : k.context.PlainHandles) (hsite : site.context = k.context)

include hh hsite

theorem grows_sends (hfair : k.AllFair e.nodes) (h : Sends site e s t) :
    k.Grows s t (k.calls e.nodes) := by
  cases h with simp only [Expr.nodes, allFair_cons, allFair_append] at hfair
  | discard _ h =>
    have hadds := (settles hh h (by simpa [Piece.source, Expr.nodes] using hfair) hsite).1
    exact hadds.grows h.emits
  | into _ _ hstore h =>
    rw [hsite] at hstore
    have htarget := (hfair.2.1 _ (Expr.mem_nodes_self _)).store (by simp [hstore])
    have hadds := (settles hh h (by simpa [Piece.source, Expr.nodes] using hfair.2.2) hsite).1
    simpa [Piece.source, Expr.nodes, sent, htarget] using hadds.grows h.emits

theorem grows_stmt {stmt : CodeStmt} (hfair : k.AllFair stmt.nodes)
    (h : Stage.stmt site stmt s = .ok r t) : k.Grows s t (k.calls stmt.nodes) := by
  rcases stmt_ok h with ⟨e, rfl, hsends⟩ | ⟨site', stmt', a, s₁, hsite', hstmt, rfl⟩
  · exact grows_sends hh hsite hfair hsends
  · have hsite' : site'.context = k.context := by
      rcases hsite' with rfl | rfl <;> exact hsite
    obtain ⟨hadds, hsettled, -⟩ := settles hh hstmt hfair hsite'
    simpa [Piece.source] using
      (hadds.grows hstmt.emits).trans (grows_pushed s₁ stmt' hsettled)

theorem grows_body {b : List CodeStmt} (hfair : k.AllFair (nodesList b))
    (h : Stage.body site b s = .ok r t) : k.Grows s t (k.calls (nodesList b)) := by
  induction b generalizing s with
  | nil =>
    cases h
    exact grows_refl _
  | cons stmt rest ih =>
    simp only [nodesList, allFair_append] at hfair
    obtain ⟨s₁, hstmt, -, hrest⟩ := Stage.body_cons h
    have hgrows := grows_stmt hh hsite hfair.1 hstmt
    have hchecked : k.Grows s { s₁ with uses := [] } (k.calls stmt.nodes) :=
      ⟨hgrows.load, hgrows.generated, hgrows.nested, hgrows.errors⟩
    simpa [nodesList] using hchecked.trans (ih hfair.2 hrest)

theorem grows_initializer (hstore : store ∈ k.context.activity.stores)
    (hfair : k.AllFair e.nodes) (h : initializer site store e s = .ok r t) :
    k.Grows s t (k.calls e.nodes) := by
  rcases initializer_ok (hsite ▸ hstore) h with
    ⟨o, f, args, attr, read, a, rfl, -, h⟩ | ⟨v, a, s₁, hv, rfl⟩
  · exact (settles hh h hfair hsite).1.grows h.emits
  · obtain ⟨hadds, hsettled, -⟩ := settles hh hv hfair hsite
    have hset := (settled_storeSet k _ _).2 ⟨settled_handle hh hstore, hsettled⟩
    simpa [Piece.source] using (hadds.grows hv.emits).trans (grows_pushed s₁ (.eval _) hset)

theorem grows_code (hfair : k.AllFair (nodesList b))
    (hstore : ∀ st ∈ store, st ∈ k.context.activity.stores)
    (hinit : ∀ st ∈ store, ∀ o op target v, b = [.eval (.assign o op target v)] →
      k.calls target.nodes = 0)
    (h : code site b store s = .ok r t) : k.Grows s t (k.calls (nodesList b)) := by
  unfold code at h
  split at h
  case h_1 store o op target v =>
    simp only [nodesList, nodes, Expr.nodes, allFair_append, allFair_cons]
      at hfair
    have htarget := hinit store rfl o op target v rfl
    have hgrows := grows_initializer hh hsite (hstore store rfl) hfair.1.2.2 h
    simpa [nodesList, nodes, Expr.nodes, sent, htarget] using hgrows
  case h_2 => exact grows_body hh hsite hfair h

end Runs

/-! ### Activities -/

variable (k) in
def amounts : Amounts β where
  slot f := k.calls f.expr.nodes
  code p := k.calls (nodesList p.1)

variable (k) in
/-- The whole activity is lowered fairly: nothing that is dropped schedules a call. -/
structure FairActivity : Prop where
  handles : k.context.PlainHandles
  fair : ∀ i, k.AllFair (k.context.activity.kind i).exprs
  initialized : ∀ i f next st, k.context.activity.kind i = .code f next (some st) →
    ∀ o op target v, f.body = [.eval (.assign o op target v)] → k.calls target.nodes = 0
  endpoint : ∀ i op, k.context.activity.kind i = .service op → op.kind ≠ .send →
    ∀ f ∈ op.endpoint, k.calls f.expr.nodes = 0

namespace FairActivity

variable (hk : k.FairActivity)

include hk

theorem slot (hf : f ∈ (k.context.activity.kind i).slots) : k.AllFair f.expr.nodes := fun e he =>
  hk.fair i e (List.mem_append_right _ (List.mem_flatMap.2 ⟨f, hf, he⟩))

theorem grows_fragments (hsite : site.context = k.context)
    (hfs : ∀ p ∈ fs, ∃ i f next init, k.context.activity.kind i = .code f next init ∧
      p = (f.body, init)) (h : fragments site fs s = .ok r t) :
    k.Grows s t (fs.map k.amounts.code).sum := by
  induction fs generalizing s with
  | nil =>
    cases h
    exact grows_refl _
  | cons p fs ih =>
    obtain ⟨_, s₁, hcode, hrest⟩ := bind_eq_ok.1 h
    obtain ⟨i, f, next, init, hkind, rfl⟩ := hfs p List.mem_cons_self
    have hfair := hk.fair i
    rw [hkind, StmtKind.exprs, allFair_append] at hfair
    rw [hsite] at hcode
    have hfirst := grows_code hk.handles hsite hfair.1 (fun st hst => ?_)
      (fun st hst o op target v hbody => ?_) hcode
    · rw [List.map_cons, List.sum_cons]
      exact hfirst.trans (ih (fun p hp => hfs p (List.mem_cons_of_mem _ hp)) hrest)
    · obtain ⟨j, -, hj⟩ := Option.bind_eq_some_iff.1 hst
      exact Array.mem_of_getElem? hj
    · obtain ⟨j, hj, -⟩ := Option.bind_eq_some_iff.1 hst
      have hinit : init = some j := hj
      exact hk.initialized i f next j (hinit ▸ hkind) o op target v hbody

theorem value_ok {site : Site} (hsite : site.context = k.context) {i : StmtId} {f : Fragment}
    (hf : f ∈ (k.context.activity.kind i).slots) {l : LowerState} {e : Expr} {r : StageState}
    (h : value site f.expr { lower := l } = .ok e r) :
    k.AllSettled e.nodes ∧ k.Grows { lower := l } r (k.amounts.slot f) := by
  obtain ⟨a, s₁, he, rfl⟩ := Stage.value_ok h
  obtain ⟨hadds, hsettled, -⟩ := settles hk.handles he (hk.slot hf) hsite
  exact ⟨hsettled, (hadds.grows he.emits).flush⟩

theorem measure : k.amounts.Measure k.context k.weighing where
  lawful := lawful k
  handle st hst := (settled_handle hk.handles hst).sum_eq
  value i f hf ty := by
    unfold Lower.value
    refine Lower.Clean.stage (T := fun e steps => k.AllSettled e.nodes ∧ steps.Generated ∧
      Step.weights k.weighing steps.flush.steps = k.amounts.slot f)
      (fun l e r hrun hclean => ?_) (fun e steps => .pure fun ⟨hsettled, hgen, hload⟩ => ?_)
      fun e _ => (Lower.Clean.reportError e).bind fun _ => .pure fun h => h
    · obtain ⟨hsettled, hgrows⟩ := hk.value_ok rfl hf hrun
      exact ⟨hgrows.errors hclean, hsettled, hgrows.generated StepList.generated_empty,
        hgrows.load.trans (zero_add _)⟩
    · refine ⟨hsettled.sum_eq, StepList.weightless_vars (lawful k) hgen, ?_⟩
      rw [StepList.weights_nodes (lawful k) hgen, hload]
  restricted i f hf ty slot := by
    unfold Lower.restricted
    refine Lower.Clean.stage (T := fun e _ => k.AllSettled e.nodes ∧ k.amounts.slot f = 0)
      (fun l e r hrun hclean => ?_) (fun e steps => .pure fun ⟨hsettled, hslot⟩ => ?_)
      fun e _ => (Lower.Clean.reportError e).bind fun _ => .pure fun h => h
    · obtain ⟨hsettled, hgrows⟩ := hk.value_ok rfl hf hrun
      have hcan : Site.canSchedule
        { context := k.context, span := f.span, slot := some slot.name } = false := rfl
      have hsteps := LowerContext.View.steps_value hcan f.expr l
      rw [Lower.Clean.run_stage, hrun] at hsteps
      have hload := hgrows.load
      rw [show r.steps = {} from hsteps] at hload
      exact ⟨hgrows.errors hclean, hsettled, by simpa using hload.symm⟩
    · exact ⟨hsettled.sum_eq, hslot⟩
  named i f hf st hst :=
    (hk.slot hf f.expr (Expr.mem_nodes_self _)).store (by
      rw [LowerContext.storeFor?_of_namedStore? hst]
      rfl)
  endpoint i op hkind hsend f hf := hk.endpoint i op hkind hsend f hf
  run span fs hfs l u r hrun hclean := by
    have hgrows := hk.grows_fragments rfl (Activity.mem_runs hfs) hrun
    exact ⟨hgrows.errors hclean, hgrows.generated StepList.generated_empty,
      hgrows.load.trans (zero_add _)⟩

end FairActivity

end Account

end Workflow
