import Workflow.Proofs.Arena.Fragments
import Workflow.Proofs.Linearization
import Workflow.Proofs.Run.Plain

/-!
# Plain code keeps its meaning

Staging code that schedules nothing changes only how stores are accessed. Each run of the code as it
is written is a run of the staged code: it has the same value, makes the same writes to stores in
the same order, and leaves the same locals.
-/

namespace Workflow

open Stage CodeStmt LowerContext

variable {e : Expr} {args : List Argument}
variable {d : Direction} {r : Unit}

namespace Plain

variable {α β : Type}

/-- Whatever the first run does, the second one does. -/
def Refines (x y : Run α) : Prop := ∀ m r, x m = some r → y m = some r

namespace Refines

variable {x y : Run α}

theorem refl (x : Run α) : Refines x x := fun _ _ h => h

theorem bind {f g : α → Run β} (h : Refines x y) (hf : ∀ a, Refines (f a) (g a)) :
    Refines (x >>= f) (y >>= g) := by
  intro m r hr
  obtain ⟨⟨a, m'⟩, ha, hr⟩ := Option.bind_eq_some_iff.1 hr
  exact Option.bind_eq_some_iff.2 ⟨(a, m'), h m _ ha, hf a m' r hr⟩

theorem first (h : Refines x y) (f : α → Run β) : Refines (x >>= f) (y >>= f) :=
  h.bind fun _ => refl _

theorem of_none (f : α → Run β) (y : Run β) : Refines (liftM (none : Option α) >>= f) y :=
  fun _ _ hr => by cases hr

theorem inScope (h : Refines x y) : Refines (inScope x) (inScope y) := by
  intro m r hr
  obtain ⟨p, hp, hr⟩ := Option.map_eq_some_iff.1 hr
  exact Option.map_eq_some_iff.2 ⟨p, h m p hp, hr⟩

theorem repeated {test test' : Run Bool} {body body' : Run Unit} (htest : Refines test test')
    (hbody : Refines body body') (n : Nat) :
    Refines (repeated test body n) (repeated test' body' n) := by
  induction n with
  | zero => exact refl _
  | succ n ih =>
    refine htest.bind fun b => ?_
    cases b with
    | true => exact hbody.bind fun _ => ih
    | false => exact refl _

end Refines

theorem map_apply (f : α → β) (x : Run α) (m : Memory) :
    (f <$> x) m = (x m).bind fun r => some (f r.1, r.2) := rfl

theorem bind_apply (x : Run α) (f : α → Run β) (m : Memory) :
    (x >>= f) m = (x m).bind fun r => f r.1 r.2 := rfl

theorem lift_some (a : α) (m : Memory) : (liftM (some a) : Run α) m = some (a, m) := rfl

theorem some_bind (a : α) (f : α → Run β) : (liftM (some a) : Run α) >>= f = f a := rfl

namespace Machine

variable (M : Machine)

def finds (id : StoreId) : Bool :=
  ((M.context.activity.stores[id]?).bind (·.handle.asName)).bind M.handle == some id

def passesNone (args : List Argument) : Bool :=
  args.all fun a => a.direction == .input || (M.context.namedStore? a.value).isNone

/-- Whether an expression itself may occur in plain code: a call has an identity and is not
scheduled. -/
def isPlain : Expr → Bool
  | .name o x => (M.context.storeIdFor? (.name o x)).all M.finds
  | .call o _ args =>
    o.id.isSome && (M.context.semantics.scheduling? o.id).isNone && M.passesNone args
  | .create _ _ args => M.passesNone args
  | _ => true

def AllPlain (es : List Expr) : Prop := ∀ e ∈ es, M.isPlain e

variable {M} {o : Origin} {id : StoreId} {y : String} {store : Store}

theorem allPlain_nil : M.AllPlain [] ↔ True := by simp [AllPlain]

theorem allPlain_cons : M.AllPlain (e :: es) ↔ M.isPlain e ∧ M.AllPlain es := List.forall_mem_cons

theorem allPlain_append :
    M.AllPlain (es ++ fs) ↔ M.AllPlain es ∧ M.AllPlain fs := List.forall_mem_append

theorem allPlain_call : M.AllPlain (Expr.call o f args).nodes ↔
    M.isPlain (.call o f args) ∧ M.AllPlain f.nodes ∧ M.AllPlain (Argument.nodesList args) := by
  simp only [Expr.nodes, allPlain_cons, allPlain_append]

theorem schedules_of_plain (h : M.AllPlain e.nodes) : M.context.schedules e = false := by
  rw [schedules, Expr.any, List.any_eq_false]
  intro x hx
  cases x with
  | call o f args =>
    have := h _ hx
    simp only [isPlain, Bool.and_eq_true] at this
    simpa [scheduling?, Expr.isCall, Expr.id, Expr.origin] using this.1.2
  | _ => simp [scheduling?, Expr.isCall]

/-- What stands for a store is no cell, or it is the cell of a store that is found. -/
theorem cell_of_store (h : M.isPlain e) (hstore : M.context.storeFor? e = some store) :
    M.cell? e = none ∨ ∃ id y, M.cell? e = some (.inl id) ∧ store.handle.asName = some y ∧
      M.handle y = some id := by
  cases e with
  | name o x =>
    rw [storeFor?_eq] at hstore
    obtain ⟨id, hid, hstore⟩ := Option.bind_eq_some_iff.1 hstore
    simp only [isPlain, hid, Option.all_some, finds, hstore, Option.bind_some, beq_iff_eq] at h
    obtain ⟨y, hy, hfind⟩ := Option.bind_eq_some_iff.1 h
    exact .inr ⟨id, y, by rw [cell?, hid]; rfl, hy, hfind⟩
  | _ => exact .inl rfl

section Accesses

variable (hy : store.handle.asName = some y) (hfind : M.handle y = some id)

include hy hfind

theorem eval_get (ho : o.id = none) :
    M.eval (.call o (.member o' store.handle "Get") args) = M.read (.inl id) := by
  obtain ⟨_, hname⟩ := Expr.asName_eq_some.1 hy
  simp [hname, eval, access?, hfind, ho]

theorem eval_set (ho : o.id = none) :
    M.eval (.call o (.member o' store.handle "Set") [a, .mk d e]) = do
      let v ← M.eval e
      write v (.inl id)
      return v := by
  obtain ⟨_, hname⟩ := Expr.asName_eq_some.1 hy
  simp [hname, eval, access?, hfind, ho, evalSecond]

/-- A step writes the next integer. If it has the old value, this is what is one step back. -/
theorem refines_storeStep (hstep : op.stepOp = some step) (hcell : M.cell? e = some (.inl id)) :
    Refines (M.eval (.unary o op e)) (M.eval (storeStep op step store)) := by
  have hget : M.eval (Expr.storeGet store.handle) = _ := eval_get hy hfind rfl
  have hset : ∀ e, M.eval (Expr.storeSet store.handle e) = _ := fun e => eval_set hy hfind rfl
  intro m r hr
  simp only [eval, hstep, hcell, some_bind] at hr
  obtain ⟨⟨v, m₁⟩, hv, hr⟩ := Option.bind_eq_some_iff.1 hr
  obtain ⟨⟨n, m₂⟩, hn, hr⟩ := Option.bind_eq_some_iff.1 hr
  obtain ⟨v, hw, ⟨⟩⟩ := Option.map_eq_some_iff.1 hv
  obtain ⟨n, hint, ⟨⟩⟩ := Option.bind_eq_some_iff.1 hn
  cases hr
  rw [Value.eq_int_of_asInt hint] at hw
  cases op <;> cases hstep <;>
    simp [storeStep, UnaryOp.isPost, Expr.apply, Expr.int, eval, hset, hget, read, hw,
      bind_apply, BinaryOp.decided?, Runtime.combine, Value.ofLiteral, M.add_int, M.sub_int,
      lift_some, write, Source.stepped, map_apply]

theorem refines_storeAssign (op : AssignOp)
    (hcell : M.cell? target = some (.inl id)) (he : Refines (M.eval e) (M.eval e')) :
    Refines (M.eval (.assign o op target e)) (M.eval (storeAssign o op store e')) := by
  have hset : ∀ v, M.eval ((Expr.storeSet store.handle v).withSpan o.span) = _ :=
    fun v => eval_set hy hfind rfl
  rw [storeAssign, hset, eval, hcell, some_bind]
  cases hop : op.binary with
  | none => exact he.first _
  | some bin =>
    have hget : M.eval (Expr.storeGet store.handle) = _ := eval_get hy hfind rfl
    have hstrict : ∀ a, bin.decided? a = none ∧ M.combine bin a = M.binary bin a := by
      intro a
      cases op <;> cases hop <;> exact ⟨rfl, rfl⟩
    simp only [Expr.apply, eval, hget, hstrict, bind_assoc]
    exact (Refines.refl _).bind fun _ => he.first _

end Accesses

section Staged

variable {site : Site} {a : List Step} {s t : StageState}

theorem cell_staged (h : Staging site (.expr e v) a s t)
    (hnone : site.context.namedStore? e = none) : M.cell? e = none ∨ v = e := by
  cases e with
  | name o x =>
    cases h with
    | read hsome => cases hnone.symm.trans hsome
    | name => exact .inr rfl
  | _ => exact .inl rfl

theorem passesNone_cons : M.passesNone (.mk d e :: rest) ↔
      (d = .input ∨ M.context.namedStore? e = none) ∧ M.passesNone rest := by
  simp [passesNone]

theorem refines_argument
    (hd : d = .input ∨ site.context.namedStore? e = none) (hv : Staging site (.expr e v) a s t)
    (he : Refines (M.eval e) (M.eval v)) (hrest : Refines (M.evalArgs rest) (M.evalArgs rest')) :
    Refines (M.evalArgs (.mk d e :: rest)) (M.evalArgs (.mk d v :: rest')) := by
  rw [evalArgs, evalArgs]
  refine .bind ?_ fun _ => hrest.first _
  split
  · exact he.first _
  · next hinput =>
    obtain hcell | rfl := cell_staged (M := M) hv (hd.resolve_left hinput)
    · rw [hcell]
      exact .of_none _ _
    · exact .refl _

theorem access?_of_id (h : o.id.isSome) (f : Expr) : M.access? o f = none := by
  unfold access?
  split <;> simp [h]

variable (M) in
/-- No step is added, and what is made of a piece does what the piece does. Arguments are staged as
values where no store is passed by reference. -/
def Keeps (a : List Step) : Piece → Prop
  | .expr e e' => a = [] ∧ Refines (M.eval e) (M.eval e')
  | .call _ o f args e' => a = [] ∧ Refines (M.eval (.call o f args)) (M.eval e')
  | .optional v v' => a = [] ∧ Refines (M.evalOption v) (M.evalOption v')
  | .values args as => M.passesNone args → a = [] ∧ Refines (M.evalArgs args) (M.evalArgs as)
  | .plain args p => M.passesNone args →
    a = [] ∧ p.before = [] ∧ Refines (M.evalArgs args) (M.evalArgs p.args)
  | .stmt stmt stmt' => a = [] ∧ Refines (M.exec stmt) (M.exec stmt')
  | .body body body' => a = [] ∧ Refines (M.execList body) (M.execList body')
  | .branch n n' => a = [] ∧ Refines (M.execElse n) (M.execElse n')
  | .inputs .. | .send .. => True

theorem keeps (h : Staging site p a s t) :
    M.AllPlain p.source → site.context = M.context → M.Keeps a p := by
  induction h with (intro hp hsite; simp only [Piece.source, Expr.nodes, Expr.nodesOpt,
    Argument.nodesList, nodes, nodesList, nodesOpt, allPlain_nil, allPlain_cons, allPlain_append,
    and_true] at hp)
  | literal | name | absent | bodyNil | branchNone => exact ⟨rfl, .refl _⟩
  | valuesNil => exact fun _ => ⟨rfl, .refl _⟩
  | plainNil => exact fun _ => ⟨rfl, rfl, .refl _⟩
  | read hstore =>
    rw [hsite] at hstore
    obtain hnone | ⟨id, y, hcell, hy, hfind⟩ := cell_of_store hp hstore
    · cases hnone
    have hget : ∀ span, M.eval ((Expr.storeGet _).withSpan span) = _ :=
      fun span => eval_get hy hfind rfl
    refine ⟨rfl, ?_⟩
    rw [hget, eval, hcell]
    exact .refl _
  | member _ ih =>
    obtain ⟨rfl, he⟩ := ih hp.2 hsite
    refine ⟨rfl, ?_⟩
    rw [eval, eval]
    exact he.first _
  | scheduled hattr => simp [isPlain, ← hsite, hattr] at hp
  | called _ ih => exact ih (allPlain_call.2 hp) hsite
  | create _ ih =>
    obtain ⟨rfl, hargs⟩ := ih hp.2 hsite hp.1
    refine ⟨rfl, ?_⟩
    rw [eval, eval]
    exact hargs.first _
  | step hop hstore =>
    rw [hsite] at hstore
    refine ⟨rfl, ?_⟩
    obtain hnone | ⟨id, y, hcell, hy, hfind⟩ := cell_of_store (hp.2 _ (Expr.mem_nodes_self _)) hstore
    · rw [eval, hop, hnone]
      exact .of_none _ _
    · exact refines_storeStep hy hfind hop hcell
  | @unary _ _ _ _ _ _ op _ hplain hv ih =>
    obtain ⟨rfl, he⟩ := ih hp.2 hsite
    refine ⟨rfl, ?_⟩
    rw [eval, eval]
    cases hstep : op.stepOp with
    | none => exact he.first _
    | some step =>
      have hstore := hplain.resolve_left (by simp [hstep])
      obtain hcell | rfl := cell_staged (M := M) hv (namedStore?_of_storeFor? hstore)
      · rw [hcell]
        exact .of_none _ _
      · exact .refl _
  | operator hskip => simp [hsite, schedules_of_plain hp.2.2] at hskip
  | @binary _ _ _ _ _ _ _ _ _ _ op _ _ _ _ ih ih' =>
    obtain ⟨rfl, hl⟩ := ih hp.2.1 hsite
    obtain ⟨rfl, hr⟩ := ih' hp.2.2 hsite
    refine ⟨rfl, ?_⟩
    rw [eval, eval]
    refine hl.bind fun a => ?_
    cases op.decided? a with
    | some v => exact .refl _
    | none => exact hr.first _
  | choice hskip =>
    simp [hsite, schedules_of_plain hp.2.2.1, schedules_of_plain hp.2.2.2] at hskip
  | conditional _ _ _ _ ihe ihy ihn =>
    obtain ⟨rfl, he⟩ := ihe hp.2.1 hsite
    obtain ⟨rfl, hy⟩ := ihy hp.2.2.1 hsite
    obtain ⟨rfl, hn⟩ := ihn hp.2.2.2 hsite
    refine ⟨rfl, ?_⟩
    rw [eval, eval]
    exact he.bind fun a => (Refines.refl _).bind fun b => by cases b <;> assumption
  | write hstore _ _ ih =>
    rw [hsite] at hstore
    obtain ⟨rfl, he⟩ := ih hp.2.2 hsite
    refine ⟨rfl, ?_⟩
    obtain hnone | ⟨id, y, hcell, hy, hfind⟩ :=
      cell_of_store (hp.2.1 _ (Expr.mem_nodes_self _)) hstore
    · rw [eval, hnone]
      exact .of_none _ _
    · exact refines_storeAssign hy hfind _ hcell he
  | @assign _ _ _ _ _ _ _ _ _ _ op _ hnone ht _ ih ih' =>
    obtain ⟨rfl, -⟩ := ih hp.2.1 hsite
    obtain ⟨rfl, he⟩ := ih' hp.2.2 hsite
    refine ⟨rfl, ?_⟩
    rw [eval, eval]
    obtain hcell | rfl := cell_staged (M := M) ht (namedStore?_of_storeFor? hnone)
    · rw [hcell]
      exact .of_none _ _
    · refine (Refines.refl _).bind fun x => ?_
      cases op.binary with
      | none => exact he.first _
      | some bin => exact (Refines.refl _).bind fun _ => he.first _
  | lambda _ ih =>
    refine ⟨(ih hp.2 hsite).1, ?_⟩
    rw [eval, eval]
    exact .refl _
  | cast _ ih =>
    rw [Keeps, eval, eval]
    exact ih hp.2 hsite
  | index _ _ ih ih' =>
    obtain ⟨rfl, he⟩ := ih hp.2.1 hsite
    obtain ⟨rfl, hi⟩ := ih' hp.2.2 hsite
    refine ⟨rfl, ?_⟩
    rw [eval, eval]
    exact he.bind fun _ => hi.first _
  | block _ _ ih ih' =>
    obtain ⟨rfl, hbody⟩ := ih hp.2.1 hsite
    obtain ⟨rfl, hvalue⟩ := ih' hp.2.2 ((Site.context_afterAll _ _).trans hsite)
    refine ⟨rfl, ?_⟩
    rw [eval, eval]
    exact (hbody.bind fun _ => hvalue).inScope
  | present _ ih => exact ih hp hsite
  | valuesCons hv _ ih ih' =>
    intro hnone
    obtain ⟨hd, hnone⟩ := passesNone_cons.1 hnone
    obtain ⟨rfl, he⟩ := ih hp.1 hsite
    obtain ⟨rfl, hrest⟩ := ih' hp.2 hsite hnone
    exact ⟨rfl, refines_argument (hsite ▸ hd) hv he hrest⟩
  | copied hinput hstore =>
    intro hnone
    obtain ⟨hd, -⟩ := passesNone_cons.1 hnone
    rw [hsite, hd.resolve_left hinput] at hstore
    cases hstore
  | passed _ hv _ ih ih' =>
    intro hnone
    obtain ⟨hd, hnone⟩ := passesNone_cons.1 hnone
    obtain ⟨rfl, he⟩ := ih hp.1 hsite
    obtain ⟨rfl, hbefore, hrest⟩ := ih' hp.2 hsite hnone
    exact ⟨rfl, hbefore, refines_argument (hsite ▸ hd) hv he hrest⟩
  | inputsNil | input | location | send => trivial
  | call _ _ _ hcall ih ih' =>
    have hplain := hp.1
    simp only [isPlain, Bool.and_eq_true] at hplain
    obtain ⟨rfl, hf⟩ := ih hp.2.1 hsite
    obtain ⟨rfl, hbefore, hargs⟩ := ih' hp.2.2 hsite hplain.2
    refine ⟨rfl, ?_⟩
    rw [plainCall_of_before hbefore hcall, eval, eval, access?_of_id hplain.1.1,
      access?_of_id hplain.1.1]
    exact hf.bind fun _ => hargs.first _
  | evalCall _ ih =>
    obtain ⟨rfl, he⟩ := ih (allPlain_call.2 hp) hsite
    refine ⟨rfl, ?_⟩
    rw [exec, exec]
    exact he.first _
  | eval _ _ ih | declare _ ih =>
    obtain ⟨rfl, he⟩ := ih hp hsite
    refine ⟨rfl, ?_⟩
    rw [exec, exec]
    exact he.first _
  | blockStmt _ _ ih =>
    obtain ⟨rfl, hbody⟩ := ih hp hsite
    refine ⟨rfl, ?_⟩
    rw [exec, exec]
    exact hbody.inScope
  | branchStmt _ _ _ ihe ihy ihn =>
    obtain ⟨rfl, he⟩ := ihe hp.1 hsite
    obtain ⟨rfl, hy⟩ := ihy hp.2.1 hsite
    obtain ⟨rfl, hn⟩ := ihn hp.2.2 hsite
    refine ⟨rfl, ?_⟩
    rw [exec, exec]
    refine he.bind fun a => (Refines.refl _).bind fun b => ?_
    cases b with
    | true => exact hy.inScope
    | false => exact hn.inScope
  | loop _ _ _ ih ih' =>
    obtain ⟨rfl, he⟩ := ih hp.1 hsite
    obtain ⟨rfl, hbody⟩ := ih' hp.2 hsite
    refine ⟨rfl, ?_⟩
    rw [exec, exec]
    exact (he.first _).repeated hbody.inScope M.bound
  | @bodyCons _ _ _ _ _ _ _ site stmt _ _ _ _ ih ih' =>
    obtain ⟨rfl, hstmt⟩ := ih hp.1 hsite
    obtain ⟨rfl, hrest⟩ := ih' hp.2 ((site.context_after stmt).trans hsite)
    refine ⟨rfl, ?_⟩
    rw [execList, execList]
    exact hstmt.bind fun _ => hrest
  | branchSome _ _ ih =>
    rw [Keeps, execElse, execElse]
    exact ih hp hsite

end Staged

section Fragments

variable {site : Site} {s t u : StageState} {x z : Run Unit}

variable (M) in
/-- Statements that do what `x` does are made pending, and no step is added. -/
def Pushes (s t : StageState) (x : Run Unit) : Prop :=
  t.steps.steps = s.steps.steps ∧
    ∃ out, t.steps.pending = s.steps.pending ++ out ∧ Refines x (M.execList out)

theorem execList_append (xs ys : List CodeStmt) :
    M.execList (xs ++ ys) = M.execList xs >>= fun _ => M.execList ys := by
  induction xs with
  | nil => simp [execList]
  | cons stmt rest ih => simp [execList, ih]

theorem Pushes.trans (h : M.Pushes s t x) (h' : M.Pushes t u z) :
    M.Pushes s u (x >>= fun _ => z) := by
  obtain ⟨hsteps, out, hpending, hx⟩ := h
  obtain ⟨hsteps', out', hpending', hz⟩ := h'
  refine ⟨hsteps'.trans hsteps, out ++ out', ?_, ?_⟩
  · rw [hpending', hpending, List.append_assoc]
  · rw [execList_append]
    exact hx.bind fun _ => hz

theorem pushes_pushed (hem : Emits s t []) {stmt : CodeStmt} (h : Refines x (M.exec stmt)) :
    M.Pushes s (t.pushed stmt) x := by
  obtain ⟨hsteps, hpending⟩ := hem.same rfl
  refine ⟨hsteps, [stmt], congrArg (· ++ [stmt]) hpending, ?_⟩
  simpa [execList] using h

theorem not_plain (h : M.context.semantics.scheduling? o.id = some attr) :
    ¬ M.isPlain (.call o f args) := by
  simp [isPlain, h]

variable (hsite : site.context = M.context)

include hsite

theorem pushes_stmt {stmt : CodeStmt} (hp : M.AllPlain stmt.nodes)
    (h : Stage.stmt site stmt s = .ok r t) : M.Pushes s t (M.exec stmt) := by
  rcases stmt_ok h with ⟨e, rfl, hsends⟩ | ⟨site', stmt', a, s₁, hsite', hstmt, rfl⟩
  · cases hsends with
    | discard hattr => exact absurd (hp _ (Expr.mem_nodes_self _)) (not_plain (hsite ▸ hattr))
    | into f hattr =>
      simp only [nodes, Expr.nodes, allPlain_cons, allPlain_append] at hp
      exact absurd hp.2.2.1 (not_plain (hsite ▸ hattr))
  · have hcontext : site'.context = M.context := by
      rcases hsite' with rfl | rfl <;> exact hsite
    obtain ⟨rfl, hkeeps⟩ := keeps hstmt hp hcontext
    exact pushes_pushed hstmt.emits hkeeps

theorem pushes_body {body : List CodeStmt} (hp : M.AllPlain (nodesList body))
    (h : Stage.body site body s = .ok r t) : M.Pushes s t (M.execList body) := by
  induction body generalizing s with
  | nil =>
    cases h
    exact ⟨rfl, [], (List.append_nil _).symm, .refl _⟩
  | cons stmt rest ih =>
    simp only [nodesList, allPlain_append] at hp
    obtain ⟨s₁, hstmt, -, hrest⟩ := Stage.body_cons h
    have hfirst := pushes_stmt hsite hp.1 hstmt
    rw [execList]
    exact Pushes.trans (t := { s₁ with uses := [] }) hfirst (ih hp.2 hrest)

theorem pushes_initializer (hstore : M.context.activity.stores[id]? = some store) (hid : M.finds id)
    (hp : M.AllPlain e.nodes) (h : initializer site store e s = .ok r t) :
    M.Pushes s t (do write (← M.eval e) (.inl id)) := by
  simp only [finds, hstore, Option.bind_some, beq_iff_eq] at hid
  obtain ⟨y, hy, hfind⟩ := Option.bind_eq_some_iff.1 hid
  rcases initializer_ok (hsite ▸ Array.mem_of_getElem? hstore) h with
    ⟨o, f, args, attr, r, a, rfl, hattr, -⟩ | ⟨v, a, s₁, hv, rfl⟩
  · exact absurd (hp _ (Expr.mem_nodes_self _)) (not_plain (hsite ▸ hattr))
  · obtain ⟨rfl, he⟩ := keeps hv hp hsite
    have hset : M.eval (Expr.storeSet store.handle v) = _ := eval_set hy hfind rfl
    refine pushes_pushed hv.emits ?_
    rw [exec, hset]
    simpa using he.first fun v => write v (.inl id)

theorem pushes_code {body : List CodeStmt} (hp : M.AllPlain (nodesList body))
    {declared : Option StoreId} (hdeclared : ∀ id ∈ declared, M.finds id) {r : Unit}
    (h : Stage.code site body (declared.bind fun id => M.context.activity.stores[id]?) s =
      .ok r t) : M.Pushes s t (M.runCode declared body) := by
  unfold runCode
  split
  · next id _ _ _ e =>
    have hid := hdeclared id rfl
    simp only [nodesList, nodes, Expr.nodes, allPlain_append,
      allPlain_cons] at hp
    cases hstore : M.context.activity.stores[id]? with
    | none => simp [finds, hstore] at hid
    | some store =>
      rw [Option.bind_some, hstore] at h
      exact pushes_initializer hsite hstore hid hp.1.2.2 h
  · next hne =>
    generalize hstore : (declared.bind fun id => M.context.activity.stores[id]?) = store at h
    unfold Stage.code at h
    split at h
    · obtain ⟨id, rfl, -⟩ := Option.bind_eq_some_iff.1 hstore
      exact absurd rfl (hne id _ _ _ _ rfl)
    · exact pushes_body hsite hp h

end Fragments

end Machine

end Plain

open Plain in
/-- Plain code that is staged adds no step, and what it adds to the pending statements does what the
code does, in every memory: it makes the same writes to stores in the same order and leaves the same
locals. Stores that the code names have to be found by their handles. -/
theorem plainCode_runs_alike (M : Machine) {body : List CodeStmt}
    (hplain : M.AllPlain (nodesList body)) (declared : Option StoreId)
    (hdeclared : ∀ id ∈ declared, M.finds id) {site : Site} (hsite : site.context = M.context)
    {s t : StageState}
    (h : code site body (declared.bind fun id => M.context.activity.stores[id]?) s = .ok () t) :
    t.steps.steps = s.steps.steps ∧ ∃ out, t.steps.pending = s.steps.pending ++ out ∧
      ∀ m m', M.runCode declared body m = some ((), m') → M.execList out m = some ((), m') := by
  obtain ⟨hsteps, out, hpending, hrefines⟩ := Machine.pushes_code hsite hplain hdeclared h
  exact ⟨hsteps, out, hpending, fun m m' hm => hrefines m _ hm⟩

section Sample

open Linearization Plain

def looping : List CodeStmt :=
  [.declare "n" .int (some readS) {},
    .loop (.binary {} .lt (.ident "n") (.int 3))
      (.block [.eval (.assign {} .add readX (.unary {} .postIncrement (.ident "n")))]),
    .eval (.unary {} .postIncrement readS)]

def sampleMachine : Machine :=
  { Runtime.arithmetic with
    context := sample
    handle := fun x => if x = "s" then some 0 else if x = "x" then some 1 else none
    bound := 9
    name := fun _ => none
    member := fun _ _ => none
    index := fun _ _ => none
    create := fun _ _ => none
    call := fun _ _ => none }

/-- What the source leaves behind. -/
def loopingMemory : { m : Option Memory //
    m.map (fun m => m.writes.map fun w => (w.1, w.2.asInt)) =
        some [(1, some 0), (1, some 1), (1, some 3), (0, some 1)] ∧
      (∀ e ∈ nodesList looping, sampleMachine.isPlain e) ∧
      (outcome? sample [(looping, none)]).any (fun _ => true) = true } where
  val := (sampleMachine.runCode none looping { stores := fun _ => some (.int 0) }).map (·.2)
  property := by decide +kernel

theorem plainCode_runs_alike_looping :
    ∃ t m', code { context := sample, span := {} } looping none {} = .ok () t ∧
      sampleMachine.execList t.steps.pending { stores := fun _ => some (.int 0) } = some ((), m') ∧
      m'.writes.map (fun w => (w.1, w.2.asInt)) =
        [(1, some 0), (1, some 1), (1, some 3), (0, some 1)] := by
  obtain ⟨hwrites, hplain, houtcome⟩ := loopingMemory.property
  obtain ⟨m', hm', hwrites⟩ := Option.map_eq_some_iff.1 hwrites
  obtain ⟨⟨⟨⟩, m⟩, hm, rfl⟩ := Option.map_eq_some_iff.1 hm'
  obtain ⟨_, hstage, -⟩ := ok_of_outcome? houtcome
  obtain ⟨_, t, ht, -⟩ := bind_eq_ok.1 hstage
  obtain ⟨-, out, hout, hrefines⟩ := plainCode_runs_alike sampleMachine hplain none nofun rfl ht
  rw [List.nil_append] at hout
  exact ⟨t, m, ht, hout ▸ hrefines _ _ hm, hwrites⟩

end Sample

end Workflow
