import Workflow.Proofs.Lower.Reading
import Workflow.Proofs.Resolve.Correlation

/-!
# What lowering reads

Lowering follows the statements of an activity from the root on, and looks up the stores that these
refer to and what is known about the code that is shown to the oracle. So it does the same in
another context that agrees about these.
-/

namespace Workflow

open List

namespace Activity

/-- The activity refers to a store by its index. -/
inductive NamesStore (a : Activity) (k : StoreId) : Prop
  | hosted (h : StoreHost) (mem : k ∈ a.storesAt h)
  | parameter (mem : k ∈ a.parameters)
  | result (mem : k ∈ a.result)
  | part (i : StmtId) (mem : k ∈ (a.kind i).storeRefs)
  | handle (i : StmtId) (op : ServiceOperation) (service : a.service? i = some op)
    (mem : k ∈ op.correlationStore)

/-- The activity refers to a statement by its index, in a way that lowering follows. -/
inductive NamesStmt (a : Activity) (m : StmtId) : Prop
  | root (eq : m = a.root)
  | child (i : StmtId) (mem : m ∈ (a.kind i).children)
  | chained (i : StmtId) (mem : m ∈ (a.kind i).chained)
  | request (i : StmtId) (op : ServiceOperation) (service : a.service? i = some op)
    (mem : m ∈ op.request)

/-- The second activity has what the first one has and what it refers to, at the same places. -/
structure Included (a b : Activity) : Prop where
  name : b.name = a.name
  root : b.root = a.root
  size : a.stmts.size ≤ b.stmts.size
  stmts : ∀ i < a.stmts.size, b.stmts[i]? = a.stmts[i]?
  own : b.activityStores = a.activityStores
  parameters : b.parameters = a.parameters
  result : b.result = a.result
  stores : ∀ k, a.NamesStore k → b.stores[k]? = a.stores[k]?
  request : ∀ i op q, a.service? i = some op → op.request = some q → b.service? q = a.service? q

namespace Included

variable {a b : Activity}

theorem refl (a : Activity) : a.Included a :=
  ⟨rfl, rfl, Nat.le_refl _, fun _ _ => rfl, rfl, rfl, rfl, fun _ _ => rfl, fun _ _ _ _ _ => rfl⟩

variable (h : a.Included b) {i : StmtId} (hi : i < a.stmts.size)

include h

theorem bind_stores {o : Option StoreId} (ho : ∀ k ∈ o, a.NamesStore k) :
    (o.bind fun k => b.stores[k]?) = o.bind fun k => a.stores[k]? := by
  cases o with
  | none => rfl
  | some k => exact h.stores k (ho k rfl)

include hi

theorem kind : b.kind i = a.kind i := by rw [Activity.kind, Activity.kind, h.stmts i hi]

theorem stmtSpan : b.stmtSpan i = a.stmtSpan i := by
  rw [Activity.stmtSpan, Activity.stmtSpan, h.stmts i hi]

theorem storesOf : b.storesOf i = a.storesOf i := by
  rw [Activity.storesOf, Activity.storesOf, h.stmts i hi]

end Included

theorem placed_trivial (a : Activity) : a.Placed fun _ => True :=
  ⟨fun _ _ => trivial, fun _ => ⟨fun _ _ => trivial, fun _ _ => ⟨trivial, fun _ _ => trivial⟩,
    fun _ _ => trivial⟩, fun _ _ _ => trivial⟩

end Activity

theorem StmtKind.mem_slots_of_emitted {k : StmtKind} (hf : f ∈ k.emitted) : f ∈ k.slots := by
  cases k
  case service op =>
    simp only [emitted, slots, ServiceOperation.slots, mem_append] at hf ⊢
    refine hf.imp_right fun hf => ?_
    split at hf
    · exact hf
    · cases hf
  all_goals exact hf

namespace LowerContext.View

open Lower

variable {c : LowerContext}

/-- A view in which every place and every name is fine, beside another context. -/
def beside (other : LowerContext) (allows : CompileError → Prop)
    (plain : ∀ e : CompileError, e.IsPlain → allows e) (limit : other.maxDepth = c.maxDepth)
    (type_eq : ∀ st ∈ c.activity.stores,
      other.semantics.declarationType? st.marker = c.semantics.declarationType? st.marker) :
    c.View where
  other := other
  strict := False
  place _ := True
  allows := allows
  names := .any c
  plain h _ _ := plain _ h
  limit := Nat.le_of_eq limit.symm
  same_limit := .inr limit
  type_eq := type_eq
  stores _ _ := trivial

def naming (V : c.Vocabulary) (strict : Prop) : c.View where
  other := c
  strict := strict
  place _ := True
  allows _ := True
  names := V
  plain _ _ _ := trivial
  limit := Nat.le_refl _
  same_limit := .inr rfl
  type_eq _ _ := rfl
  stores _ _ := trivial

def reporting {place : Span → Prop} (h : c.activity.Placed place) (allows : CompileError → Prop)
    (plain : ∀ {cause : Cause} {span}, cause.isInternal = false → cause.isTooDeep = false →
      place span → allows (cause.error span)) : c.View where
  other := c
  strict := False
  place := place
  allows := allows
  names := .any c
  plain := plain
  limit := Nat.le_refl _
  same_limit := .inr rfl
  type_eq _ _ := rfl
  stores st hst := by
    obtain ⟨k, hk⟩ := Array.getElem?_of_mem hst
    exact h.stores k st hk

theorem naming_covers {V : site.context.Vocabulary} {ms : List Mention} (h : V.All ms)
    (es : List Expr) (n : Nat) : (naming V False).Covers site es ms n :=
  ⟨⟨rfl, trivial⟩, ⟨fun _ _ => rfl, fun _ _ => rfl, fun _ _ => rfl, fun _ _ => trivial, h⟩,
    .inl fun _ _ => trivial⟩

/-- Where no call may be scheduled, staging makes no steps, also if it stops with an error. -/
theorem steps_value (hcan : site.canSchedule = false) (e : Expr)
    (l : LowerState) : ((Lower.stage (Stage.value site e)).run l).1.2 = {} := by
  have hcovers : (naming (.any site.context) False).Covers site e.nodes e.mentions e.height :=
    naming_covers (fun _ _ => trivial) _ _
  have hends := stages_expr e hcovers { lower := l } ⟨.empty, fun _ _ => trivial⟩
  have hvalue : Stage.value site e { lower := l } = EStateM.bind (Stage.expr site e)
      (fun e => do Stage.modifySteps StepList.flush; return e) { lower := l } := rfl
  rw [Clean.run_stage, hvalue, EStateM.bind]
  cases hrun : Stage.expr site e { lower := l } with
  | ok a r =>
    rw [hrun] at hends
    have hsteps : r.steps = {} := hends.2.1.steps hcan
    have hflush : r.steps.flush = {} := by rw [hsteps]; rfl
    exact hflush
  | error err r =>
    rw [hrun] at hends
    exact hends.2.1.steps hcan

variable (W : c.View)

/-- The slot of a statement is at a place, and the other context says the same about it. -/
structure Reads (f : Fragment) : Prop where
  span : W.place f.span
  knows : W.Knows f.expr.nodes f.expr.mentions
  reaches : W.Reaches { context := c, span := f.span } f.expr.height
  whole : W.names.whole

/-- The other context has what this one has and says the same about all shown code and about stores;
no expression is too high, unless such errors are allowed. -/
structure Sees : Prop where
  wellBuilt : c.activity.WellBuilt
  included : c.activity.Included W.other.activity
  shown : ∀ i, W.Knows (c.activity.kind i).shown (c.activity.kind i).mentions
  placed : c.activity.Placed W.place
  deep : (∀ span, W.place span → W.allows ((Cause.expressionTooDeep c.maxDepth).error span)) ∨
    ∀ i, (c.activity.kind i).Fits c.maxDepth
  whole : W.names.whole

theorem beside_sees {allows : CompileError → Prop}
    {plain : ∀ e : CompileError, e.IsPlain → allows e} (ha : c.activity.WellBuilt) :
    (beside c allows plain rfl fun _ _ => rfl).Sees where
  wellBuilt := ha
  included := .refl _
  shown _ := ⟨fun _ _ => rfl, fun _ _ => rfl, fun _ _ => rfl, fun _ _ => trivial,
    fun _ _ => trivial⟩
  placed := c.activity.placed_trivial
  deep := .inl fun _ _ => plain _ rfl
  whole := trivial

theorem naming_sees {V : c.Vocabulary} {strict : Prop} (hw : V.whole)
    (ha : c.activity.WellBuilt) : (naming V strict).Sees where
  wellBuilt := ha
  included := .refl _
  shown i := ⟨fun _ _ => rfl, fun _ _ => rfl, fun _ _ => rfl, fun _ _ => trivial, V.code hw i⟩
  placed := c.activity.placed_trivial
  deep := .inl fun _ _ => trivial
  whole := hw

/-- Steps that are hoisted keep to the names that are expected, and have no landmarks. -/
structure Hoists (h : Hoisted) : Prop where
  vars : W.names.Vars h.vars
  nodes : ∀ n ∈ h.nodes, W.names.All n.mentions
  landmarks : h.nodes.flatMap Node.landmarks = []

/-- What a step of lowering gives, unless it is followed with errors that do not count. -/
def Gives {α : Type} (x : Lower α) (Q : α → Prop) : Prop :=
  ∀ l, (W.strict → (x.run l).2.errors.errors = []) → Q (x.run l).1

/-- What a step of lowering does, here and in the other context. -/
structure Runs {α : Type} (x y : Lower α) (Q : α → Prop) : Prop where
  reports : W.Reports x
  ends : ∀ l, (W.strict → (x.run l).2.errors.errors = []) → y.run l = x.run l ∧ Q (x.run l).1

variable {W}

/-! ### Steps of lowering -/

namespace Runs

variable {α β : Type} {x y : Lower α} {f g : α → Lower β} {P Q : α → Prop} {R : β → Prop}

theorem pure {a : α} (h : Q a) : W.Runs (Pure.pure a) (Pure.pure a) Q where
  reports l := ⟨[], (append_nil _).symm, fun _ he => by cases he⟩
  ends _ _ := ⟨rfl, h⟩

/-- What follows may use what the step gives in any case, and what it gives has the property unless
there are errors that do not count. -/
theorem bind_of {G : α → Prop} (hx : W.Runs x y Q) (hG : ∀ l, G (x.run l).1)
    (hf : ∀ a, G a → W.Runs (f a) (g a) fun b => Q a → R b) : W.Runs (x >>= f) (y >>= g) R where
  reports l := by
    obtain ⟨new, hnew, hallows⟩ := hx.reports l
    obtain ⟨new', hnew', hallows'⟩ := (hf _ (hG l)).reports (x.run l).2
    refine ⟨new ++ new', ?_, forall_mem_append.2 ⟨hallows, hallows'⟩⟩
    rw [← append_assoc, ← hnew]
    exact hnew'
  ends l hl := by
    have hrest := hf _ (hG l)
    obtain ⟨new, hnew, -⟩ := hrest.reports (x.run l).2
    obtain ⟨hsame, hQ⟩ := hx.ends l fun hstrict => (append_eq_nil_iff.1
      (hnew.symm.trans (hl hstrict))).1
    obtain ⟨hsame', hR⟩ := hrest.ends (x.run l).2 hl
    have hbind : (y >>= g).run l = (g (y.run l).1).run (y.run l).2 := rfl
    refine ⟨?_, hR hQ⟩
    rw [hbind, hsame]
    exact hsame'

theorem bind (hx : W.Runs x y Q) (hf : ∀ a, W.Runs (f a) (g a) fun b => Q a → R b) :
    W.Runs (x >>= f) (y >>= g) R :=
  hx.bind_of (G := fun _ => True) (fun _ => trivial) fun a _ => hf a

theorem mono (hx : W.Runs x y P) (h : ∀ a, P a → Q a) : W.Runs x y Q :=
  ⟨hx.reports, fun l hl => (hx.ends l hl).imp_right (h _)⟩

theorem given (hx : W.Runs x y Q) : W.Gives x Q := fun l hl => (hx.ends l hl).2

theorem gives (hx : W.Runs x y P) (h : W.Gives x Q) : W.Runs x y Q :=
  ⟨hx.reports, fun l hl => ⟨(hx.ends l hl).1, h l hl⟩⟩

theorem and (hx : W.Runs x y P) (h : W.Gives x Q) : W.Runs x y fun a => P a ∧ Q a :=
  ⟨hx.reports, fun l hl => ⟨(hx.ends l hl).1, (hx.ends l hl).2, h l hl⟩⟩

theorem map {k : α → β} (hx : W.Runs x y Q) (h : ∀ a, Q a → R (k a)) :
    W.Runs (k <$> x) (k <$> y) R := by
  rw [map_eq_pure_bind, map_eq_pure_bind]
  exact hx.bind fun a => pure (h a)

theorem reportError (he : W.allows e) {a : α} (hQ : ¬ W.strict → Q a) :
    W.Runs (Lower.reportError e >>= fun _ => Pure.pure a)
      (Lower.reportError e >>= fun _ => Pure.pure a) Q where
  reports l := ⟨[e], rfl, by simpa using he⟩
  ends l hl := ⟨rfl, hQ fun hstrict => append_ne_nil_of_right_ne_nil _
    (cons_ne_nil _ _) (hl hstrict)⟩

theorem report {cause : Cause} {span : Span} (he : W.allows (cause.error span)) {a : α}
    (hQ : ¬ W.strict → Q a) : W.Runs (Lower.report cause span >>= fun _ => Pure.pure a)
      (Lower.report cause span >>= fun _ => Pure.pure a) Q :=
  reportError he hQ

theorem tempVar (hstem : stem ∈ ["r", "c", "v", "l"]) :
    W.Runs (Lower.tempVar stem) (Lower.tempVar stem) IsHolder where
  reports l := ⟨[], (append_nil _).symm, fun _ he => by cases he⟩
  ends _ _ := ⟨rfl, stem, hstem, _, rfl⟩

theorem stage {x y : Stage α} (hx : W.Stages False x y Q)
    {f : Except CompileError α × StepList → Lower β} {F : α → StepList → β} {b : β}
    (hok : ∀ a steps, f (.ok a, steps) = Pure.pure (F a steps))
    (herror : ∀ e steps, f (.error e, steps) = Lower.reportError e >>= fun _ => Pure.pure b)
    (hR : ∀ a steps, Q a → W.names.Steps steps → R (F a steps)) (hb : ¬ W.strict → R b) :
    W.Runs (Lower.stage x >>= f) (Lower.stage y >>= f) R := by
  have hstart : ∀ l, W.Holds { lower := l } := fun l => ⟨.empty, fun _ h => by cases h⟩
  have hrun : ∀ (x : Stage α) l, (Lower.stage x >>= f).run l =
      (f ((Lower.stage x).run l).1).run ((Lower.stage x).run l).2 := fun _ _ => rfl
  have hends := fun l => hx _ (hstart l)
  constructor
  · intro l
    have hends := hends l
    rw [hrun, Clean.run_stage]
    cases h : x { lower := l } with
    | ok a r =>
      rw [h] at hends
      rw [hok]
      exact hends.2.1.errors
    | error e r =>
      rw [h] at hends
      obtain ⟨-, hleaves, he⟩ := hends
      obtain ⟨new, hnew, hallows⟩ := hleaves.errors
      rw [herror]
      refine ⟨new ++ [e], ?_, forall_mem_append.2 ⟨hallows, by simpa using he⟩⟩
      rw [← append_assoc, ← hnew]
      rfl
  · intro l hl
    have hends := hends l
    rw [hrun, Clean.run_stage] at hl ⊢
    rw [hrun, Clean.run_stage]
    cases h : x { lower := l } with
    | ok a r =>
      rw [h] at hends
      obtain ⟨hy, -, hholds, ha⟩ := hends
      rw [hy, hok]
      exact ⟨rfl, hR a r.steps ha hholds.steps⟩
    | error e r =>
      rw [h] at hends hl
      obtain ⟨hy, -, he⟩ := hends
      have hstrict := fun hstrict => append_ne_nil_of_right_ne_nil _
        (cons_ne_nil e []) (by rw [herror] at hl; exact hl hstrict)
      rw [hy.resolve_left hstrict, herror]
      exact ⟨rfl, hb hstrict⟩

end Runs

/-! ### Slots -/

section Slots

variable {f : Fragment} {id : StmtId} {k : StmtKind}

theorem Reads.slotType_eq (h : W.Reads f) (ty : Option TypeName) :
    slotType W.other f ty = slotType c f ty := by
  rw [slotType, slotType, h.knows.type _ f.expr.mem_nodes_self]

variable (hs : W.Sees)

include hs

theorem Sees.reads (hk : c.activity.kind id = k) (hf : f ∈ k.emitted) : W.Reads f := by
  subst hk
  have hslot := StmtKind.mem_slots_of_emitted hf
  refine ⟨((hs.placed.kind id).slots f hslot).span, (hs.shown id).mono
    (StmtKind.mem_shown_of_emitted hf) fun m hm => ?_, hs.deep.imp_right fun hfits => ?_, hs.whole⟩
  · exact mem_append_right _ (mem_flatMap.2 ⟨f, hslot, hm⟩)
  · rw [Nat.zero_add]
    exact (hfits id).slots f hslot

omit hs in
theorem runs_value (h : W.Reads f) (ty : Option TypeName) :
    W.Runs (value c f ty) (value W.other f ty) fun r =>
      W.names.All r.1.expr.mentions ∧ W.Hoists r.2 := by
  have hsite : W.At { context := c, span := f.span } := ⟨rfl, h.span⟩
  have hstage := stages_value ⟨hsite, h.knows, h.reaches⟩
  unfold value
  rw [h.slotType_eq]
  refine .stage hstage (fun _ _ => rfl) (fun _ _ => rfl) (fun e steps he hsteps => ?_) fun _ => ?_
  · exact ⟨he, hsteps.vars h.whole, hsteps.nodes h.whole, hsteps.landmarks_nodes⟩
  · exact ⟨Vocabulary.all_null, .nil, fun _ hn => (by cases hn), rfl⟩

omit hs in
theorem runs_restricted (h : W.Reads f) (ty : Option TypeName) (slot : Slot) :
    W.Runs (restricted c f ty slot) (restricted W.other f ty slot) fun v =>
      W.names.All v.expr.mentions := by
  have hsite : W.At { context := c, span := f.span, slot := some slot.name } := ⟨rfl, h.span⟩
  have hstage := stages_value ⟨hsite, h.knows, h.reaches⟩
  unfold restricted
  rw [h.slotType_eq]
  exact .stage hstage (fun _ _ => rfl) (fun _ _ => rfl) (fun e _ he _ => he)
    fun _ => Vocabulary.all_null

/-- No chain of code statements is longer than there are statements after its start. -/
theorem stages_codeChain {span : Span} (hspan : W.place span) {n n' id : Nat}
    (hid : id < c.activity.stmts.size) (hn : c.activity.stmts.size - id ≤ n)
    (hn' : c.activity.stmts.size - id ≤ n') :
    W.Stages False (codeChain { context := c, span := span } n id)
      (codeChain { context := W.other, span := span } n' id) fun _ => True := by
  induction n generalizing n' id with
  | zero => omega
  | succ n ih =>
    obtain ⟨n', rfl⟩ : ∃ m, n' = m + 1 := ⟨n' - 1, by omega⟩
    have hshown := hs.shown id
    rw [codeChain, codeChain]
    dsimp only
    rw [hs.included.kind hid]
    cases hk : c.activity.kind id
    case code f chained initializes =>
      rw [hk] at hshown
      have hget := hs.included.bind_stores (o := initializes) fun k hinit =>
        .part id (by rw [hk]; exact Option.mem_toList.2 hinit)
      have hdeclared : ∀ k ∈ (Emit.assignedValue f.body).bind fun _ => initializes,
          k < c.activity.stores.size := by
        intro k hkd
        obtain ⟨st, hst, -⟩ := hs.wellBuilt.seesFirst id k (by rw [hk]; exact hkd)
        exact (Array.getElem?_eq_some_iff.1 hst).1
      have hsite : W.At { context := c, span := span } := ⟨rfl, hspan⟩
      have hreaches : W.Reaches { context := c, span := span } (CodeStmt.heightList f.body) := by
        refine hs.deep.imp_right fun hfits => ?_
        have hbody := (hfits id).body
        rw [hk] at hbody
        rwa [Nat.zero_add]
      have hcode := stages_code ⟨hsite,
        { hshown with named := (Mention.all_append.1 hshown.named).1 }, hreaches⟩ hdeclared
      dsimp only
      rw [hget]
      refine hcode.bind fun _ _ => ?_
      cases hchained : chained with
      | none => exact .pure trivial
      | some next =>
        obtain ⟨hlt, hnext⟩ : id < next ∧ next < c.activity.stmts.size :=
          hs.wellBuilt.lt_chained (by rw [chainedTo, hk]; exact hchained)
        have hless := Nat.sub_lt_sub_left hid hlt
        exact ih hnext (by omega) (by omega)
    all_goals exact .pure trivial

theorem runs_codeRun (hid : id < c.activity.stmts.size) :
    W.Runs (codeRun c id) (codeRun W.other id) fun r =>
      (∀ n ∈ r, W.names.All n.mentions) ∧ r.toList.flatMap Node.landmarks = [] := by
  have hstage := stages_codeChain hs (hs.placed.stmts id hid) hid (Nat.sub_le _ _)
    ((Nat.sub_le _ _).trans hs.included.size)
  unfold codeRun
  rw [hs.included.stmtSpan hid]
  refine .stage hstage (fun _ _ => rfl) (fun _ _ => rfl) (fun _ steps _ hsteps => ?_) fun _ => ?_
  · refine ⟨hsteps.finish hs.whole, ?_⟩
    rw [StepList.landmarks_finish]
    exact hsteps.landmarks_nodes
  · exact ⟨fun _ hn => (by cases hn), rfl⟩

omit hs in
theorem runs_storeType (hst : st ∈ c.activity.stores) :
    W.Runs (storeType c st) (storeType W.other st) fun _ => True := by
  rw [storeType_eq hst]
  exact ⟨reports_storeType hst, fun _ _ => ⟨rfl, trivial⟩⟩

omit hs in
theorem runs_location (hst : st ∈ c.activity.stores) :
    W.Runs (location c st) (location W.other st) fun l => l.handle = st.handle :=
  (runs_storeType hst).bind fun _ => .pure fun _ => rfl

end Slots

end LowerContext.View

end Workflow
