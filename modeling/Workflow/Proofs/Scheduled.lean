import Workflow.Proofs.Model.Placement
import Workflow.Proofs.Settled

/-!
# Scheduled calls

The calls that an activity schedules are the nodes that its graph invokes: none is lost, and none is
duplicated except those in the condition of a loop that tests first. The lexical oracle marks a call
as scheduled only if the callee spells out a type, and only names as stores, so nothing that is
dropped schedules a call.
-/

namespace Workflow

open List Activity ExternalNodeType ModelProgram

variable {e : Expr}

/-! ### What the oracle says about the expressions of a program -/

section Answer

variable {units : List CompilationUnit} {found : List ExternalNodeType} {answer : SemanticModel}
variable {lo hi : Nat} (hids : Allocated lo hi (units.flatMap (·.activities)))
variable (h : ModelUnit.analyzeAll
  (emit units (synthesize found)).units = .ok answer)

include hids h

/-- What the oracle says about an expression may be said, and the expression was shown. -/
theorem allows_of_annotation? (he : e ∈ (units.flatMap (·.activities)).flatMap exprs)
    (hann : answer.index.annotation? e.id = some ann) :
    (∃ known : Known, known.Allows (TypeTable.ofUnits (emit units (synthesize found)).units) e
      ann.symbol) ∧ e ∈ (units.flatMap (·.activities)).flatMap shown := by
  obtain ⟨id, hid, hfind⟩ := Option.bind_eq_some_iff.1 hann
  have hexpr : ann.expr = id := by simpa using find?_some hfind
  obtain ⟨f, hf, hmem⟩ :=
    mem_flatMap.1 (mem_reverse.1 (mem_of_find?_eq_some hfind))
  have hwell : ∀ u ∈ units, ∀ a ∈ u.activities, a.WellBuilt :=
    fun u hu a ha => hids.wellBuilt a (mem_flatMap.2 ⟨u, hu, ha⟩)
  obtain ⟨known, code, ⟨u, hu, a, ha, i, hplace, -⟩, hnamed⟩ :=
    analyzeAll_named (scoped_emit found hwell) h f hf
  obtain ⟨e', he', hid', hallows⟩ := hnamed.exprs ann hmem
  have hshown : e' ∈ (units.flatMap (·.activities)).flatMap shown :=
    mem_flatMap.2 ⟨a, mem_flatMap.2 ⟨u, hu, ha⟩, a.mem_shown (hplace e' he')⟩
  have hexprs : e' ∈ (units.flatMap (·.activities)).flatMap exprs :=
    (flatMap_exprs_perm _).mem_iff.2 (mem_append_left _ hshown)
  have hsame : e = e' :=
    eq_of_exprIds_nodup hids.nodup he hexprs hid (hid'.trans (congrArg some hexpr))
  exact hsame ▸ ⟨⟨known, hallows⟩, hshown⟩

theorem fits_of_symbol? (he : e ∈ (units.flatMap (·.activities)).flatMap exprs) :
    e.Fits (answer.index.symbol? e.id) := by
  rw [SemanticIndex.symbol?]
  cases hann : answer.index.annotation? e.id with
  | none => exact e.fits_none
  | some ann =>
    obtain ⟨⟨_, hallows⟩, -⟩ := allows_of_annotation? hids h he hann
    exact hallows.fits

theorem offers_of_scheduling? (he : e ∈ (units.flatMap (·.activities)).flatMap exprs)
    (hattr : answer.index.scheduling? e.id = some attr) :
    (TypeTable.ofUnits (emit units (synthesize found)).units).Offers attr := by
  unfold SemanticIndex.scheduling? at hattr
  split at hattr
  · next m hm =>
    obtain ⟨ann, hann, hm⟩ := Option.bind_eq_some_iff.1 hm
    obtain ⟨⟨_, hallows⟩, -⟩ := allows_of_annotation? hids h he hann
    exact hallows.offered m attr hm hattr
  · cases hattr

/-- The oracle says nothing about what it is not shown. -/
theorem annotation?_hidden (he : e ∈ (units.flatMap (·.activities)).flatMap Activity.hidden) :
    answer.index.annotation? e.id = none := by
  have hperm := flatMap_exprs_perm (units.flatMap (·.activities))
  rw [Option.eq_none_iff_forall_ne_some]
  intro ann hann
  have hshown := (allows_of_annotation? hids h (hperm.mem_iff.2 (mem_append_right _ he)) hann).2
  obtain ⟨id, hid, -⟩ := Option.bind_eq_some_iff.1 hann
  -- The identity would stand among the shown and among the hidden ones.
  have hnodup := hids.nodup
  rw [exprIds_perm hperm, exprIds_append, Multiset.nodup_add] at hnodup
  exact Multiset.disjoint_left.1 hnodup.2.2 (mem_filterMap.2 ⟨e, hshown, hid⟩)
    (mem_filterMap.2 ⟨e, he, hid⟩)

end Answer

/-! ### The account of scheduled calls -/

def SemanticIndex.scheduledType? (x : SemanticIndex) (e : Expr) : Option String :=
  if e.isCall then (x.scheduling? e.id).map (·.nodeType) else none

/-- The expressions of a statement as often as its graph evaluates them: the condition of a loop
that tests first counts twice. -/
def StmtKind.evaluated (k : StmtKind) : List Expr :=
  match k with
  | .loop condition _ false => condition.expr.nodes ++ condition.expr.nodes
  | k => k.exprs

def Activity.scheduledTypes (a : Activity) (x : SemanticIndex) : List String :=
  (range a.stmts.size).flatMap fun i => (a.kind i).evaluated.filterMap x.scheduledType?

section Account

variable (c : LowerContext)

def LowerContext.scheduled : Account String where
  context := c
  kept _ := True
  strict := False
  unsettled _ := 0
  invoke nodeType := {nodeType}
  unbound _ _ _ := 0
  settled _ _ _ := rfl

variable {c}

theorem sent_scheduled (e : Expr) : c.scheduled.sent e = ↑(c.semantics.scheduledType? e).toList := by
  cases e with
  | call o f args =>
    have hindex : c.scheduled.context.semantics = c.semantics := rfl
    rw [Account.sent, hindex, SemanticIndex.scheduledType?, Expr.isCall, if_pos rfl, Expr.id,
      Expr.origin]
    cases c.semantics.scheduling? o.id <;> rfl
  | _ => rfl

theorem calls_scheduled (es : List Expr) :
    c.scheduled.calls es = ↑(es.filterMap c.semantics.scheduledType?) := by
  induction es with
  | nil => rfl
  | cons e es ih =>
    rw [Account.calls_cons, ih, sent_scheduled, filterMap_cons]
    cases c.semantics.scheduledType? e <;> rfl

theorem own_scheduled (k : StmtKind) : c.scheduled.amounts.own k =
    ↑(k.evaluated.filterMap c.semantics.scheduledType?) := by
  have hslots : ∀ fs : List Fragment, (fs.map c.scheduled.amounts.slot).sum =
      c.scheduled.calls (fs.flatMap (·.expr.nodes)) := by
    intro fs
    induction fs with
    | nil => rfl
    | cons f fs ih =>
      rw [map_cons, sum_cons, ih, flatMap_cons, Account.calls_append]
      rfl
  rw [← calls_scheduled]
  cases k with
  | code f next initializes => exact (congrArg c.scheduled.calls (append_nil _)).symm
  | loop condition body testAfter =>
    cases testAfter with
    | false => exact Account.calls_append.symm
    | true => exact hslots _
  | _ => exact hslots _

theorem weight_scheduled (n : Node) : n.weight c.scheduled.weighing = ↑n.invokedTypes := by
  have hzero : ∀ es : List Expr, (es.map c.scheduled.unsettled).sum = 0 := fun es =>
    sum_eq_zero fun x hx => by
      obtain ⟨e, -, rfl⟩ := mem_map.1 hx
      rfl
  have hkind : ∀ kind : NodeKind,
      kind.weight c.scheduled.weighing = ↑kind.invokedType?.toList := by
    intro kind
    have hslots : (kind.slots.map c.scheduled.weighing.expr).sum = 0 := by
      refine sum_eq_zero fun x hx => ?_
      obtain ⟨e, -, rfl⟩ := mem_map.1 hx
      exact hzero e.nodes
    rw [NodeKind.weight, hslots, zero_add]
    cases kind with
    | code body => exact hzero _
    | _ => rfl
  rw [Node.weight, Node.invokedTypes]
  induction n.nodes with
  | nil => rfl
  | cons m ms ih =>
    rw [map_cons, sum_cons, ih, hkind, filterMap_cons]
    cases m.kind.invokedType? <;> rfl

theorem calls_path (h : e.isPath = true) : c.scheduled.calls e.nodes = 0 := by
  induction e using Expr.isPath.induct with
  | case1 o n => simp [Expr.nodes, Account.sent]
  | case2 o target name ih => simpa [Expr.nodes, Account.sent] using ih h
  | case3 e hname hmember => simp [Expr.isPath] at h

theorem calls_unmarked
    (h : ∀ e ∈ es, c.semantics.annotation? e.id = none) : c.scheduled.calls es = 0 := by
  refine sum_eq_zero fun x hx => ?_
  obtain ⟨e, he, rfl⟩ := mem_map.1 hx
  have hnone : c.semantics.scheduling? e.id = none := by
    rw [SemanticIndex.scheduling?, SemanticIndex.symbol?, h e he]
    rfl
  rw [sent_scheduled, SemanticIndex.scheduledType?, hnone]
  split <;> rfl

/-- What is said about an expression fits its form, so nothing that schedules a call is dropped. -/
theorem fair_of_fits (h : e.Fits (c.semantics.symbol? e.id)) : c.scheduled.Fair e where
  kept _ _ _ _ := trivial
  places := False.elim
  bound _ _ _ _ _ _ _ _ _ := rfl
  store hstore := by
    obtain ⟨st, hst⟩ := Option.isSome_iff_exists.1 hstore
    obtain ⟨m, hm, -⟩ := Option.bind_eq_some_iff.1 hst
    have hsymbol : c.semantics.symbol? e.id = some (.store m) := by
      unfold SemanticIndex.storeMarker? at hm
      split at hm
      · cases hm
        assumption
      · cases hm
    have hname := h.store m hsymbol
    cases e with
    | name o n => exact calls_path rfl
    | _ => cases hname
  callee o f args he hsome := by
    subst he
    refine calls_path ?_
    obtain ⟨attr, hattr⟩ := Option.isSome_iff_exists.1 hsome
    unfold SemanticIndex.scheduling? at hattr
    split at hattr
    · next m hm => exact h.callee o f args m rfl hm
    · cases hattr

end Account

section Program

variable {units : List CompilationUnit} {found : List ExternalNodeType} {answer : SemanticModel}
  {lo hi : Nat}

theorem fairActivity_scheduled (hids : Allocated lo hi (units.flatMap (·.activities)))
    (h : ModelUnit.analyzeAll (emit units (synthesize found)).units = .ok answer)
    (ha : a ∈ units.flatMap (·.activities)) (maxDepth : Nat) :
    (LowerContext.scheduled ⟨a, answer.index, maxDepth⟩).FairActivity := by
  have hhidden : ∀ i, ∀ e ∈ (a.kind i).hidden, answer.index.annotation? e.id = none :=
    fun i e he => annotation?_hidden hids h (mem_flatMap.2 ⟨a, ha, a.mem_hidden he⟩)
  exact {
    handles := (hids.wellBuilt a ha).sound.plainHandles
    fair := fun i e he =>
      fair_of_fits (fits_of_symbol? hids h (mem_flatMap.2 ⟨a, ha, a.mem_exprs he⟩))
    initialized := by
      intro i f next st hi o op target v hbody
      refine calls_unmarked fun e he => hhidden i e ?_
      have hi : a.kind i = .code f next (some st) := hi
      rw [hi, StmtKind.hidden, hbody]
      exact mem_cons_of_mem _ he
    endpoint := by
      intro i op hi hsend f hf
      refine calls_unmarked fun e he => hhidden i e ?_
      have hi : a.kind i = .service op := hi
      rw [hi, StmtKind.hidden, if_neg (by simpa using hsend), Option.mem_def.1 hf]
      simpa using he }

end Program

theorem sum_range_coe (f : Nat → List String) (n : Nat) :
    ∑ i ∈ Finset.range n, (↑(f i) : Multiset String) = ↑((range n).flatMap f) := by
  induction n with
  | zero => rfl
  | succ n ih =>
    rw [Finset.sum_range_succ, ih, range_succ, flatMap_append, flatMap_singleton,
      Multiset.coe_add]

/-- In a program that is prepared without errors and analyzed by the lexical oracle, the graph of an
activity that is lowered without errors invokes exactly the node types of the calls that are
scheduled in its fragments, each as often as there are calls, and twice for a call in the condition
of a loop that tests first. -/
theorem lower_invokes_scheduled {p : ParseProgram} {units : List CompilationUnit}
    (h : CompilationUnit.prepare p = .ok units) (found : List ExternalNodeType)
    {answer : SemanticModel} (hanswer : ModelUnit.analyzeAll
      (emit units (synthesize found)).units = .ok answer)
    {u : CompilationUnit} (hu : u ∈ units) {a : Activity} (ha : a ∈ u.activities)
    (ns : Option String) (maxDepth : Nat) (herrors : (a.lower ns answer.index maxDepth).2 = []) :
    (a.lower ns answer.index maxDepth).1.body.invokedTypes.Perm (a.scheduledTypes answer.index) := by
  obtain ⟨n, hids⟩ := CompilationUnit.allocated_prepare h
  have ha : a ∈ units.flatMap (·.activities) := mem_flatMap.2 ⟨u, hu, ha⟩
  have hfair := fairActivity_scheduled hids hanswer ha maxDepth
  have hweight := Lower.weight_lower hfair.measure (hids.wellBuilt a ha) ns herrors
  rw [← Multiset.coe_eq_coe]
  calc (↑(a.lower ns answer.index maxDepth).1.body.invokedTypes : Multiset String)
      = (a.lower ns answer.index maxDepth).1.body.weight
          (LowerContext.scheduled ⟨a, answer.index, maxDepth⟩).weighing :=
        (weight_scheduled _).symm
    _ = ∑ i ∈ Finset.range a.stmts.size,
          (↑((a.kind i).evaluated.filterMap answer.index.scheduledType?) : Multiset String) :=
        hweight.trans (Finset.sum_congr rfl fun i _ => own_scheduled _)
    _ = ↑(a.scheduledTypes answer.index) := sum_range_coe _ _

section Waiting

/-- `activity Check: bool { }  activity Main { while (Check.Invoke()) { Check.Invoke(); } }` -/
def waitingProgram : ParseProgram where
  units := [{
    activities := [
      { label := "activity", text := some "Check"
        members := [("result", .typeName "bool"), ("body", { label := "empty" })] },
      .main {
        label := "while"
        members := [("condition", .expression (.invoke "Check" [])),
          ("body", .codeBlock [.eval (.invoke "Check" [])])] }] }]

theorem lower_invokes_scheduled_waitingProgram :
    ∃ units answer, CompilationUnit.prepare waitingProgram = .ok units ∧
      ModelUnit.analyzeAll (emit units (synthesize [])).units = .ok answer ∧
      ∃ u ∈ units, ∃ a ∈ u.activities, (a.lower none answer.index 64).2 = [] ∧
        a.scheduledTypes answer.index = ["Check", "Check", "Check"] ∧
        (a.lower none answer.index 64).1.body.invokedTypes.Perm (a.scheduledTypes answer.index) := by
  obtain ⟨units, answer, h, hanswer, u, hu, a, ha, herrors, htypes⟩ :=
    waitingProgram.exists_of_anyActivity (P := fun x a => (a.lower none x 64).2 = [] ∧
      a.scheduledTypes x = ["Check", "Check", "Check"]) (by decide +kernel)
  exact ⟨units, answer, h, hanswer, u, hu, a, ha, herrors, htypes,
    lower_invokes_scheduled h [] hanswer hu ha none 64 herrors⟩

end Waiting

end Workflow
