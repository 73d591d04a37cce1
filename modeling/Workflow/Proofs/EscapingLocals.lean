import Workflow.Proofs.Build.Program
import Workflow.Proofs.Scope.Run
import Workflow.Proofs.Settled

/-!
# Locals that escape

A local of embedded code is meant to be used only in the code node that declares it. This holds
within each run of code that checks its uses, but a local stays visible to the oracle in everything
that follows in the same block. So it escapes if it is used in a value slot, in a later run, or in
the first value of a store that goes into another step.
-/

namespace Workflow

open LowerContext StepList CodeStmt

/-- The locals that are used outside the step that declares them: those of slots, those that a run
does not declare, and those of first values in another step. -/
def LowerContext.escaping (c : LowerContext) : Finset String :=
  unionMap (fun i => unionMap (fun f : Fragment => f.expr.locals c.source)
      (c.activity.kind i).slots) (List.range c.activity.stmts.size) ∪
    unionMap (fun fs => c.runLocals (c.withStores fs) ∪ c.strayLocals ∅ (c.withStores fs))
      c.activity.runs

section Leaks

variable {c : LowerContext} {x : SemanticIndex} {n : String}

/-- Gives out a name if it is in a set. -/
def leak (n : String) (X : Finset String) : Multiset String := if n ∈ X then {n} else 0

theorem leak_eq_zero {X : Finset String} : leak n X = 0 ↔ n ∉ X := by
  unfold leak
  split <;> simp [*]

def Weighing.ofLocal (x : SemanticIndex) (n : String) : Weighing String where
  expr e := leak n (e.locals x.produced)
  body b := leak n (localsList x.produced b)
  invoke _ := 0
  skip before condition onSkip := leak n (Step.locals x (.skip before condition onSkip 0))

attribute [local simp] localsList locals localsOpt Expr.localsOpt
  declared

theorem locals_atPosition (y : String) (i : Nat) : (atPosition y i).locals x.produced = ∅ := by
  simp [atPosition, readIndex]

theorem locals_advance (y : String) (d : Nat) : (advance y d).locals x.produced = ∅ := by
  simp [advance, readIndex]

theorem lawful_ofLocal : (Weighing.ofLocal x n).Lawful where
  read y := by simp [Weighing.ofLocal, leak]
  int i := by simp [Weighing.ofLocal, leak]
  position y i := by simp [Weighing.ofLocal, leak, locals_atPosition]
  write y e he := by
    simpa [Weighing.ofLocal, leak_eq_zero] using he
  advance y d := by simp [Weighing.ofLocal, leak, locals_advance]
  guarded y i body := by
    simp [Weighing.ofLocal, locals_atPosition, localsList_append, locals_advance]
  skipped y i before condition onSkip d := by
    cases condition <;>
      simp [Weighing.ofLocal, locals_atPosition, skipCode, localsList_append,
        locals_advance, Step.locals]

theorem action_ofLocal (kind : NodeKind) :
    kind.action (Weighing.ofLocal x n) = leak n (localsList x.produced kind.body) := by
  cases kind with
  | code body => rfl
  | _ => exact (leak_eq_zero.2 (by simp [NodeKind.body])).symm

theorem weight_kind_ofLocal (kind : NodeKind) :
    kind.weight (Weighing.ofLocal x n) = 0 ↔ n ∉ kind.ownLocals x := by
  rw [NodeKind.weight, add_eq_zero, List.sum_eq_zero_iff, action_ofLocal, leak_eq_zero,
    NodeKind.ownLocals, Finset.mem_union, not_or, mem_unionMap]
  simp [Weighing.ofLocal, leak_eq_zero]

/-- A tree without weight does not leak the name. -/
theorem weight_ofLocal (node : Node) :
    node.weight (Weighing.ofLocal x n) = 0 ↔ n ∉ node.locals x := by
  rw [Node.weight, List.sum_eq_zero_iff, Node.locals, mem_unionMap]
  simp [weight_kind_ofLocal]

theorem step_weight_ofLocal (step : Step) :
    step.weight (Weighing.ofLocal x n) = 0 ↔ n ∉ step.locals x := by
  cases step with
  | node node => exact weight_ofLocal node
  | skip before condition onSkip distance => exact leak_eq_zero

theorem LowerContext.Holds.weights {outer : Prop} {s : StageState} (h : Holds x outer n s)
    (houter : outer) : Step.weights (Weighing.ofLocal x n) s.steps.flush.steps = 0 := by
  refine List.sum_eq_zero fun y hy => ?_
  obtain ⟨step, hstep, rfl⟩ := List.mem_map.1 hy
  exact (step_weight_ofLocal step).2 (h.flush.2 houter step hstep)

theorem LowerContext.PlainHandles.unmarked (h : c.PlainHandles)
    (hx : ∀ e store, c.storeFor? e = some store → x.isLocal e.id = false) : c.Unmarked x where
  handle st hst := by
    obtain ⟨y, hy⟩ := h st hst
    rw [hy, Expr.locals_ident]
  name := hx

/-- What stands for a store is no local for the oracle. -/
theorem LowerContext.isLocal_of_storeFor?
    (h : c.storeFor? e = some store) : c.semantics.isLocal e.id = false := by
  obtain ⟨m, hm, -⟩ := Option.bind_eq_some_iff.1 h
  refine Bool.eq_false_iff.2 fun heq => ?_
  have heq : c.semantics.symbol? e.id = some .localVar := by simpa [SemanticIndex.isLocal] using heq
  simp [SemanticIndex.storeMarker?, heq] at hm

/-- A value slot that does not use the name. -/
theorem holds_value (hh : c.Unmarked c.semantics) (hsite : site.context = c)
    (hhidden : site.hidden = [])
    (hn : n ∉ e.locals c.source) (h : Stage.value site e { lower := l } = .ok e' r) :
    n ∉ e'.locals c.semantics.produced ∧
      Step.weights (Weighing.ofLocal c.semantics n) r.steps.flush.steps = 0 ∧
      r.steps.Generated ∧ (r.lower.errors.errors = [] → l.errors.errors = []) := by
  obtain ⟨a, s₁, he, rfl⟩ := Stage.value_ok h
  obtain ⟨-, hspread⟩ := scopes hh he hsite
  rw [hhidden] at hspread
  obtain ⟨hholds, -⟩ := (Holds.init l).unused hspread fun hin => absurd hin hn
  refine ⟨fun hX => hn (hspread.within (Finset.mem_union_right _ hX)), ?_,
    (hspread.emits.generated generated_empty).flush,
    hspread.emits.errors⟩
  rw [flush_flush]
  exact hholds.weights trivial

/-- If nothing uses the name outside the step that declares it, then nothing weighs anything. -/
theorem measure_ofLocal (ha : c.activity.Sound) (hn : n ∉ c.escaping) :
    Amounts.Measure ⟨fun _ => 0, fun _ => 0⟩ c (Weighing.ofLocal c.semantics n) := by
  rw [escaping, Finset.mem_union, not_or, mem_unionMap, mem_unionMap] at hn
  obtain ⟨hslots, hruns⟩ := hn
  have hh := ha.plainHandles.unmarked fun _ _ => isLocal_of_storeFor?
  have hslot : ∀ i, ∀ f ∈ (c.activity.kind i).slots, n ∉ f.expr.locals c.source := by
    intro i f hf hin
    by_cases hi : i < c.activity.stmts.size
    · exact hslots ⟨i, List.mem_range.2 hi, mem_unionMap.2 ⟨f, hf, hin⟩⟩
    · rw [Activity.kind_eq_empty (Nat.le_of_not_lt hi)] at hf
      cases hf
  exact {
    lawful := lawful_ofLocal
    handle := fun st hst => leak_eq_zero.2 (by simp [hh.handle st hst])
    value := fun i f hf ty => by
      refine Lower.Clean.stage (T := fun e steps => n ∉ e.locals c.semantics.produced ∧
        Step.weights (Weighing.ofLocal c.semantics n) steps.flush.steps = 0 ∧ steps.Generated)
        (fun l e r hrun hclean => ?_) (fun e steps => .pure fun ⟨hX, hsteps, hgen⟩ => ?_)
        fun e _ => (Lower.Clean.reportError e).bind fun _ => .pure fun h => h
      · obtain ⟨hX, hsteps, hgen, herrors⟩ := holds_value hh rfl rfl (hslot i f hf) hrun
        exact ⟨herrors hclean, hX, hsteps, hgen⟩
      · refine ⟨leak_eq_zero.2 hX, weightless_vars lawful_ofLocal hgen, ?_⟩
        rw [weights_nodes lawful_ofLocal hgen, hsteps]
    restricted := fun i f hf ty slot => by
      refine Lower.Clean.stage
        (fun l e r hrun hclean => ?_) (fun e steps => .pure fun hX => ⟨leak_eq_zero.2 hX, rfl⟩)
        fun e _ => (Lower.Clean.reportError e).bind fun _ => .pure fun h => h
      obtain ⟨hX, -, -, herrors⟩ := holds_value hh rfl rfl (hslot i f hf) hrun
      exact ⟨herrors hclean, hX⟩
    named := fun _ _ _ _ _ => rfl
    endpoint := fun _ _ _ _ _ _ => rfl
    run := fun span fs hfs l u r hrun hclean => by
      have hfree : n ∉ _ ∪ _ := fun hin => hruns ⟨fs, hfs, hin⟩
      rw [Finset.mem_union, not_or] at hfree
      have hholds := holds_fragments hh rfl rfl hrun (Holds.init l)
        (fun hin => absurd hin hfree.1) hfree.2 (by simp)
      obtain ⟨herrors, hgen, -⟩ :=
        (fairActivity_unsettled ha False.elim).measure.run span fs hfs l u r hrun hclean
      exact ⟨herrors, hgen, (hholds.weights trivial).trans (by simp)⟩ }

end Leaks

/-- In an activity that is built, resolved and lowered without errors, a local that is used outside
the code node that declares it is one that escapes in the source: it is used in a value slot, in a
run that does not declare it, or in a first value in another step. Within a run, also one of chained
fragments, uses stay in the code node of their declaration. -/
theorem lower_locals_escape {ids ids' : Ids} {unit : Nat} {node : ParseNode} {a : Activity}
    (h : Activity.build ids unit node = (.ok a, ids')) (last : Ids) (errors : Diagnostics)
    (ns : Option String) (semantics : SemanticIndex) (maxDepth : Nat)
    (herrors : ((a.resolve last errors).1.lower ns semantics maxDepth).2 = []) :
    ((a.resolve last errors).1.lower ns semantics maxDepth).1.body.locals semantics ⊆
      escaping ⟨(a.resolve last errors).1, semantics, maxDepth⟩ := by
  have ha := (Activity.keeps_resolve last errors a).wellBuilt (Activity.build_ids h).1
  generalize (a.resolve last errors).1 = b at ha herrors
  intro n hn
  by_contra hescape
  have hweight := Lower.weight_lower (measure_ofLocal ha.sound hescape) ha ns herrors
  have hown : ∀ k : StmtKind, (⟨fun _ => 0, fun _ => 0⟩ : Amounts String).own k = 0 := by
    intro k
    unfold Amounts.own
    split <;> simp
  rw [Finset.sum_eq_zero fun i _ => hown _] at hweight
  exact (weight_ofLocal _).1 hweight hn

section Scoped

def scopedNode : ParseNode :=
  .main (.sequence [
    .codeBlock [.declare "n" .int (some (.int 1)) {}],
    .codeBlock [.eval (.assign {} .assign (.ident "n") (.apply .add (.ident "n") (.int 1)))],
    { label := "var", text := some "x"
      members := [("type", .typeName "int"), ("init", .expression (.ident "n"))] }])

def scopedIndex : SemanticIndex where
  exprs := [{ expr := 3, symbol := some .localVar }, { expr := 5, symbol := some .localVar },
    { expr := 9, symbol := some .localVar }]

theorem lower_locals_escape_scopedNode : ∃ a ids', Activity.build {} 0 scopedNode = (.ok a, ids') ∧
    ((a.resolve ids' {}).1.lower none scopedIndex 64).2 = [] ∧
    escaping ⟨(a.resolve ids' {}).1, scopedIndex, 64⟩ = ∅ ∧
    ((a.resolve ids' {}).1.lower none scopedIndex 64).1.body.locals scopedIndex ⊆
      escaping ⟨(a.resolve ids' {}).1, scopedIndex, 64⟩ := by
  exact ParseNode.exists_and_of_builds (by decide +kernel)
    fun a ids' h herrors => lower_locals_escape h _ {} none scopedIndex 64 herrors

end Scoped

section Leaking

def leakingProgram : ParseProgram where
  units := [{
    activities := [.main {
      label := "sequence"
      members := [("variables", { label := "variables", items := [.variableNode "x" "int"] })]
      items := [
        .codeBlock [.declare "n" .int (some (.int 1)) {}],
        { label := "if"
          members := [
            ("condition", .expression (.apply .gt (.ident "n") (.int 0))),
            ("then", .codeBlock [.eval (.assign {} .assign (.ident "x") (.int 2))])] }] }] }]

/-- A condition that uses a local of the code before it is accepted, and its graph uses the local
outside the code node that declares it. -/
theorem leakingProgram_leaks : ∃ units answer, CompilationUnit.prepare leakingProgram = .ok units ∧
      ModelUnit.analyzeAll (ModelProgram.emit units (ExternalNodeType.synthesize [])).units =
        .ok answer ∧
      ∃ u ∈ units, ∃ a ∈ u.activities, (a.lower none answer.index 64).2 = [] ∧
        (a.lower none answer.index 64).1.body.locals answer.index = {"n"} := by
  exact leakingProgram.exists_of_anyActivity (P := fun x a => (a.lower none x 64).2 = [] ∧
    (a.lower none x 64).1.body.locals x = {"n"}) (by decide +kernel)

end Leaking

end Workflow
