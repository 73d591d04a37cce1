import Workflow.Proofs.Lower.Walk
import Workflow.Proofs.Pipeline

/-!
# The limit for nested expressions

The limit stops a program whose expressions nest too deep, and matters for nothing else: a program
that is compiled with a limit is compiled to the same with a higher one. Expressions that are not
higher than the limit are within it.
-/

namespace Workflow

namespace LowerContext.View

/-- An activity beside itself with a higher limit, if there are no errors. -/
def raised (a : Activity) (x : SemanticIndex) {d d' : Nat} (h : d ≤ d') : View ⟨a, x, d⟩ where
  other := ⟨a, x, d'⟩
  strict := True
  place _ := True
  allows _ := True
  names := .any _
  plain _ _ _ := trivial
  limit := h
  same_limit := .inl trivial
  type_eq _ _ := rfl
  stores _ _ := trivial

def shallow (c : LowerContext) : c.View :=
  reporting c.activity.placed_trivial (fun e => e.cause.isTooDeep = false) fun _ h _ => h

/-- Both views say the same about everything. -/
theorem raised_knows (h : d ≤ d') (es : List Expr)
    (ms : List Mention) : (raised a x h).Knows es ms :=
  ⟨fun _ _ => rfl, fun _ _ => rfl, fun _ _ => rfl, fun _ _ => trivial, fun _ _ => trivial⟩

theorem shallow_knows (c : LowerContext) (es : List Expr) (ms : List Mention) :
    (shallow c).Knows es ms :=
  ⟨fun _ _ => rfl, fun _ _ => rfl, fun _ _ => rfl, fun _ _ => trivial, fun _ _ => trivial⟩

theorem shallow_reads (h : f.expr.height ≤ c.maxDepth) : (shallow c).Reads f where
  span := trivial
  knows := shallow_knows c _ _
  reaches := .inr (by rwa [Nat.zero_add])
  whole := trivial

end LowerContext.View

open LowerContext (View)

namespace Activity

variable {a : Activity} {ns : Option String} {x : SemanticIndex} {d d' : Nat}

/-- An activity that is lowered without errors is lowered to the same with a higher limit. -/
theorem WellBuilt.lower_of_le (ha : a.WellBuilt) (hle : d ≤ d') (h : (a.lower ns x d).2 = []) :
    a.lower ns x d' = a.lower ns x d := by
  have hsees : (View.raised a x hle).Sees :=
    ⟨ha, .refl a, fun _ => View.raised_knows hle _ _, a.placed_trivial, .inl fun _ _ => trivial,
      trivial⟩
  have hloose : (View.Tally.trivial (View.raised a x hle)).Loose :=
    ⟨fun _ _ _ _ => trivial, fun _ _ _ => trivial⟩
  exact Lower.other_lower ⟨hsees, .inl hloose⟩ (.inl hloose) ns fun _ => h

/-- Where no expression is higher than the limit, none nests too deep. -/
theorem WellBuilt.isTooDeep_eq_false (ha : a.WellBuilt) (hfits : ∀ i, (a.kind i).Fits d) :
    ∀ e ∈ (a.lower ns x d).2, e.cause.isTooDeep = false := by
  have hsees : (View.shallow ⟨a, x, d⟩).Sees :=
    ⟨ha, .refl a, fun _ => View.shallow_knows _ _ _, a.placed_trivial, .inr hfits, trivial⟩
  have hloose : (View.Tally.trivial (View.shallow ⟨a, x, d⟩)).Loose :=
    ⟨fun _ _ _ _ => rfl, fun _ _ _ => trivial⟩
  exact Lower.allows_lower ⟨hsees, .inl hloose⟩ (.inl hloose) ns

end Activity

namespace CompilationUnit

variable {units : List CompilationUnit} {x : SemanticIndex} {d d' : Nat}

theorem lowerAll_of_le (h : ∀ u ∈ units, ∀ a ∈ u.activities, a.WellBuilt) (hle : d ≤ d')
    {activities : List CompiledActivity} (hok : lowerAll units x d = .ok activities) :
    lowerAll units x d' = .ok activities := by
  obtain ⟨herrors, rfl⟩ := lowerAll_eq_ok.1 hok
  have hsame : ∀ u ∈ units, ∀ a ∈ u.activities, a.lower u.ns x d' = a.lower u.ns x d := by
    intro u hu a ha
    refine (h u hu a ha).lower_of_le hle ?_
    exact List.flatMap_eq_nil_iff.1 (List.flatMap_eq_nil_iff.1 herrors u hu) a ha
  refine lowerAll_eq_ok.2 ⟨?_, ?_⟩
  · rw [← herrors]
    refine List.flatMap_congr fun u hu => List.flatMap_congr fun a ha => ?_
    rw [hsame u hu a ha]
  · refine List.flatMap_congr fun u hu => List.map_congr_left fun a ha => ?_
    rw [compiled, compiled, hsame u hu a ha]

end CompilationUnit

namespace CompilationInput

variable {σ : Type} {oracle : SemanticOracle (StateM σ)} {config : CompilerConfig} {d' : Nat}

/-- What the oracle is asked does not depend on the limit. -/
theorem compileWith_of_le {input : CompilationInput} {s s' : σ} (hle : config.maxExprDepth ≤ d')
    (hok : input.compileWith oracle config s = (.ok out, s')) :
    input.compileWith oracle { config with maxExprDepth := d' } s = (.ok out, s') := by
  unfold compileWith at hok ⊢
  cases hprepare : CompilationUnit.prepare input.program with
  | error es =>
    rw [hprepare] at hok
    cases hok
  | ok units =>
    rw [hprepare] at hok
    dsimp only at hok ⊢
    rw [analyze_run] at hok ⊢
    have hwell := CompilationUnit.wellBuilt_prepare hprepare
    revert hok
    generalize discovered oracle _ _ s = found
    obtain ⟨found, t⟩ := found
    intro hok
    cases found with
    | error e => cases hok
    | ok types =>
      change (respond _ units _ (oracle.analyze _ _ t).1, (oracle.analyze _ _ t).2) = _ at hok ⊢
      generalize oracle.analyze _ _ t = answered at hok ⊢
      obtain ⟨answer, t'⟩ := answered
      cases answer with
      | error e => cases hok
      | ok answer =>
        obtain ⟨hfinish, rfl⟩ := Prod.mk.inj hok
        obtain ⟨hanswered, activities, hlower, rfl⟩ := finish_eq_ok.1 hfinish
        exact congrArg (·, t') (finish_eq_ok.2 ⟨hanswered, activities,
          CompilationUnit.lowerAll_of_le hwell hle hlower, rfl⟩)

end CompilationInput

theorem Cause.ne_expressionTooDeep {cause : Cause} (h : cause.isTooDeep = false) (n : Nat) :
    cause ≠ .expressionTooDeep n := by
  rintro rfl
  cases h

/-- A program that is compiled is compiled to the same with a higher limit, by an oracle that gives
the same answers. The errors of a slot that is not higher than the limit do not say that it nests
too deep, and no error of an activity says so if no expression of it is higher than the limit. -/
theorem depth_limit_monotone :
    (∀ (σ : Type) (oracle : SemanticOracle (StateM σ)) (config : CompilerConfig)
      (input : CompilationInput) (s s' : σ) (out : CompilationOutput) (d' : Nat),
      config.maxExprDepth ≤ d' → input.compileWith oracle config s = (.ok out, s') →
        input.compileWith oracle { config with maxExprDepth := d' } s = (.ok out, s')) ∧
    (∀ (c : LowerContext) (f : Fragment), f.expr.height ≤ c.maxDepth →
      ∀ (ty : Option TypeName) (slot : Slot) (l : LowerState),
        (∀ e ∈ ((Lower.value c f ty).run l).2.errors.errors,
          e ∈ l.errors.errors ∨ ∀ n, e.cause ≠ .expressionTooDeep n) ∧
        ∀ e ∈ ((Lower.restricted c f ty slot).run l).2.errors.errors,
          e ∈ l.errors.errors ∨ ∀ n, e.cause ≠ .expressionTooDeep n) ∧
    ∀ (ids ids' : Ids) (unit : Nat) (node : ParseNode) (a : Activity),
      Activity.build ids unit node = (.ok a, ids') →
      ∀ (last : Ids) (errors : Diagnostics) (ns : Option String) (semantics : SemanticIndex)
        (d : Nat), (∀ i, ((a.resolve last errors).1.kind i).Fits d) →
        ∀ e ∈ ((a.resolve last errors).1.lower ns semantics d).2, ∀ n,
          e.cause ≠ .expressionTooDeep n := by
  refine ⟨fun σ oracle config input s s' out d' => CompilationInput.compileWith_of_le,
    fun c f hf ty slot l => ?_,
    fun ids ids' unit node a h last errors ns semantics d hfits e he n => ?_⟩
  · have hnew : ∀ {α : Type} {x : Lower α}, (View.shallow c).Reports x →
        ∀ e ∈ (x.run l).2.errors.errors,
          e ∈ l.errors.errors ∨ ∀ n, e.cause ≠ .expressionTooDeep n := by
      intro α x hx e he
      obtain ⟨new, hnew, hallows⟩ := hx l
      rw [hnew, List.mem_append] at he
      exact he.imp_right fun he => Cause.ne_expressionTooDeep (hallows e he)
    have hreads := View.shallow_reads hf
    exact ⟨hnew (View.runs_value hreads ty).reports,
      hnew (View.runs_restricted hreads ty slot).reports⟩
  · have ha := (Activity.keeps_resolve last errors a).wellBuilt (Activity.build_ids h).1
    exact Cause.ne_expressionTooDeep (ha.isTooDeep_eq_false hfits e he) n

section Nested

def deepNode : ParseNode :=
  .main (.sequence [.variableNode "x" "int",
    .codeBlock [.eval (.assign {} .assign (.ident "x") (.apply .add (.ident "x") (.int 1)))]])

def nestedInput : CompilationInput where
  program := { units := [{ activities := [deepNode] }] }

def nestedOracle : SemanticOracle (StateM Unit) := lexicalOracle []

def nestedInput.compiles (d : Nat) : Bool :=
  (nestedInput.compileWith nestedOracle { maxExprDepth := d } ()).1.toBool

def nestedSlot : Fragment where
  marker := 2
  span := {}
  expr := .apply .add (.ident "x") (.int 1)

theorem depth_limit_monotone_deepNode : nestedInput.compiles 2 = false ∧
    (∃ out, nestedInput.compileWith nestedOracle { maxExprDepth := 3 } () = (.ok out, ()) ∧
      nestedInput.compileWith nestedOracle { maxExprDepth := 64 } () = (.ok out, ())) ∧
    ∃ a ids', Activity.build {} 0 deepNode = (.ok a, ids') ∧
      (∀ i, ((a.resolve ids' {}).1.kind i).Fits 3) ∧
      (∀ e ∈ ((a.resolve ids' {}).1.lower none {} 3).2, ∀ n, e.cause ≠ .expressionTooDeep n) ∧
      ∀ e ∈ ((Lower.value ⟨a, {}, 2⟩ nestedSlot none).run {}).2.errors.errors, ∀ n,
        e.cause ≠ .expressionTooDeep n := by
  have hheight : nestedSlot.expr.height ≤ 2 := by decide
  have hcompiles : nestedInput.compiles 3 = true := by decide +kernel
  obtain ⟨a, ids', h, htest⟩ := deepNode.exists_of_builds
    (P := fun a ids' => ∀ s ∈ (a.resolve ids' {}).1.stmts, CodeStmt.heightList s.kind.body ≤ 3 ∧
      ∀ f ∈ s.kind.slots, f.expr.height ≤ 3) (by decide +kernel)
  have hfits : ∀ i, ((a.resolve ids' {}).1.kind i).Fits 3 := fun i => by
    cases hget : (a.resolve ids' {}).1.stmts[i]? with
    | none =>
      rw [Activity.kind, hget]
      exact ⟨Nat.zero_le _, fun _ hf => by cases hf⟩
    | some s =>
      rw [Activity.kind, hget]
      obtain ⟨hbody, hslots⟩ := htest s (Array.mem_of_getElem? hget)
      exact ⟨hbody, hslots⟩
  refine ⟨by decide +kernel, ?_, a, ids', h, hfits,
    depth_limit_monotone.2.2 _ _ _ _ _ h ids' {} none {} 3 hfits, fun e he => ?_⟩
  rotate_left
  · exact ((depth_limit_monotone.2.1 _ _ hheight none default {}).1 e he).resolve_left
      List.not_mem_nil
  unfold nestedInput.compiles at hcompiles
  cases hrun : nestedInput.compileWith nestedOracle { maxExprDepth := 3 } () with
  | mk outcome s =>
    rw [hrun] at hcompiles
    cases outcome with
    | error e => cases hcompiles
    | ok out =>
      exact ⟨out, rfl, depth_limit_monotone.1 _ _ { maxExprDepth := 3 } _ _ _ _ 64 (by decide) hrun⟩

end Nested

end Workflow
