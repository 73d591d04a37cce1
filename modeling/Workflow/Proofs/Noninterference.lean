import Workflow.Proofs.Lower.Walk
import Workflow.Proofs.Model.Coverage

/-!
# Lowering sees what the model program shows

The model program of an activity shows the oracle some of the code of the activity: not the target
of a first value, and not the endpoint of an operation that does not send. Lowering reads nothing
else of the oracle's answer than what it says about the code shown and about the stores.
-/

namespace Workflow

open LowerContext

/-! ### Marked code -/

theorem ModelExpr.exprs_fragments (v : ModelExpr) :
    (v.fragments.flatMap (·.exprs)).Sublist v.expr.nodes := by
  unfold fragments
  cases v.marker <;> simp

namespace ModelStmt

mutual
theorem exprs_fragments : (s : ModelStmt) → (s.fragments.flatMap (·.exprs)).Sublist s.exprs
  | .declare marker name ty like init => by
    rw [fragments, exprs, List.flatMap_assoc]
    exact .flatMap_right _ fun v _ => v.exprs_fragments
  | .eval v => by
    rw [fragments, exprs]
    exact v.exprs_fragments
  | .fragment marker body => by
    rw [fragments, exprs]
    simp
  | .block body => by
    rw [fragments, exprs]
    exact exprs_fragmentsList body
  | .forEach marker name ty values body => by
    rw [fragments, exprs, List.flatMap_append]
    exact values.exprs_fragments.append (exprs_fragmentsList body)

theorem exprs_fragmentsList : (ss : List ModelStmt) →
    ((fragmentsList ss).flatMap (·.exprs)).Sublist (exprsList ss)
  | [] => by
    rw [fragmentsList, exprsList]
    exact .refl _
  | s :: rest => by
    rw [fragmentsList, exprsList, List.flatMap_append]
    exact (exprs_fragments s).append (exprs_fragmentsList rest)
end

end ModelStmt

theorem ModelMethod.exprs_fragments (m : ModelMethod) :
    (m.fragments.flatMap (·.exprs)).Sublist m.exprs := by
  rw [fragments, exprs, List.flatMap_assoc]
  exact .flatMap_right _ fun body _ => ModelStmt.exprs_fragmentsList body

/-! ### Agreement -/

/-- Two answers agree on every expression that a type shows and on the types of some stores. -/
structure SemanticIndex.Agree (x y : SemanticIndex) (t : ModelType) (stores : List Store) :
    Prop where
  symbol : ∀ m ∈ t.methods, ∀ e ∈ m.exprs, x.symbol? e.id = y.symbol? e.id
  type : ∀ m ∈ t.methods, ∀ e ∈ m.exprs, x.type? e.id = y.type? e.id
  stores : ∀ st ∈ stores, x.declarationType? st.marker = y.declarationType? st.marker

/-- A type that holds an activity shows all code that lowering reads. -/
theorem ModelType.Holds.lower_eq {t : ModelType} {a : Activity} (ht : t.Holds a) (ha : a.WellBuilt)
    {x y : SemanticIndex} (h : x.Agree y t a.stores.toList) (ns : Option String)
    (maxDepth : Nat) : a.lower ns x maxDepth = a.lower ns y maxDepth := by
  obtain ⟨-, m, hm, hholds⟩ := ht
  have hmem : m ∈ t.methods := List.mem_of_find?_eq_some hm
  have hshown : ∀ i, ∀ e ∈ (a.kind i).shown, e ∈ m.exprs := by
    intro i e he
    rw [StmtKind.shown_eq] at he
    obtain ⟨code, hcode, he⟩ := List.mem_flatMap.1 he
    have hcode : code ∈ m.fragments :=
      hholds.fragments.mem_iff.2 (Activity.mem_flatMap_kind rfl hcode)
    exact m.exprs_fragments.subset (List.mem_flatMap.2 ⟨code, hcode, he⟩)
  let W : View ⟨a, y, maxDepth⟩ := .beside ⟨a, x, maxDepth⟩ (fun _ => True)
    (fun _ _ => trivial) rfl fun st hst => h.stores st (Array.mem_toList_iff.2 hst)
  have hsees : W.Sees := by
    refine ⟨ha, .refl a, fun i => ⟨fun e he => ?_, fun e he => ?_, fun e he => ?_,
      fun _ _ => trivial, fun _ _ => trivial⟩, a.placed_trivial, .inl fun _ _ => trivial,
      trivial⟩
    all_goals have hsymbol := h.symbol m hmem e (hshown i e he)
    · exact hsymbol
    · exact h.type m hmem e (hshown i e he)
    · have hmarker : x.storeMarker? e.id = y.storeMarker? e.id := by
        rw [SemanticIndex.storeMarker?, SemanticIndex.storeMarker?, hsymbol]
      change storeFor? ⟨a, x, maxDepth⟩ e = _
      rw [storeFor?, storeFor?, hmarker]
  have hloose : (View.Tally.trivial W).Loose :=
    ⟨fun _ _ _ _ => trivial, fun _ _ _ => trivial⟩
  exact Lower.other_lower ⟨hsees, .inl hloose⟩ (.inl hloose) ns False.elim

/-- An activity that is built and resolved is lowered to the same graph and the same errors with any
two answers of the oracle that say the same about the expressions of its emitted type and about the
types of its stores, however deep expressions may nest. -/
theorem lower_reads_model {ids ids' : Ids} {unit : Nat} {node : ParseNode} {a : Activity}
    (h : Activity.build ids unit node = (.ok a, ids')) (last : Ids) (errors : Diagnostics)
    (ns ns' : Option String) (s : EmitState) {x y : SemanticIndex}
    (hxy : x.Agree y ((Emit.activityType ns (a.resolve last errors).1).run s).1
      (a.resolve last errors).1.stores.toList) (maxDepth : Nat) :
    (a.resolve last errors).1.lower ns' x maxDepth =
      (a.resolve last errors).1.lower ns' y maxDepth := by
  have ha : (a.resolve last errors).1.WellBuilt :=
    (Activity.keeps_resolve last errors a).wellBuilt (Activity.build_ids h).1
  exact ((Emit.yields_activityType ns ha s).1).lower_eq ha hxy ns' maxDepth

section FirstValue

/-- `A` is scheduled, and something is said about the first value and about the endpoint. -/
def firstValueIndex (hidden : Option Symbol) : SemanticIndex where
  exprs := [
    { expr := 2, symbol := hidden },
    { expr := 3, symbol := some (.method
        { name := "Invoke", container := "A"
          scheduling := some { nodeType := "A", parameters := [], result := some .int } }) },
    { expr := 6, symbol := hidden }]

def firstValueTest (a : Activity) (ids : Ids) : Bool :=
  decide (some 6 ∈ a.exprs.map Expr.id ∧
    ((a.resolve ids {}).1.lower none (firstValueIndex none) 64).1.body.invokedTypes = ["A"] ∧
    ∀ m ∈ ((Emit.activityType none (a.resolve ids {}).1).run {}).1.methods, ∀ e ∈ m.exprs,
      (firstValueIndex (some (.store 1))).symbol? e.id = (firstValueIndex none).symbol? e.id ∧
      (firstValueIndex (some (.store 1))).type? e.id = (firstValueIndex none).type? e.id)

/-- `var x: int = A(1);` and a request that names `x` as its endpoint. -/
def firstValueNode : { node : ParseNode // node.builds firstValueTest = true } where
  val := .main (.sequence [
    { label := "var", text := some "x"
      members := [("type", .typeName "int"),
        ("init", .expression (.call {} (.ident "A") [.mk .input (.int 1)]))] },
    { label := "receive"
      members := [("contract", .typeName "IOrders"),
        ("operation", { label := "name", text := some "Next" }),
        ("endpoint", .expression (.ident "x"))] }])
  property := by decide +kernel

theorem lower_reads_model_firstValueNode : ∃ a ids',
    Activity.build {} 0 firstValueNode.val = (.ok a, ids') ∧
    (firstValueIndex (some (.store 1))).symbol? (some 6) ≠ (firstValueIndex none).symbol? (some 6) ∧
    some 6 ∈ a.exprs.map Expr.id ∧ (firstValueIndex (some (.store 1))).Agree (firstValueIndex none)
      ((Emit.activityType none (a.resolve ids' {}).1).run {}).1
      (a.resolve ids' {}).1.stores.toList ∧
    ((a.resolve ids' {}).1.lower none (firstValueIndex none) 64).1.body.invokedTypes = ["A"] ∧
    (a.resolve ids' {}).1.lower none (firstValueIndex (some (.store 1))) 64 =
      (a.resolve ids' {}).1.lower none (firstValueIndex none) 64 := by
  obtain ⟨a, ids', h, hexpr, hinvoked, hshown⟩ :=
    firstValueNode.val.exists_of_builds firstValueNode.property
  have hagree : (firstValueIndex (some (.store 1))).Agree (firstValueIndex none)
      ((Emit.activityType none (a.resolve ids' {}).1).run {}).1
      (a.resolve ids' {}).1.stores.toList :=
    ⟨fun m hm e he => (hshown m hm e he).1, fun m hm e he => (hshown m hm e he).2,
      fun _ _ => rfl⟩
  exact ⟨a, ids', h, by decide, hexpr, hagree, hinvoked,
    lower_reads_model h _ {} none none {} hagree 64⟩

end FirstValue

end Workflow
