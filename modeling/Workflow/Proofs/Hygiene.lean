import Workflow.Proofs.Lower.Naming
import Workflow.Proofs.Matching
import Workflow.Proofs.Build.Program

/-!
# Generated names

A graph speaks of the names of its program and of names that were made on the way: the variables of
lowering, the delegate arguments of items and caught exceptions, and the handles of correlations.
Generated names keep apart from declared ones as long as no declaration has the form of a generated
name.
-/

namespace Workflow

theorem Lower.IsHolder.isTemp {x : String} (h : Lower.IsHolder x) : Lower.IsTemp x := by
  obtain ⟨stem, hstem, hx⟩ := h
  exact ⟨stem, List.mem_cons_of_mem _ hstem, hx⟩

/-- All generated names start with two underscores. -/
theorem Lower.IsTemp.isPrefix (h : Lower.IsTemp x) : ['_', '_'] <+: x.toList := by
  obtain ⟨stem, -, n, rfl⟩ := h
  rw [Lower.toList_tempName]
  exact ⟨_, rfl⟩

namespace Activity

variable {a b : Activity} {x : String} {m : Mention}

def IsGenerated (a : Activity) (x : String) : Prop :=
  Lower.IsTemp x ∨ (∃ st ∈ a.stores, x = Build.argumentName st.name) ∨ ∃ n, x = handleName n

theorem IsGenerated.isPrefix (h : a.IsGenerated x) : ['_', '_'] <+: x.toList := by
  rcases h with h | ⟨st, -, rfl⟩ | ⟨n, rfl⟩
  · exact h.isPrefix
  · exact ⟨"arg_".toList ++ st.name.toList, by simp [Build.argumentName, toString]⟩
  · exact ⟨"handle".toList ++ (toString n).toList, by simp [handleName, toString]⟩

/-- A declaration of the activity has the name: a store, a local or a parameter of a lambda. -/
def Declares (a : Activity) (x : String) : Prop := .bound x ∈ a.mentions

instance : Decidable (a.Declares x) := inferInstanceAs (Decidable (_ ∈ _))

/-- A name of the activity: it stands there, or it refers to a declaration there. -/
def Speaks (a : Activity) (m : Mention) : Prop :=
  m ∈ a.mentions ∨ ∃ x, m = .used x ∧ a.Declares x

theorem declares_store (hst : st ∈ a.stores) : a.Declares st.name :=
  List.mem_append_left _ (List.mem_map.2 ⟨st, hst.val, rfl⟩)

theorem mem_mentions_of_kind (hm : m ∈ (a.kind i).mentions) : m ∈ a.mentions :=
  List.mem_append_right _ (mem_flatMap_kind rfl hm)

theorem Keeps.mentions (h : a.Keeps b) (i : StmtId) : (b.kind i).mentions = (a.kind i).mentions := by
  rw [StmtKind.mentions, StmtKind.mentions, (h.kind i).body, (h.kind i).slots]

/-- The accesses to a store use its own name or that of its delegate argument. -/
theorem Sound.handle_eq (ha : a.Sound) (hst : st ∈ a.stores) :
    st.handle = .ident st.name ∨ st.handle = .ident (Build.argumentName st.name) := by
  obtain ⟨k, hk⟩ := Array.getElem?_of_mem hst
  rcases ha.handles k st hk with hr | hr
  · exact .inl (by rw [Store.handle, hr, Option.getD_none])
  · exact .inr (by rw [Store.handle, hr, Option.getD_some])

/-- The second activity has the statements and the stores of the first one, and handles. -/
structure Extends (a b : Activity) : Prop where
  keeps : a.Keeps b
  sound : b.Sound
  stores : ∀ st ∈ b.stores, st ∈ a.stores ∨ st.IsHandle

theorem extends_resolve
    (h : Activity.build ids unit node = (.ok a, ids')) (last : Ids) (errors : Diagnostics) :
    a.Extends (a.resolve last errors).1 := by
  have ha := (build_ids h).1
  have hkeeps := keeps_resolve last errors a
  obtain ⟨-, -, hanswers, -⟩ := ha.resolve_spec (formed_build h).1 last errors
  refine ⟨hkeeps, hkeeps.sound ha.sound, fun st hst => ?_⟩
  obtain ⟨k, hk⟩ := Array.getElem?_of_mem hst
  exact (hanswers.stores hk).imp_left Array.mem_of_getElem?

/-- The names that the graph of the activity may have. -/
def May (a : Activity) (m : Mention) : Prop :=
  a.Speaks m ∨ m = .used Expr.contextName ∨ a.IsGenerated m.name

/-- The names of an activity and those that are made for it are all that lowering needs. -/
def Extends.vocabulary (h : a.Extends b) (semantics : SemanticIndex) (maxDepth : Nat) :
    LowerContext.Vocabulary ⟨b, semantics, maxDepth⟩ where
  has := a.May
  context := .inr (.inl rfl)
  temp x hx := ⟨.inr (.inr (.inl hx.isTemp)), .inr (.inr (.inl hx.isTemp))⟩
  whole := True
  position _ n := by
    have hgenerated : a.IsGenerated (Lower.indexName n) := .inl ⟨"step", by simp, n, rfl⟩
    exact ⟨.inr (.inr hgenerated), .inr (.inr hgenerated)⟩
  name _ st hst := by
    rcases h.stores st hst with hold | hnew
    · exact .inl (.inl (declares_store hold))
    · exact .inr (.inr (.inr (.inr hnew.name)))
  delegate _ st hst := by
    rcases h.stores st hst with hold | hnew
    · rcases h.sound.handle_eq hst with hh | hh <;> rw [hh]
      · exact .inl (.inl (declares_store hold))
      · exact .inr (.inr (.inr (.inl ⟨st, hold, rfl⟩)))
    · rw [Store.handle, hnew.redirect]
      exact .inr (.inr (.inr (.inr hnew.name)))
  handle st hst := by
    rcases h.stores st hst with hold | hnew
    · rcases h.sound.handle_eq hst with hh | hh <;>
        simp only [hh, Expr.ident, Expr.mentions, Mention.all_cons, Mention.all_nil, and_true]
      · exact .inl (.inr ⟨_, rfl, declares_store hold⟩)
      · exact .inr (.inr (.inr (.inl ⟨st, hold, rfl⟩)))
    · simp only [Store.handle, hnew.redirect, Option.getD_none, Expr.ident, Expr.mentions,
        Mention.all_cons, Mention.all_nil, and_true]
      exact .inr (.inr (.inr (.inr hnew.name)))
  code _ id m hm := by
    rw [h.keeps.mentions] at hm
    exact .inl (.inl (mem_mentions_of_kind hm))

end Activity

/-- If no declaration of an activity has the form of a generated name, then every name in its graph
is a name of the activity, the context that accessors are given, or a generated name that differs
from all that is declared. -/
theorem lower_names_apart {ids ids' : Ids} {unit : Nat} {node : ParseNode} {a : Activity}
    (h : Activity.build ids unit node = (.ok a, ids')) (last : Ids) (errors : Diagnostics)
    (ns : Option String) (semantics : SemanticIndex) (maxDepth : Nat)
    (hdeclared : ∀ x, a.Declares x → ¬ a.IsGenerated x) :
    ∀ m ∈ ((a.resolve last errors).1.lower ns semantics maxDepth).1.mentions,
      a.Speaks m ∨ m = .used Expr.contextName ∨ (a.IsGenerated m.name ∧ ¬ a.Declares m.name) := by
  intro m hm
  have ha : (a.resolve last errors).1.WellBuilt :=
    (Activity.keeps_resolve last errors a).wellBuilt (Activity.build_ids h).1
  have hextends := Activity.extends_resolve h last errors
  have hV := (hextends.vocabulary semantics maxDepth).all_lower trivial ha ns
  refine (hV m hm).imp_right (Or.imp_right fun hgenerated => ?_)
  exact ⟨hgenerated, fun hx => hdeclared _ hx hgenerated⟩

section Iterating

/-- `var x: int; foreach (item in x) { x = A(item) + 1; }` and a receive with its reply. -/
def iteratingNode : ParseNode :=
  .main (.sequence [
    .variableNode "x" "int",
    { label := "foreach", text := some "item"
      members := [("values", .expression (.ident "x")), ("type", .typeName "int"),
        ("body", .codeBlock [.eval (.assign {} .assign (.ident "x") (.apply .add
          (.call {} (.ident "A") [.mk .input (.ident "item")]) (.int 1)))])] },
    operationNode "receive" (some "order") none,
    operationNode "send-reply" none (some "order")])

/-- The call of `A` is scheduled, and `x` and `item` are the stores with markers 1 and 3. -/
def iteratingIndex : SemanticIndex where
  exprs := [
    { expr := 1, symbol := some (.store 1) },
    { expr := 3, symbol := some (.store 1) },
    { expr := 5, symbol := some (.method
        { name := "Invoke", container := "A"
          scheduling := some { nodeType := "A", parameters := [], result := some .int } }) },
    { expr := 7, symbol := some (.store 3) }]

/-- The graph has a name of each kind that is generated. -/
theorem lower_names_apart_iteratingNode : ∃ a ids',
    Activity.build {} 0 iteratingNode = (.ok a, ids') ∧ (∀ x, a.Declares x → ¬ a.IsGenerated x) ∧
    (((a.resolve ids' {}).1.lower none iteratingIndex 64).2 = [] ∧
      ["__r1", "__arg_item", "__handle1"].map .bound ⊆
        ((a.resolve ids' {}).1.lower none iteratingIndex 64).1.mentions) ∧
    ∀ m ∈ ((a.resolve ids' {}).1.lower none iteratingIndex 64).1.mentions,
      a.Speaks m ∨ m = .used Expr.contextName ∨ (a.IsGenerated m.name ∧ ¬ a.Declares m.name) := by
  obtain ⟨a, ids', h, hnames, hgraph⟩ := iteratingNode.exists_of_builds
    (P := fun a ids' => (∀ m ∈ a.mentions, ¬ ['_', '_'] <+: m.name.toList) ∧
      ((a.resolve ids' {}).1.lower none iteratingIndex 64).2 = [] ∧
      ["__r1", "__arg_item", "__handle1"].map .bound ⊆
        ((a.resolve ids' {}).1.lower none iteratingIndex 64).1.mentions) (by decide +kernel)
  have hdeclared : ∀ x, a.Declares x → ¬ a.IsGenerated x := fun x hx hgenerated =>
    hnames _ hx hgenerated.isPrefix
  exact ⟨a, ids', h, hdeclared, hgraph,
    lower_names_apart h ids' {} none iteratingIndex 64 hdeclared⟩

end Iterating

section Clashing

def clashingProgram : ParseProgram where
  units := [{
    activities := [
      { label := "activity", text := some "A"
        members := [
          ("parameters", { label := "parameters", items := [
            { label := "parameter", text := some "value"
              members := [("type", .typeName "int")] }] }),
          ("result", { label := "result", text := some "int" }), ("body", .sequence [])] },
      .main {
        label := "sequence"
        members := [("variables", { label := "variables", items := [
          .variableNode "__r1" "int", .variableNode "x" "int"] })]
        items := [.codeBlock [.eval (.assign {} .assign (.ident "x") (.apply .add
          (.invoke "A" [.mk .input (.ident "__r1")]) (.int 1)))]] }] }]

/-- A variable that has the name of the result of the first call is accepted. The graph declares the
name for the variable, and once more, inside, for the result. -/
theorem clashingProgram_clashes :
    ∃ units answer, CompilationUnit.prepare clashingProgram = .ok units ∧
      ModelUnit.analyzeAll (ModelProgram.emit units (ExternalNodeType.synthesize [])).units =
        .ok answer ∧
      ∃ u ∈ units, ∃ a ∈ u.activities, (a.lower none answer.index 64).2 = [] ∧
        a.mentions.count (.bound (Lower.tempName "r" 1)) = 1 ∧
        (a.lower none answer.index 64).1.mentions.count (.bound (Lower.tempName "r" 1)) = 2 := by
  exact clashingProgram.exists_of_anyActivity (P := fun x a => (a.lower none x 64).2 = [] ∧
    a.mentions.count (.bound (Lower.tempName "r" 1)) = 1 ∧
    (a.lower none x 64).1.mentions.count (.bound (Lower.tempName "r" 1)) = 2) (by decide +kernel)

end Clashing

end Workflow
