import Workflow.Proofs.Semantics.Shown

/-!
# The code that the lexical oracle answers for

The lexical oracle answers for the marked code of a model program in order: one answer for each, in
which every expression of the code that has an identity occurs once. In the same way it gives every
marked declaration one type.
-/

namespace Workflow

open ModelStmt ModelUnit

/-- Code under a marker: all its expressions, also those inside of lambdas and blocks. -/
structure MarkedCode where
  marker : Marker
  exprs : List Expr

def ModelExpr.fragments (e : ModelExpr) : List MarkedCode :=
  (e.marker.map fun m => ⟨m, e.expr.nodes⟩).toList

namespace ModelStmt

mutual
def fragments : ModelStmt → List MarkedCode
  | .declare _ _ _ _ init => init.toList.flatMap ModelExpr.fragments
  | .eval e => e.fragments
  | .fragment marker body => [⟨marker, CodeStmt.nodesList body⟩]
  | .block body => fragmentsList body
  | .forEach _ _ _ values body => values.fragments ++ fragmentsList body

def fragmentsList : List ModelStmt → List MarkedCode
  | [] => []
  | s :: rest => s.fragments ++ fragmentsList rest
end

mutual
def declared : ModelStmt → List Marker
  | .declare marker _ _ _ _ => marker.toList
  | .eval _ => []
  | .fragment _ _ => []
  | .block body => declaredList body
  | .forEach marker _ _ _ body => marker :: declaredList body

def declaredList : List ModelStmt → List Marker
  | [] => []
  | s :: rest => s.declared ++ declaredList rest
end

theorem fragmentsList_append (ss ts : List ModelStmt) :
    fragmentsList (ss ++ ts) = fragmentsList ss ++ fragmentsList ts := by
  induction ss with
  | nil => rfl
  | cons s ss ih => simp [fragmentsList, ih]

theorem declaredList_append (ss ts : List ModelStmt) :
    declaredList (ss ++ ts) = declaredList ss ++ declaredList ts := by
  induction ss with
  | nil => rfl
  | cons s ss ih => simp [declaredList, ih]

end ModelStmt

def ModelMethod.fragments (m : ModelMethod) : List MarkedCode :=
  m.body.toList.flatMap fragmentsList

def ModelMethod.declared (m : ModelMethod) : List Marker :=
  m.body.toList.flatMap declaredList

def ModelUnit.methods (units : List ModelUnit) : List ModelMethod :=
  (units.flatMap (·.types)).flatMap (·.methods)

/-! ### Model programs -/

/-- An answer is for some marked code: it has its marker and annotates each of its expressions once. -/
structure AnnotatedFragment.Answers (f : AnnotatedFragment) (code : MarkedCode) : Prop where
  marker : f.marker = code.marker
  exprs : (f.exprs.map (·.expr)).Perm (code.exprs.filterMap Expr.id)

/-- Findings are the answers for some marked code and declarations, one by one. -/
structure ModelFindings.Answer (found : ModelFindings) (codes : List MarkedCode)
    (declared : List Marker) : Prop where
  fragments : List.Forall₂ AnnotatedFragment.Answers found.fragments codes
  declarations : found.declarations.map (·.marker) = declared

namespace ModelFindings

theorem answer_empty : Answer {} [] [] := ⟨.nil, rfl⟩

theorem Answer.append {a b : ModelFindings} {codes codes' : List MarkedCode}
    {declared declared' : List Marker} (ha : a.Answer codes declared)
    (hb : b.Answer codes' declared') : (a ++ b).Answer (codes ++ codes') (declared ++ declared') := by
  constructor
  · exact List.rel_append ha.fragments hb.fragments
  · change (a.declarations ++ b.declarations).map _ = _
    rw [List.map_append, ha.declarations, hb.declarations]

theorem answer_ofDeclaration (marker : Marker) (ty : TypeName) :
    (ofDeclaration marker ty).Answer [] [marker] := ⟨.nil, rfl⟩

theorem answer_ofCode {F : Expr → Option Symbol → Prop}
    (h : Annotates F es found.annotations) (marker : Option Marker) :
    (ofCode marker found).Answer (marker.map fun m => MarkedCode.mk m es).toList [] := by
  cases marker with
  | none => exact ⟨.nil, rfl⟩
  | some m => exact ⟨.cons ⟨rfl, Multiset.coe_eq_coe.1 h.ids⟩ .nil, rfl⟩

end ModelFindings

section Analysis

variable (types : TypeTable)

theorem analyze_answers (scope : Scope) (e : ModelExpr) :
    (e.analyze types scope).2.Answer e.fragments [] :=
  ModelFindings.answer_ofCode (ScopeContext.annotates_close
    ((ScopeContext.says_fits _).inspect scope trivial e.expr)) e.marker

theorem analyzeOption_answers (scope : Scope) (e : Option ModelExpr) :
    (ModelExpr.analyzeOption types scope e).2.Answer (e.toList.flatMap ModelExpr.fragments) [] := by
  cases e with
  | none => exact ModelFindings.answer_empty
  | some e => simpa [ModelExpr.analyzeOption] using analyze_answers types scope e

mutual
/-- The analysis of a statement answers for its marked code and declarations. -/
theorem analyzeStmt_answers (scope : Scope) : (s : ModelStmt) →
    (s.analyze types scope).2.Answer s.fragments s.declared
  | .declare marker name ty like init => by
    have hinit := analyzeOption_answers types scope init
    rw [analyze, fragments, declared]
    cases marker with
    | none => exact hinit
    | some m => simpa using hinit.append (ModelFindings.answer_ofDeclaration m _)
  | .eval e => by
    rw [analyze, fragments, declared]
    exact analyze_answers types scope e
  | .fragment marker body => by
    rw [analyze, fragments, declared]
    exact ModelFindings.answer_ofCode
      ((ScopeContext.says_fits _).inspectBody scope trivial body).2 (some marker)
  | .block body => by
    rw [analyze, fragments, declared]
    exact analyzeList_answers scope body
  | .forEach marker name ty values body => by
    rw [analyze, fragments, declared]
    have hvalues := analyze_answers types scope values
    simpa using (hvalues.append (ModelFindings.answer_ofDeclaration marker _)).append
      (analyzeList_answers _ body)

theorem analyzeList_answers (scope : Scope) : (ss : List ModelStmt) →
    (analyzeList types scope ss).2.Answer (fragmentsList ss) (declaredList ss)
  | [] => by
    rw [analyzeList]
    exact ModelFindings.answer_empty
  | s :: rest => by
    rw [analyzeList, fragmentsList, declaredList]
    exact (analyzeStmt_answers scope s).append (analyzeList_answers _ rest)
end

theorem analyzeMethod_answers (m : ModelMethod) :
    (m.analyze types).Answer m.fragments m.declared := by
  unfold ModelMethod.analyze ModelMethod.fragments ModelMethod.declared
  cases m.body with
  | none => exact ModelFindings.answer_empty
  | some body => simpa using analyzeList_answers types _ body

theorem analyzeMethods_answers (methods : List ModelMethod) {found : ModelFindings}
    {codes : List MarkedCode} {declared : List Marker} (h : found.Answer codes declared) :
    ((methods.map (ModelMethod.analyze types)).foldl ModelFindings.append found).Answer
      (codes ++ methods.flatMap ModelMethod.fragments)
      (declared ++ methods.flatMap ModelMethod.declared) := by
  induction methods generalizing found codes declared with
  | nil => simpa using h
  | cons m methods ih =>
    rw [List.map_cons, List.foldl_cons, List.flatMap_cons, List.flatMap_cons,
      ← List.append_assoc, ← List.append_assoc]
    exact ih (h.append (analyzeMethod_answers types m))

end Analysis

/-- The lexical oracle answers for the marked code and the declarations of all methods. -/
theorem analyzeAll_answers (h : analyzeAll units = .ok answer) :
    List.Forall₂ AnnotatedFragment.Answers answer.fragments
        ((methods units).flatMap ModelMethod.fragments) ∧
      answer.declarations.map (·.marker) = (methods units).flatMap ModelMethod.declared := by
  have hall := analyzeMethods_answers (TypeTable.ofUnits units) (methods units)
    ModelFindings.answer_empty
  unfold analyzeAll at h
  dsimp only at h
  split at h
  · cases h
    exact ⟨hall.fragments, hall.declarations⟩
  · cases h

end Workflow
