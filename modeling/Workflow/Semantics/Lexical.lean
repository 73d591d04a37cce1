import Workflow.Semantics.Oracle
import Workflow.Semantics.Scope

/-!
# The lexical oracle

An oracle of its own, for compiling without a frontend. It knows the node types of a catalog, and it
analyzes the model programs by their scopes.
-/

namespace Workflow

open ModelStmt

/-- What the analysis of model statements finds out. -/
structure ModelFindings where
  fragments : List AnnotatedFragment := []
  declarations : List DeclarationType := []
  diagnostics : List Diagnostic := []
deriving Inhabited

def ModelFindings.append (a b : ModelFindings) : ModelFindings :=
  { fragments := a.fragments ++ b.fragments
    declarations := a.declarations ++ b.declarations
    diagnostics := a.diagnostics ++ b.diagnostics }

instance : Append ModelFindings := ⟨ModelFindings.append⟩

/-- Findings about the code of a fragment; annotations outside of fragments are dropped. -/
def ModelFindings.ofCode (marker : Option Marker) (found : Findings) : ModelFindings :=
  { fragments := (marker.map fun m => { marker := m, exprs := found.annotations }).toList
    diagnostics := found.diagnostics }

def ModelFindings.ofDeclaration (marker : Marker) (ty : TypeName) : ModelFindings :=
  { declarations := [{ marker := marker, ty := ty }] }

def ModelExpr.analyze (types : TypeTable) (scope : Scope) (e : ModelExpr) :
    Option TypeName × ModelFindings :=
  let i := ScopeContext.inspect { types := types, marker := e.marker } scope e.expr
  (i.ty, .ofCode e.marker (i.close e.expr))

def ModelExpr.analyzeOption (types : TypeTable) (scope : Scope) :
    Option ModelExpr → Option TypeName × ModelFindings
  | none => (none, {})
  | some e => e.analyze types scope

/-- The type of a declared variable: that of another variable, that of the initial value, or the one
that is given. -/
def ModelStmt.declaredType (scope : Scope) (ty : TypeName) (like : Option String)
    (initTy : Option TypeName) : TypeName :=
  let known := match like with
    | some other => (scope.find? other).bind (·.type?)
    | none => if ty.isInferred then initTy else some ty
  known.getD .object

mutual
/-- Analyzes a statement of a model program, and gives the scope after it. -/
def ModelStmt.analyze (types : TypeTable) (scope : Scope) : ModelStmt → Scope × ModelFindings
  | .declare marker name ty like init =>
    let (initTy, found) := ModelExpr.analyzeOption types scope init
    let ty := declaredType scope ty like initTy
    match marker with
    | some m => (scope.bind name (.store m ty), found ++ .ofDeclaration m ty)
    | none => (scope.bind name (.localVar (some ty)), found)
  | .eval expr => (scope, (expr.analyze types scope).2)
  | .fragment marker body =>
    let (inner, found) :=
      ScopeContext.inspectBody { types := types, marker := some marker } scope body
    (inner, .ofCode (some marker) found)
  | .block body => (scope, (analyzeList types scope body).2)
  | .forEach marker name ty values body =>
    let (valuesTy, found) := values.analyze types scope
    let ty := if ty.isInferred then (valuesTy.map TypeName.element).getD .object else ty
    let inner := scope.bind name (.store marker ty)
    (scope, found ++ .ofDeclaration marker ty ++ (analyzeList types inner body).2)

def ModelStmt.analyzeList (types : TypeTable) (scope : Scope) :
    List ModelStmt → Scope × ModelFindings
  | [] => (scope, {})
  | s :: rest =>
    let (inner, found) := s.analyze types scope
    let (last, more) := analyzeList types inner rest
    (last, found ++ more)
end

def ModelParameter.binding (p : ModelParameter) : Binding :=
  match p.marker with
  | some m => .store m p.ty
  | none => .localVar (some p.ty)

def ModelMethod.analyze (types : TypeTable) (m : ModelMethod) : ModelFindings :=
  match m.body with
  | none => {}
  | some body =>
    let scope := m.parameters.foldl (fun s p => Scope.bind s p.name p.binding) []
    (analyzeList types scope body).2

def ModelUnit.analyzeAll (units : List ModelUnit) : Except (List Diagnostic) SemanticModel :=
  let types := TypeTable.ofUnits units
  let methods := (units.flatMap (·.types)).flatMap (·.methods)
  let found := (methods.map (ModelMethod.analyze types)).foldl ModelFindings.append {}
  if found.diagnostics.isEmpty then
    .ok { fragments := found.fragments, declarations := found.declarations }
  else .error found.diagnostics

def ExternalNodeType.discover (catalog : List ExternalNodeType)
    (imports references : List String) : List ExternalNodeType :=
  catalog.filter fun t => imports.contains t.ns || references.contains t.ns

def lexicalOracle {m : Type → Type} [Monad m] (catalog : List ExternalNodeType) :
    SemanticOracle m where
  discover imports references :=
    return .ok (ExternalNodeType.discover catalog imports references)
  analyze units _ := return (ModelUnit.analyzeAll units).mapError .diagnostics

end Workflow
