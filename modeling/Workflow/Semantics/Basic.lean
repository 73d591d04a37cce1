import Workflow.Model.Basic

/-!
# Semantic models

A semantic oracle answers, for every expression of the marked fragments of a program, what it stands
for and what type it has, and for every declared store its type. An index looks these answers up;
of several answers for one expression or store the last one counts.
-/

namespace Workflow

structure Diagnostic where
  message : String
  /-- The fragment or the declaration that it is about. -/
  marker : Option Marker := none
  span : Option Span := none
deriving DecidableEq, Repr, Inhabited

structure MethodSymbol where
  name : String
  /-- The qualified name of the type that declares it. -/
  container : String
  parameters : List ScheduledParameter := []
  returnType : Option TypeName := none
  /-- What a call to the method schedules, if anything. -/
  scheduling : Option SchedulingAttribute := none
deriving DecidableEq, Repr, Inhabited

inductive Symbol where
  /-- A store, by the marker of its declaration. -/
  | store (declaration : Marker)
  /-- A local of the fragment, or a parameter of a lambda. -/
  | localVar
  | method (m : MethodSymbol)
  | type (name : String)
  | other
deriving DecidableEq, Repr, Inhabited

structure ExprAnnotation where
  expr : ExprId
  symbol : Option Symbol := none
  ty : Option TypeName := none
deriving DecidableEq, Repr, Inhabited

structure AnnotatedFragment where
  marker : Marker
  exprs : List ExprAnnotation
deriving DecidableEq, Repr, Inhabited

structure DeclarationType where
  marker : Marker
  ty : TypeName
deriving DecidableEq, Repr, Inhabited

/-- The answer of an oracle for a program. -/
structure SemanticModel where
  fragments : List AnnotatedFragment := []
  declarations : List DeclarationType := []
deriving DecidableEq, Repr, Inhabited

/-- The answers of an oracle in the order in which they are looked up, the last one first. -/
structure SemanticIndex where
  exprs : List ExprAnnotation := []
  declarations : List DeclarationType := []
  fragments : List Marker := []
deriving Inhabited

def SemanticModel.index (m : SemanticModel) : SemanticIndex :=
  { exprs := (m.fragments.flatMap (·.exprs)).reverse
    declarations := m.declarations.reverse
    fragments := m.fragments.map (·.marker) }

namespace SemanticIndex

def annotation? (x : SemanticIndex) (id : Option ExprId) : Option ExprAnnotation :=
  id.bind fun id => x.exprs.find? (·.expr == id)

def symbol? (x : SemanticIndex) (id : Option ExprId) : Option Symbol :=
  (x.annotation? id).bind (·.symbol)

def type? (x : SemanticIndex) (id : Option ExprId) : Option TypeName :=
  (x.annotation? id).bind (·.ty)

def storeMarker? (x : SemanticIndex) (id : Option ExprId) : Option Marker :=
  match x.symbol? id with
  | some (.store declaration) => some declaration
  | _ => none

def scheduling? (x : SemanticIndex) (id : Option ExprId) : Option SchedulingAttribute :=
  match x.symbol? id with
  | some (.method m) => m.scheduling
  | _ => none

def declarationType? (x : SemanticIndex) (m : Marker) : Option TypeName :=
  (x.declarations.find? (·.marker == m)).map (·.ty)

def hasFragment (x : SemanticIndex) (m : Marker) : Bool := x.fragments.contains m

end SemanticIndex

end Workflow
