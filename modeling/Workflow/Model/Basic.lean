import Workflow.Activity.Store

/-!
# Model programs

A model program is an ordinary program that shows the embedded code of a unit to a semantic oracle.
It is never run. Every fragment stands in it as it is, with its marker. Each activity is a type with
two methods: `Invoke` is its signature and carries the attribute that makes calls to it scheduled
calls, and a second method holds the body.
-/

namespace Workflow

structure ScheduledParameter where
  name : String
  ty : TypeName
  direction : Direction := .input
deriving DecidableEq, Repr, Inhabited

/-- What a call to a scheduled method schedules. -/
structure SchedulingAttribute where
  nodeType : String
  parameters : List ScheduledParameter
  result : Option TypeName := none
deriving DecidableEq, Repr, Inhabited

structure ModelParameter where
  name : String
  ty : TypeName
  direction : Direction := .input
  /-- The marker of the store that it declares. -/
  marker : Option Marker := none
deriving DecidableEq, Repr, Inhabited

/-- An expression, with a marker if it is a fragment. -/
structure ModelExpr where
  marker : Option Marker := none
  expr : Expr
deriving Inhabited

def ModelExpr.ofFragment (marker : Marker) (expr : Expr) : ModelExpr :=
  { marker := some marker, expr := expr }

inductive ModelStmt where
  /-- A variable, with a marker if it is a store; its type may be that of another variable. -/
  | declare (marker : Option Marker) (name : String) (ty : TypeName) (like : Option String)
      (init : Option ModelExpr)
  | eval (expr : ModelExpr)
  | fragment (marker : Marker) (body : List CodeStmt)
  | block (body : List ModelStmt)
  | forEach (marker : Marker) (name : String) (ty : TypeName) (values : ModelExpr)
      (body : List ModelStmt)
deriving Inhabited

/-- A method. Without a body it is a signature. -/
structure ModelMethod where
  name : String
  isStatic : Bool := false
  parameters : List ModelParameter
  returnType : Option TypeName := none
  scheduling : Option SchedulingAttribute := none
  body : Option (List ModelStmt) := none
deriving Inhabited

/-- A type: an activity of the program, or a node type from elsewhere. -/
structure ModelType where
  name : String
  ns : Option String := none
  /-- Whether the type stands for a node type from elsewhere. -/
  synthesized : Bool := false
  methods : List ModelMethod
deriving Inhabited

structure ModelUnit where
  index : Nat
  ns : Option String := none
  imports : List String := []
  types : List ModelType
deriving Inhabited

def qualify : Option String → String → String
  | some ns, name => if ns.isEmpty then name else ns ++ "." ++ name
  | none, name => name

def ModelType.qualifiedName (t : ModelType) : String := qualify t.ns t.name

def ModelType.method? (t : ModelType) (name : String) : Option ModelMethod :=
  t.methods.find? (·.name == name)

namespace ModelMethod

def invokeName : String := "Invoke"

def bodyName : String := "__Body"

def invoke (nodeType : String) (parameters : List ScheduledParameter)
    (result : Option TypeName) : ModelMethod :=
  { name := invokeName
    isStatic := true
    parameters := parameters.map fun p => { name := p.name, ty := p.ty, direction := p.direction }
    returnType := result
    scheduling := some { nodeType := nodeType, parameters := parameters, result := result } }

end ModelMethod

end Workflow
