import Workflow.Model.Basic

/-!
# Node types from elsewhere

The namespaces that a program imports may hold node types. A type can be scheduled if it is public,
not abstract, can be created without arguments, and is derived from `Activity` or `Activity<T>`.
Such a type joins the model program as a type with the `Invoke` method alone.
-/

namespace Workflow

/-- What a type is derived from. -/
inductive NodeBase where
  /-- `Activity`, which has no result. -/
  | activity
  /-- `Activity<T>`, with a result of type `T`. -/
  | activityOf (result : TypeName)
  | other (name : String)
deriving DecidableEq, Repr, Inhabited

def NodeBase.result : NodeBase → Option TypeName
  | .activityOf result => some result
  | _ => none

/-- A type found in a namespace. -/
structure ExternalNodeType where
  name : String
  ns : String
  isPublic : Bool
  isAbstract : Bool
  hasDefaultConstructor : Bool
  base : NodeBase
  arguments : List ScheduledParameter := []
deriving DecidableEq, Repr, Inhabited

namespace ExternalNodeType

/-- Why a type cannot be scheduled. -/
def ineligibility (t : ExternalNodeType) : Option String :=
  if !t.isPublic then some "not public"
  else if t.isAbstract then some "abstract"
  else if !t.hasDefaultConstructor then some "no public parameterless constructor"
  else
    match t.base with
    | .other _ => some "not derived from Activity or Activity<T>"
    | _ => none

def toModelType (t : ExternalNodeType) : ModelType :=
  { name := t.name
    ns := some t.ns
    synthesized := true
    methods := [.invoke (qualify (some t.ns) t.name) t.arguments t.base.result] }

/-- The model types of those types that can be scheduled. -/
def synthesize (found : List ExternalNodeType) : List ModelType :=
  (found.filter (·.ineligibility.isNone)).map toModelType

end ExternalNodeType

end Workflow
