import Workflow.Activity.Basic
import Workflow.Code.Walk
import Workflow.Graph.Node
import Workflow.Semantics.Basic

/-!
# Lowering: context and state

The lowering of an activity looks up what the semantic oracle said, gives out names for the
variables that it makes, and collects errors.
-/

namespace Workflow

structure LowerContext where
  activity : Activity
  semantics : SemanticIndex
  /-- How deep expressions may nest. -/
  maxDepth : Nat
deriving Inhabited

namespace LowerContext

/-- The store that an expression stands for. -/
def storeFor? (c : LowerContext) (e : Expr) : Option Store := do
  let m ← c.semantics.storeMarker? e.id
  let id ← c.activity.storeByMarker m
  c.activity.stores[id]?

/-- The store that a bare name stands for. -/
def namedStore? (c : LowerContext) (e : Expr) : Option Store :=
  if e.asName.isSome then c.storeFor? e else none

def exprType? (c : LowerContext) (e : Expr) : Option TypeName := c.semantics.type? e.id

/-- What an expression schedules, if it is a call that does. -/
def scheduling? (c : LowerContext) (e : Expr) : Option SchedulingAttribute :=
  if e.isCall then c.semantics.scheduling? e.id else none

def isScheduled (c : LowerContext) (o : Origin) : Bool := (c.semantics.scheduling? o.id).isSome

/-- Whether a scheduled call is somewhere in an expression. -/
def schedules (c : LowerContext) (e : Expr) : Bool := e.any fun n => (c.scheduling? n).isSome

end LowerContext

/-- The number of names given out and the errors found. -/
structure LowerState where
  counter : Nat := 0
  errors : Diagnostics := {}
deriving Inhabited

abbrev Lower := StateM LowerState

namespace Lower

/-- A character of an identifier as it is kept; any other one becomes an underscore. -/
def identChar (c : Char) : Char := if c.isAlphanum || c == '_' then c else '_'

/-- Makes an identifier of a text. One that starts with a digit gets an underscore before it. -/
def sanitize (s : String) : String :=
  match s.toList with
  | [] => "_empty"
  | c :: cs =>
    let rest := (c :: cs).map identChar
    String.ofList (if c.isDigit then '_' :: rest else rest)

def tempName (stem : String) (n : Nat) : String := s!"__{sanitize stem}{n}"

def tempVar (stem : String) : Lower String :=
  modifyGet fun s => (tempName stem (s.counter + 1), { s with counter := s.counter + 1 })

def report (cause : Cause) (span : Span) : Lower Unit :=
  modify fun s => { s with errors := s.errors.report cause span }

/-- The type of a store: the declared one, or the one that the oracle inferred. -/
def storeType (c : LowerContext) (store : Store) : Lower TypeName := do
  if !store.ty.isInferred then return store.ty
  match (c.semantics.declarationType? store.marker).filter (fun ty => !ty.isInferred) with
  | some ty => return ty
  | none =>
    report (.uninferredStoreType store.name) store.span
    return .object

def location (c : LowerContext) (store : Store) : Lower Location :=
  return { ty := some (← storeType c store), handle := store.handle }

end Lower

end Workflow
