import Workflow.Activity.Basic
import Workflow.Code.Walk
import Workflow.Tree.Node

/-!
# Building activities: state and fragments

An activity is built from its node in one pass in source order. The pass carries the activity so far
and the numbers given out so far, and it stops at the first error. Markers and expression identities
are given out for the whole compilation, and the ones that a failing activity took stay taken.
-/

namespace Workflow

/-- How many markers and expression identities were given out; both count from one. -/
structure Ids where
  markers : Marker := 0
  exprs : ExprId := 0
deriving DecidableEq, Repr, Inhabited

structure BuildState where
  ids : Ids
  activity : Activity
deriving Inhabited

abbrev Build := EStateM CompileError BuildState

namespace Build

def fail {α : Type} (cause : Cause) (span : Span) : Build α := throw (cause.error span)

def check {α : Type} : Except CompileError α → Build α
  | .ok a => pure a
  | .error e => throw e

def activity : Build Activity := return (← get).activity

def modifyActivity (f : Activity → Activity) : Build Unit :=
  modify fun s => { s with activity := f s.activity }

def marker : Build Marker :=
  modifyGet fun s =>
    (s.ids.markers + 1, { s with ids := { s.ids with markers := s.ids.markers + 1 } })

def alloc (tag : StmtTag) (parent : Option StmtId) (span : Span) : Build StmtId :=
  modifyGet fun s =>
    let (id, a) := s.activity.alloc tag parent span
    (id, { s with activity := a })

def setKind (id : StmtId) (kind : StmtKind) : Build Unit := modifyActivity (·.setKind id kind)

def declare (host : StoreHost) (name : String) (ty : TypeName) (kind : StoreKind) (span : Span) :
    Build StoreId := do
  let m ← marker
  let store : Store :=
    { name := name, ty := ty, kind := kind, marker := m, host := host, span := span }
  let (id, a) ← check ((← activity).declare store)
  modifyActivity fun _ => a
  return id

def redirectTo (id : StoreId) (e : Expr) : Build Unit := do
  match (← activity).stores[id]? with
  | none => pure ()
  | some store =>
    let store ← check (store.redirectTo e)
    modifyActivity (·.modifyStore id fun _ => store)

def prepare (unit : Nat) (e : Expr) : Build Expr :=
  modifyGet fun s =>
    let (e, last) := e.number s.ids.exprs
    (e.inUnit unit, { s with ids := { s.ids with exprs := last } })

/-- Numbers statements and attributes them to their unit. -/
def prepareBody (unit : Nat) (body : List CodeStmt) : Build (List CodeStmt) :=
  modifyGet fun s =>
    let (body, last) := CodeStmt.numberList s.ids.exprs body
    (CodeStmt.inUnitList unit body, { s with ids := { s.ids with exprs := last } })

def fragmentOf (unit : Nat) (holder : ParseNode) (e : Expr) : Build Fragment := do
  let e ← prepare unit e
  let m ← marker
  return { marker := m, span := holder.span.inUnit unit, expr := e }

def fragment (unit : Nat) (node : ParseNode) (member : String) : Build Fragment := do
  let (holder, e) ← check (node.requireExpr member)
  fragmentOf unit holder e

def optionalFragment (unit : Nat) (node : ParseNode) (member : String) :
    Build (Option Fragment) := do
  match ← check (node.optionalExpr member) with
  | none => return none
  | some (holder, e) => return some (← fragmentOf unit holder e)

def codeKind (unit : Nat) (body : List CodeStmt) (span : Span) (initializes : Option StoreId) :
    Build StmtKind := do
  let body ← prepareBody unit body
  let m ← marker
  return .code { marker := m, span := span, body := body } none initializes

def nodeRef (unit : Nat) (node : ParseNode) (member : String) : Build (Option NodeRef) := do
  match node.member member with
  | none => return none
  | some target =>
    let name ← check target.requireText
    return some { name := name, span := target.span.inUnit unit }

/-- Stops because a node has a value that it must not have. -/
def invalid {α : Type} (unit : Nat) (node : ParseNode) (detail : String) : Build α :=
  fail (.invalidValue node.label detail) (node.span.inUnit unit)

end Build

end Workflow
