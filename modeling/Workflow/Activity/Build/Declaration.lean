import Workflow.Activity.Build.Monad

/-!
# Building activities: parameters and variables

The parameters and the result of an activity are stores of the activity. The variables that a scope
lists are stores of that scope and cannot have an initial value there; a variable statement declares
a store of the nearest scope around it, and its initial value becomes a code statement.
-/

namespace Workflow.Build

def resultName : String := "Result"

def parameter (unit : Nat) (param : ParseNode) : Build Unit := do
  let name ← check param.requireText
  let ty ← check (← check (param.require "type")).requireText
  let direction ← match param.memberText "direction" with
    | none => pure Direction.input
    | some word =>
      match Direction.ofWord? word with
      | some d => pure d
      | none => invalid unit param s!"unknown direction '{word}'"
  let id ← declare .activity name ⟨ty⟩ (.ofDirection direction) (param.span.inUnit unit)
  modifyActivity fun a => { a with parameters := a.parameters ++ [id] }

/-- Declares the parameters and the result of the activity. -/
def signature (unit : Nat) (node : ParseNode) : Build Unit := do
  match node.member "parameters" with
  | none => pure ()
  | some params => params.items.forM (parameter unit)
  match node.member "result" with
  | none => pure ()
  | some result =>
    let ty ← check result.requireText
    let id ← declare .activity resultName ⟨ty⟩ .result (result.span.inUnit unit)
    modifyActivity fun a => { a with result := some id }

/-- Declares a variable. Without an initial value its type has to be given. -/
def declareVar (unit : Nat) (node : ParseNode) (host : StoreHost) : Build StoreId := do
  let name ← check node.requireText
  let ty := node.memberType "type"
  if ty.isInferred && (node.member "init").isNone then
    fail (.uninferredStoreType name) (node.span.inUnit unit)
  declare host name ty .var (node.span.inUnit unit)

def hostVariable (unit : Nat) (host : StmtId) (node : ParseNode) : Build Unit := do
  if (node.member "init").isSome then
    invalid unit node "host variables cannot have initializers"
  let _ ← declareVar unit node (.statement host)

def hostVariables (unit : Nat) (node : ParseNode) (host : StmtId) : Build Unit := do
  match node.member "variables" with
  | none => pure ()
  | some vars => vars.items.forM (hostVariable unit host)

/-- A variable statement. With an initial value it becomes the assignment of that value; without one
there is no statement. -/
def varStatement (unit : Nat) (node : ParseNode) (parent : StmtId) : Build (Option StmtId) := do
  let host := (← activity).storeHost parent
  let store ← declareVar unit node host
  match ← check (node.optionalExpr "init") with
  | none => return none
  | some (_, init) =>
    modifyActivity (·.modifyStore store fun s => { s with initialized := true })
    let span := node.span.inUnit unit
    let origin : Origin := { span := span }
    let target := Expr.name origin (node.text.getD "")
    let id ← alloc .code (some parent) span
    let kind ← codeKind unit [.eval (.assign origin .assign target init)] span (some store)
    setKind id kind
    return some id

end Workflow.Build
