import Workflow.Activity.Build.Declaration

/-!
# Building activities: control structures

Each construct is built by a function that takes the builder of the statements inside it. A slot
that must hold a statement gets an empty one when its node yields none.
-/

namespace Workflow.Build

/-- The builder of a statement from its node and its parent; a variable without initial value yields
none. -/
abbrev Inner := ParseNode → StmtId → Build (Option StmtId)

def compensationTokenType : TypeName := ⟨"CompensationToken"⟩

/-- The type of exceptions that a handler catches unless it names one. -/
def exceptionType : TypeName := ⟨"System.Exception"⟩

/-- The name of the delegate argument that gives access to an item or a caught exception. -/
def argumentName (name : String) : String := s!"__arg_{name}"

/-- Builds a statement in a slot that must hold one. -/
def stmtOrEmpty (unit : Nat) (build : Inner) (node : ParseNode) (parent : StmtId) :
    Build StmtId := do
  match ← build node parent with
  | some id => return id
  | none => alloc .empty (some parent) (node.span.inUnit unit)

def requiredStmt (unit : Nat) (build : Inner) (node : ParseNode) (member : String)
    (parent : StmtId) : Build StmtId := do
  stmtOrEmpty unit build (← check (node.require member)) parent

def optionalStmt (unit : Nat) (build : Inner) (node : ParseNode) (member : String)
    (parent : StmtId) : Build (Option StmtId) := do
  match node.member member with
  | none => return none
  | some child => return some (← stmtOrEmpty unit build child parent)

/-- Chains each code statement to the code statement right after it. -/
def chainCode (a : Activity) : List StmtId → Activity
  | first :: second :: rest =>
    let a := if a.tag second == .code then
        match a.kind first with
        | .code fragment _ initializes => a.setKind first (.code fragment (some second) initializes)
        | _ => a
      else a
    chainCode a (second :: rest)
  | _ => a

def sequence (unit : Nat) (build : Inner) (node : ParseNode) (parent : Option StmtId) :
    Build StmtId := do
  let id ← alloc .sequence parent (node.span.inUnit unit)
  hostVariables unit node id
  let members ← node.items.filterMapM fun item => build item id
  modifyActivity fun a => chainCode a members
  setKind id (.sequence members)
  return id

def code (unit : Nat) (node : ParseNode) : Build StmtKind := do
  match node.code with
  | none => invalid unit node "code statement without a body"
  | some body => codeKind unit body (node.span.inUnit unit) none

def conditional (unit : Nat) (build : Inner) (node : ParseNode) (id : StmtId) :
    Build StmtKind := do
  let condition ← fragment unit node "condition"
  let yes ← requiredStmt unit build node "then" id
  let no ← optionalStmt unit build node "else" id
  return .conditional condition yes no

def loop (unit : Nat) (build : Inner) (node : ParseNode) (id : StmtId) : Build StmtKind := do
  let condition ← fragment unit node "condition"
  let body ← requiredStmt unit build node "body" id
  return .loop condition body (node.label == "do-while")

def switchCase (unit : Nat) (build : Inner) (id : StmtId) (case : ParseNode) :
    Build SwitchCase := do
  if case.label != "case" then
    invalid unit case "switch items must be cases"
  let key ← fragment unit case "key"
  let body ← requiredStmt unit build case "body" id
  return { key := key, body := body }

def switch (unit : Nat) (build : Inner) (node : ParseNode) (id : StmtId) : Build StmtKind := do
  let value ← fragment unit node "value"
  let cases ← node.items.mapM (switchCase unit build id)
  let fallback ← optionalStmt unit build node "default" id
  return .switch value cases fallback

def raise (unit : Nat) (node : ParseNode) (parent : StmtId) : Build StmtKind := do
  let exception ← optionalFragment unit node "exception"
  if exception.isNone && ((← activity).nearestWithTag parent [.handler]).isNone then
    fail .rethrowOutsideCatch (node.span.inUnit unit)
  return .raise exception

def caughtStore (catchId : StmtId) (ty : TypeName) (span : Span) : Option String →
    Build (Option StoreId)
  | none => return none
  | some name => do
    let store ← declare (.statement catchId) name ty .var span
    redirectTo store (.ident (argumentName name))
    return some store

def handler (unit : Nat) (build : Inner) (id : StmtId) (clause : ParseNode) : Build StmtId := do
  if clause.label != "catch" then
    invalid unit clause "try items must be catch clauses"
  let span := clause.span.inUnit unit
  let catchId ← alloc .handler (some id) span
  let ty := match clause.memberText "type" with
    | some s => ⟨s⟩
    | none => exceptionType
  let caught ← caughtStore catchId ty span clause.text
  let body ← requiredStmt unit build clause "body" catchId
  setKind catchId (.handler ty caught body)
  return catchId

def guarded (unit : Nat) (build : Inner) (node : ParseNode) (id : StmtId) : Build StmtKind := do
  let body ← requiredStmt unit build node "body" id
  let handlers ← node.items.mapM (handler unit build id)
  let final ← optionalStmt unit build node "finally" id
  if handlers.isEmpty && final.isNone then
    invalid unit node "try needs at least one catch or a finally"
  return .guarded body handlers final

def forEach (unit : Nat) (build : Inner) (node : ParseNode) (id : StmtId) : Build StmtKind := do
  let parallel := node.label == "parallel-foreach"
  let name ← check node.requireText
  let values ← fragment unit node "values"
  let completion ← optionalFragment unit node "until"
  if completion.isSome && !parallel then
    invalid unit node "only parallel foreach accepts a completion condition"
  let item ← declare (.statement id) name (node.memberType "type") .var (node.span.inUnit unit)
  redirectTo item (.ident (argumentName name))
  let body ← requiredStmt unit build node "body" id
  return .forEach item values body parallel completion

def parallel (unit : Nat) (build : Inner) (node : ParseNode) (id : StmtId) : Build StmtKind := do
  let branches ← node.items.mapM fun item => stmtOrEmpty unit build item id
  let completion ← optionalFragment unit node "until"
  return .parallel branches completion

def pickBranch (unit : Nat) (build : Inner) (id : StmtId) (branch : ParseNode) :
    Build StmtId := do
  if branch.label != "branch" then
    invalid unit branch "pick items must be branches"
  let branchId ← alloc .pickBranch (some id) (branch.span.inUnit unit)
  hostVariables unit branch branchId
  let trigger ← requiredStmt unit build branch "trigger" branchId
  let action ← optionalStmt unit build branch "action" branchId
  setKind branchId (.pickBranch trigger action)
  return branchId

def pick (unit : Nat) (build : Inner) (node : ParseNode) (id : StmtId) : Build StmtKind := do
  return .pick (← node.items.mapM (pickBranch unit build id))

def transacted (unit : Nat) (build : Inner) (node : ParseNode) (id : StmtId) :
    Build StmtKind := do
  let body ← requiredStmt unit build node "body" id
  let timeout ← optionalFragment unit node "timeout"
  return .transacted body timeout

def cancellable (unit : Nat) (build : Inner) (node : ParseNode) (id : StmtId) :
    Build StmtKind := do
  let body ← requiredStmt unit build node "body" id
  let onCancel ← optionalStmt unit build node "handler" id
  return .cancellable body onCancel

/-- A body that can be compensated. A name declares its token in the scope around it. -/
def compensable (unit : Nat) (build : Inner) (node : ParseNode) (id parent : StmtId) :
    Build StmtKind := do
  let token ← match node.text with
    | none => pure none
    | some name =>
      let host := (← activity).storeHost parent
      some <$> declare host name compensationTokenType .var (node.span.inUnit unit)
  let body ← requiredStmt unit build node "body" id
  let compensation ← optionalStmt unit build node "compensation" id
  let confirmation ← optionalStmt unit build node "confirmation" id
  let cancellation ← optionalStmt unit build node "cancellation" id
  return .compensable body token compensation confirmation cancellation

def persist (unit : Nat) (node : ParseNode) (parent : StmtId) : Build StmtKind := do
  if ((← activity).nearestWithTag parent [.noPersist]).isSome then
    fail .persistInsideNoPersist (node.span.inUnit unit)
  return .persist

def terminate (unit : Nat) (node : ParseNode) : Build StmtKind := do
  let reason ← optionalFragment unit node "reason"
  let exception ← optionalFragment unit node "exception"
  return .terminate reason exception

end Workflow.Build
