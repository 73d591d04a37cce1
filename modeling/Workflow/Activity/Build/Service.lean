import Workflow.Activity.Build.Control

/-!
# Building activities: messaging

A request names its contract and its operation; a reply may name its request. Only a receive can
create an instance. The operations of an activity are registered in document order.
-/

namespace Workflow.Build

def contentParameter (unit : Nat) (node : ParseNode) : Build ContentParameter := do
  if node.label != "parameter" then
    invalid unit node "expected parameter"
  let name ← check node.requireText
  match node.expr with
  | none => invalid unit node "parameter without a value"
  | some e => return { name := name, value := ← fragmentOf unit node e }

def contentParameters (unit : Nat) (node : ParseNode) : Build (List ContentParameter) :=
  node.items.mapM (contentParameter unit)

def content (unit : Nat) (node : ParseNode) : Build (Option Content) := do
  match node.member "content" with
  | none => return none
  | some content =>
    match content.label with
    | "message" =>
      match content.expr with
      | none => invalid unit content "message without a value"
      | some e => return some (.message (← fragmentOf unit content e))
    | "parameters" => return some (.parameters (← contentParameters unit content))
    | _ => invalid unit content "content must be a message or parameters"

def operation (unit : Nat) (kind : ServiceKind) (node : ParseNode) : Build ServiceOperation := do
  if !kind.isReply then
    let _ ← check (node.require "contract")
    let _ ← check (node.require "operation")
  let canCreateInstance := node.hasFlag "create-instance"
  if canCreateInstance && kind != .receive then
    invalid unit node "only receive can create an instance"
  let requestName := node.memberText "request"
  if requestName.isSome && !kind.isReply then
    invalid unit node "only replies name a request"
  let content ← content unit node
  let correlatesWith ← optionalFragment unit node "correlates-with"
  let endpoint ← optionalFragment unit node "endpoint"
  return { kind := kind
           name := node.text
           contract := (node.memberText "contract").map TypeName.mk
           operation := node.memberText "operation"
           content := content
           correlatesWith := correlatesWith
           canCreateInstance := canCreateInstance
           endpoint := endpoint
           requestName := requestName }

def serviceKind : String → ServiceKind
  | "receive" => .receive
  | "send" => .send
  | "send-reply" => .sendReply
  | _ => .receiveReply

def service (unit : Nat) (kind : ServiceKind) (node : ParseNode) (id : StmtId) :
    Build StmtKind := do
  let op ← operation unit kind node
  modifyActivity fun a => { a with serviceOperations := a.serviceOperations ++ [id] }
  return .service op

def contentCorrelation (unit : Nat) (node : ParseNode) : Build StmtKind := do
  let handle ← fragment unit node "handle"
  let data ← contentParameters unit node
  return .contentCorrelation handle data

/-- A body in the transaction of the request that it starts with. -/
def transactedReceive (unit : Nat) (build : Inner) (node : ParseNode) (id : StmtId) :
    Build StmtKind := do
  hostVariables unit node id
  let request ← check (node.require "request")
  if request.label != "receive" then
    invalid unit request "request must be a receive operation"
  let requestId ← stmtOrEmpty unit build request id
  let body ← requiredStmt unit build node "body" id
  return .transactedReceive requestId body

end Workflow.Build
