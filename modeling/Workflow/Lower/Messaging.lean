import Workflow.Activity.Resolve.Correlation
import Workflow.Lower.Slot

/-!
# Lowering: messaging

A messaging node has an identity, by which a reply refers to its request: the name of the operation,
or else its kind and operation with the index of its statement. Data that comes in goes into a
store, data that goes out is a value.
-/

namespace Workflow.Lower

def messagingId (id : StmtId) (op : ServiceOperation) : String :=
  match op.name with
  | some name => sanitize name
  | none => s!"{sanitize op.displayName}_{id}"

def contentValue (c : LowerContext) (kind : ServiceKind) (f : Fragment) :
    Lower ArgumentValue := do
  if !kind.isInbound then return .value (← restricted c f none .messageContent)
  match c.namedStore? f.expr with
  | some store => return .location (← location c store)
  | none =>
    report (.invalidValue kind.title "received content must name a workflow variable") f.span
    return .value { expr := .null }

def content (c : LowerContext) (kind : ServiceKind) : Content → Lower MessageContent
  | .message f => return .message (← contentValue c kind f)
  | .parameters params => do
    let params ← params.mapM fun p => return (p.name, ← contentValue c kind p.value)
    return .parameters params

def optionalContent (c : LowerContext) (kind : ServiceKind) :
    Option Content → Lower (Option MessageContent)
  | none => return none
  | some m => some <$> content c kind m

def initializers (c : LowerContext) (op : ServiceOperation) : Lower (List Location) := do
  match op.correlationStore.bind fun id => c.activity.stores[id]? with
  | none => return []
  | some store => return [← location c store]

def messagingKind : ServiceKind → MessagingNode → NodeKind
  | .receive, op => .receive op
  | .send, op => .send op
  | .sendReply, op => .sendReply op
  | .receiveReply, op => .receiveReply op

def messaging (c : LowerContext) (id : StmtId) (op : ServiceOperation) : Lower Node := do
  let request := op.request.bind fun r => (c.activity.service? r).map (messagingId r)
  let content ← optionalContent c op.kind op.content
  let initializers ← initializers c op
  let endpoint ← if op.kind == .send then optionalRestricted c op.endpoint none .endpoint
    else pure none
  let correlatesWith ←
    optionalRestricted c op.correlatesWith (some correlationHandleType) .correlation
  let node : MessagingNode :=
    { id := messagingId id op
      contract := op.contract
      operation := op.operation
      request := request
      content := content
      correlatesWith := correlatesWith
      correlationInitializers := initializers
      canCreateInstance := op.canCreateInstance
      endpoint := endpoint }
  return (Node.ofKind (messagingKind op.kind node)).named op.displayName

end Workflow.Lower
