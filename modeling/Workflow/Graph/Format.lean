import Workflow.Code.Format
import Workflow.Graph.Node

/-!
# The JSON format of node graphs

The kind of a node is tagged by `node`, a flowchart node by `flowNode`, the binding of an argument
by `binding` and the content of a message by `content`. The nodes and values that a kind of node may
do without are written as `null`; in the records inside it absent parts are left out.
-/

namespace Workflow

open Json ValueExpr

namespace VariableDecl

def toJson (v : VariableDecl) : Json :=
  .obj ([("name", .str v.name), ("ty", v.ty.toJson)] ++
    fieldOpt "default" Expr.toJson v.default)

def ofJsonAt? (place : Place) (j : Json) : Option VariableDecl := do
  let r ← Record.ofJson? ["name", "ty", "default"] j
  return {
    name := (← r.required "name" str?), ty := (← r.required "ty" TypeName.ofJson?)
    default := (← r.omissible "default" (Expr.ofJsonAt? place)) }

def ofJson? (j : Json) : Option VariableDecl := ofJsonAt? .outside j

def listField (vars : List VariableDecl) : List (String × Json) :=
  fieldList "variables" toJson vars

end VariableDecl

namespace ValueExpr

def fields (v : ValueExpr) : List (String × Json) :=
  fieldOpt "ty" TypeName.toJson v.ty ++ [("expr", v.expr.toJson)]

def toJson (v : ValueExpr) : Json := .obj v.fields

def names : List String := ["ty", "expr"]

def ofRecord? (r : Record) : Option ValueExpr := do
  return {
    ty := (← r.omissible "ty" TypeName.ofJson?)
    expr := (← r.required "expr" (Expr.ofJsonAt? .inside)) }

def ofJson? (j : Json) : Option ValueExpr := do ofRecord? (← Record.ofJson? names j)

end ValueExpr

namespace Location

def fields (l : Location) : List (String × Json) :=
  fieldOpt "ty" TypeName.toJson l.ty ++ [("handle", l.handle.toJson)]

def toJson (l : Location) : Json := .obj l.fields

def names : List String := ["ty", "handle"]

def ofRecord? (r : Record) : Option Location := do
  return {
    ty := (← r.omissible "ty" TypeName.ofJson?)
    handle := (← r.required "handle" (Expr.ofJsonAt? .inside)) }

def ofJson? (j : Json) : Option Location := do ofRecord? (← Record.ofJson? names j)

end Location

namespace ArgumentValue

def toJson : ArgumentValue → Json
  | .value v => .obj (("binding", .str "value") :: v.fields)
  | .location l => .obj (("binding", .str "location") :: l.fields)

def tags : List String := ["value", "location"]

def ofJson? (j : Json) : Option ArgumentValue := do
  let v ← Variant.ofJson? .inside "binding" tags j
  match v.tag with
  | "value" => (ofRecord? (← v.record? names)).map .value
  | "location" => (Location.ofRecord? (← v.record? Location.names)).map .location
  | _ => none

end ArgumentValue

namespace NodeArgument

def toJson (a : NodeArgument) : Json :=
  .obj [("name", .str a.name), ("direction", a.direction.toJson), ("value", a.value.toJson)]

def ofJson? (j : Json) : Option NodeArgument := do
  let r ← Record.ofJson? ["name", "direction", "value"] j
  return {
    name := (← r.required "name" str?)
    direction := (← r.required "direction" (Direction.ofJsonAt? .inside))
    value := (← r.required "value" ArgumentValue.ofJson?) }

end NodeArgument

namespace FlowSwitchCase

def toJson (c : FlowSwitchCase) : Json :=
  .obj [("key", c.key.toJson), ("target", .nat c.target)]

def ofJson? (j : Json) : Option FlowSwitchCase := do
  let r ← Record.ofJson? ["key", "target"] j
  return {
    key := (← r.required "key" ValueExpr.ofJson?), target := (← r.required "target" (word? 64)) }

end FlowSwitchCase

namespace MessageContent

def paramToJson (p : String × ArgumentValue) : Json := .arr [.str p.1, p.2.toJson]

def toJson : MessageContent → Json
  | .message value => .obj [("content", .str "message"), ("value", value.toJson)]
  | .parameters params =>
    .obj [("content", .str "parameters"), ("parameters", .arr (params.map paramToJson))]

def tags : List String := ["message", "parameters"]

def ofJson? (j : Json) : Option MessageContent := do
  let v ← Variant.ofJson? .inside "content" tags j
  match v.tag with
  | "message" =>
    let r ← v.record? ["value"]
    return .message (← r.required "value" ArgumentValue.ofJson?)
  | "parameters" =>
    let r ← v.record? ["parameters"]
    return .parameters (← r.required "parameters" (list? (pair? str? ArgumentValue.ofJson?)))
  | _ => none

end MessageContent

namespace MessagingNode

def fields (m : MessagingNode) : List (String × Json) :=
  [("id", .str m.id)] ++ fieldOpt "contract" TypeName.toJson m.contract ++
    fieldOpt "operation" str m.operation ++
    fieldOpt "request" str m.request ++
    fieldOpt "content" MessageContent.toJson m.content ++
    fieldOpt "correlatesWith" toJson m.correlatesWith ++
    fieldList "correlationInitializers" Location.toJson m.correlationInitializers ++
    [("canCreateInstance", .bool m.canCreateInstance)] ++
    fieldOpt "endpoint" toJson m.endpoint

def ofVariant? (v : Variant) : Option MessagingNode := do
  let r ← v.record? ["id", "contract", "operation", "request", "content", "correlatesWith",
    "correlationInitializers", "canCreateInstance", "endpoint"]
  return {
    id := (← r.required "id" str?), contract := (← r.omissible "contract" TypeName.ofJson?)
    operation := (← r.omissible "operation" str?), request := (← r.omissible "request" str?)
    content := (← r.omissible "content" MessageContent.ofJson?)
    correlatesWith := (← r.omissible "correlatesWith" ofJson?)
    correlationInitializers := (← r.defaulted "correlationInitializers" [] (list? Location.ofJson?))
    canCreateInstance := (← r.defaulted "canCreateInstance" false bool?)
    endpoint := (← r.omissible "endpoint" ofJson?) }

end MessagingNode

def ValueExpr.namedToJson (p : String × ValueExpr) : Json := .arr [.str p.1, p.2.toJson]

def ValueExpr.optionToJson (v : Option ValueExpr) : Json := orNull toJson v

mutual
def Node.toJson : Node → Json
  | .mk displayName kind =>
    .obj (fieldOpt "displayName" str displayName ++ [("kind", kind.toJson)])

def NodeKind.toJson : NodeKind → Json
  | .sequence vars activities =>
    .obj ([("node", .str "sequence")] ++ VariableDecl.listField vars ++
      [("activities", .arr (Node.toJsonList activities))])
  | .conditional condition yes no =>
    .obj [("node", .str "if"), ("condition", condition.toJson), ("then", Node.optionToJson yes),
      ("otherwise", Node.optionToJson no)]
  | .loop condition body testAfter =>
    .obj [("node", .str "while"), ("condition", condition.toJson),
      ("body", Node.optionToJson body), ("do_while", .bool testAfter)]
  | .switch value cases fallback =>
    .obj [("node", .str "switch"), ("value", value.toJson),
      ("cases", .arr (CaseNode.toJsonList cases)), ("default", Node.optionToJson fallback)]
  | .raise exception => .obj [("node", .str "throw"), ("exception", exception.toJson)]
  | .reraise => .obj [("node", .str "rethrow")]
  | .guarded body handlers final =>
    .obj [("node", .str "tryCatch"), ("body", Node.optionToJson body),
      ("catches", .arr (CatchNode.toJsonList handlers)), ("finally", Node.optionToJson final)]
  | .forEach itemType itemArgument values body parallel completion =>
    .obj [("node", .str "forEach"), ("item_type", itemType.toJson),
      ("item_argument", .str itemArgument), ("values", values.toJson),
      ("body", Node.optionToJson body), ("parallel", .bool parallel),
      ("completion", optionToJson completion)]
  | .delay duration => .obj [("node", .str "delay"), ("duration", duration.toJson)]
  | .parallel branches completion =>
    .obj [("node", .str "parallel"), ("branches", .arr (Node.toJsonList branches)),
      ("completion", optionToJson completion)]
  | .pick branches =>
    .obj [("node", .str "pick"), ("branches", .arr (PickBranchNode.toJsonList branches))]
  | .stateMachine vars states initial =>
    .obj ([("node", .str "stateMachine")] ++ VariableDecl.listField vars ++
      [("states", .arr (StateNode.toJsonList states)), ("initial_state", .nat initial)])
  | .flowchart vars nodes start =>
    .obj ([("node", .str "flowchart")] ++ VariableDecl.listField vars ++
      [("nodes", .arr (FlowNode.toJsonList nodes)), ("start", orNull nat start)])
  | .transaction body timeout =>
    .obj [("node", .str "transactionScope"), ("body", Node.optionToJson body),
      ("timeout", optionToJson timeout)]
  | .cancellable body onCancel =>
    .obj [("node", .str "cancellationScope"), ("body", Node.optionToJson body),
      ("handler", Node.optionToJson onCancel)]
  | .compensable token body compensation confirmation cancellation =>
    .obj [("node", .str "compensable"), ("token", orNull Location.toJson token),
      ("body", Node.optionToJson body), ("compensation", Node.optionToJson compensation),
      ("confirmation", Node.optionToJson confirmation),
      ("cancellation", Node.optionToJson cancellation)]
  | .confirm target => .obj [("node", .str "confirm"), ("target", optionToJson target)]
  | .compensate target =>
    .obj [("node", .str "compensate"), ("target", optionToJson target)]
  | .persist => .obj [("node", .str "persist")]
  | .noPersist body => .obj [("node", .str "noPersistScope"), ("body", Node.optionToJson body)]
  | .terminate reason exception =>
    .obj [("node", .str "terminate"), ("reason", optionToJson reason),
      ("exception", optionToJson exception)]
  | .receive op => .obj (("node", .str "receive") :: op.fields)
  | .send op => .obj (("node", .str "send") :: op.fields)
  | .sendReply op => .obj (("node", .str "sendReply") :: op.fields)
  | .receiveReply op => .obj (("node", .str "receiveReply") :: op.fields)
  | .initializeCorrelation handle data =>
    .obj [("node", .str "initializeCorrelation"), ("handle", handle.toJson),
      ("data", .arr (data.map namedToJson))]
  | .transactedReceive vars request body =>
    .obj ([("node", .str "transactedReceiveScope")] ++ VariableDecl.listField vars ++
      [("request", request.toJson), ("body", Node.optionToJson body)])
  | .invoke nodeType arguments result =>
    .obj [("node", .str "invoke"), ("node_type", .str nodeType),
      ("arguments", .arr (arguments.map NodeArgument.toJson)),
      ("result", orNull Location.toJson result)]
  | .code body => .obj [("node", .str "code"), ("body", .arr (CodeStmt.toJsonList body))]

def Node.toJsonList : List Node → List Json
  | [] => []
  | n :: rest => n.toJson :: Node.toJsonList rest

def Node.optionToJson : Option Node → Json
  | none => .null
  | some n => n.toJson

def Node.toJsonField (name : String) : Option Node → List (String × Json)
  | none => []
  | some n => [(name, n.toJson)]

def CaseNode.toJsonList : List CaseNode → List Json
  | [] => []
  | .mk key body :: rest =>
    .obj ([("key", key.toJson)] ++ Node.toJsonField "body" body) :: CaseNode.toJsonList rest

def CatchNode.toJsonList : List CatchNode → List Json
  | [] => []
  | .mk exceptionType argument body :: rest =>
    .obj ([("exceptionType", exceptionType.toJson)] ++
      fieldOpt "argument" str argument ++ Node.toJsonField "body" body) ::
      CatchNode.toJsonList rest

def PickBranchNode.toJsonList : List PickBranchNode → List Json
  | [] => []
  | .mk vars trigger action :: rest =>
    .obj (VariableDecl.listField vars ++ Node.toJsonField "trigger" trigger ++
      Node.toJsonField "action" action) :: PickBranchNode.toJsonList rest

def TransitionNode.toJsonList : List TransitionNode → List Json
  | [] => []
  | .mk trigger condition action target :: rest =>
    .obj (fieldOpt "trigger" nat trigger ++
      fieldOpt "condition" toJson condition ++ Node.toJsonField "action" action ++
      [("to", .nat target)]) :: TransitionNode.toJsonList rest

def StateNode.toJsonList : List StateNode → List Json
  | [] => []
  | .mk name isFinal entry exit triggers transitions :: rest =>
    .obj ([("name", .str name), ("isFinal", .bool isFinal)] ++ Node.toJsonField "entry" entry ++
      Node.toJsonField "exit" exit ++
      (if triggers.isEmpty then [] else [("triggers", .arr (Node.toJsonList triggers))]) ++
      (if transitions.isEmpty then []
        else [("transitions", .arr (TransitionNode.toJsonList transitions))])) ::
      StateNode.toJsonList rest

def FlowNode.toJsonList : List FlowNode → List Json
  | [] => []
  | .step name action next :: rest =>
    .obj ([("flowNode", .str "step")] ++ fieldOpt "name" str name ++
      Node.toJsonField "action" action ++ fieldOpt "next" nat next) ::
      FlowNode.toJsonList rest
  | .decision name condition onTrue onFalse :: rest =>
    .obj ([("flowNode", .str "decision")] ++ fieldOpt "name" str name ++
      [("condition", condition.toJson)] ++ fieldOpt "on_true" nat onTrue ++
      fieldOpt "on_false" nat onFalse) :: FlowNode.toJsonList rest
  | .switch name value cases fallback :: rest =>
    .obj ([("flowNode", .str "switch")] ++ fieldOpt "name" str name ++
      [("value", value.toJson), ("cases", .arr (cases.map FlowSwitchCase.toJson))] ++
      fieldOpt "default" nat fallback) :: FlowNode.toJsonList rest
end

def VariableDecl.read? (r : Record) : Option (List VariableDecl) :=
  r.defaulted "variables" [] (list? (VariableDecl.ofJsonAt? .inside))

def CaseNode.read? (node : Json → Option Node) (j : Json) : Option CaseNode := do
  let r ← Record.ofJson? ["key", "body"] j
  return .mk (← r.required "key" ofJson?) (← r.omissible "body" node)

def CatchNode.read? (node : Json → Option Node) (j : Json) : Option CatchNode := do
  let r ← Record.ofJson? ["exceptionType", "argument", "body"] j
  return .mk (← r.required "exceptionType" TypeName.ofJson?) (← r.omissible "argument" str?)
    (← r.omissible "body" node)

def PickBranchNode.read? (node : Json → Option Node) (j : Json) : Option PickBranchNode := do
  let r ← Record.ofJson? ["variables", "trigger", "action"] j
  return .mk (← VariableDecl.read? r) (← r.omissible "trigger" node) (← r.omissible "action" node)

def TransitionNode.read? (node : Json → Option Node) (j : Json) : Option TransitionNode := do
  let r ← Record.ofJson? ["trigger", "condition", "action", "to"] j
  return .mk (← r.omissible "trigger" (word? 64)) (← r.omissible "condition" ofJson?)
    (← r.omissible "action" node) (← r.required "to" (word? 64))

def StateNode.read? (node : Json → Option Node) (j : Json) : Option StateNode := do
  let r ← Record.ofJson? ["name", "isFinal", "entry", "exit", "triggers", "transitions"] j
  return .mk (← r.required "name" str?) (← r.required "isFinal" bool?) (← r.omissible "entry" node)
    (← r.omissible "exit" node) (← r.defaulted "triggers" [] (list? node))
    (← r.defaulted "transitions" [] (list? (TransitionNode.read? node)))

def FlowNode.tags : List String := ["step", "decision", "switch"]

def FlowNode.read? (node : Json → Option Node) (j : Json) : Option FlowNode := do
  let v ← Variant.ofJson? .inside "flowNode" FlowNode.tags j
  match v.tag with
  | "step" =>
    let r ← v.record? ["name", "action", "next"]
    return .step (← r.omissible "name" str?) (← r.omissible "action" node)
      (← r.omissible "next" (word? 64))
  | "decision" =>
    let r ← v.record? ["name", "condition", "on_true", "on_false"]
    return .decision (← r.omissible "name" str?) (← r.required "condition" ofJson?)
      (← r.omissible "on_true" (word? 64)) (← r.omissible "on_false" (word? 64))
  | "switch" =>
    let r ← v.record? ["name", "value", "cases", "default"]
    return .switch (← r.omissible "name" str?) (← r.required "value" ofJson?)
      (← r.required "cases" (list? FlowSwitchCase.ofJson?)) (← r.omissible "default" (word? 64))
  | _ => none

def NodeKind.tags : List String :=
  ["sequence", "if", "while", "switch", "throw", "rethrow", "tryCatch", "forEach", "delay",
    "parallel", "pick", "stateMachine", "flowchart", "transactionScope", "cancellationScope",
    "compensable", "confirm", "compensate", "persist", "noPersistScope", "terminate", "receive",
    "send", "sendReply", "receiveReply", "initializeCorrelation", "transactedReceiveScope",
    "invoke", "code"]

/-- Reads a kind of node at a place, with the nodes inside it by the given reader. -/
def NodeKind.read? (place : Place) (node : Json → Option Node) (j : Json) :
    Option NodeKind := do
  let v ← Variant.ofJson? place "node" NodeKind.tags j
  match v.tag with
  | "sequence" =>
    let r ← v.record? ["variables", "activities"]
    return .sequence (← VariableDecl.read? r) (← r.required "activities" (list? node))
  | "if" =>
    let r ← v.record? ["condition", "then", "otherwise"]
    return .conditional (← r.required "condition" ofJson?) (← r.optional "then" node)
      (← r.optional "otherwise" node)
  | "while" =>
    let r ← v.record? ["condition", "body", "do_while"]
    return .loop (← r.required "condition" ofJson?) (← r.optional "body" node)
      (← r.required "do_while" bool?)
  | "switch" =>
    let r ← v.record? ["value", "cases", "default"]
    return .switch (← r.required "value" ofJson?)
      (← r.required "cases" (list? (CaseNode.read? node))) (← r.optional "default" node)
  | "throw" =>
    let r ← v.record? ["exception"]
    return .raise (← r.required "exception" ofJson?)
  | "rethrow" =>
    let _ ← v.record? []
    some .reraise
  | "tryCatch" =>
    let r ← v.record? ["body", "catches", "finally"]
    return .guarded (← r.optional "body" node)
      (← r.required "catches" (list? (CatchNode.read? node))) (← r.optional "finally" node)
  | "forEach" =>
    let r ← v.record? ["item_type", "item_argument", "values", "body", "parallel", "completion"]
    return .forEach (← r.required "item_type" TypeName.ofJson?) (← r.required "item_argument" str?)
      (← r.required "values" ofJson?) (← r.optional "body" node) (← r.required "parallel" bool?)
      (← r.optional "completion" ofJson?)
  | "delay" =>
    let r ← v.record? ["duration"]
    return .delay (← r.required "duration" ofJson?)
  | "parallel" =>
    let r ← v.record? ["branches", "completion"]
    return .parallel (← r.required "branches" (list? node)) (← r.optional "completion" ofJson?)
  | "pick" =>
    let r ← v.record? ["branches"]
    return .pick (← r.required "branches" (list? (PickBranchNode.read? node)))
  | "stateMachine" =>
    let r ← v.record? ["variables", "states", "initial_state"]
    return .stateMachine (← VariableDecl.read? r)
      (← r.required "states" (list? (StateNode.read? node)))
      (← r.required "initial_state" (word? 64))
  | "flowchart" =>
    let r ← v.record? ["variables", "nodes", "start"]
    return .flowchart (← VariableDecl.read? r) (← r.required "nodes" (list? (FlowNode.read? node)))
      (← r.optional "start" (word? 64))
  | "transactionScope" =>
    let r ← v.record? ["body", "timeout"]
    return .transaction (← r.optional "body" node) (← r.optional "timeout" ofJson?)
  | "cancellationScope" =>
    let r ← v.record? ["body", "handler"]
    return .cancellable (← r.optional "body" node) (← r.optional "handler" node)
  | "compensable" =>
    let r ← v.record? ["token", "body", "compensation", "confirmation", "cancellation"]
    return .compensable (← r.optional "token" Location.ofJson?) (← r.optional "body" node)
      (← r.optional "compensation" node) (← r.optional "confirmation" node)
      (← r.optional "cancellation" node)
  | "confirm" =>
    let r ← v.record? ["target"]
    return .confirm (← r.optional "target" ofJson?)
  | "compensate" =>
    let r ← v.record? ["target"]
    return .compensate (← r.optional "target" ofJson?)
  | "persist" =>
    let _ ← v.record? []
    some .persist
  | "noPersistScope" =>
    let r ← v.record? ["body"]
    return .noPersist (← r.optional "body" node)
  | "terminate" =>
    let r ← v.record? ["reason", "exception"]
    return .terminate (← r.optional "reason" ofJson?) (← r.optional "exception" ofJson?)
  | "receive" => (MessagingNode.ofVariant? v).map .receive
  | "send" => (MessagingNode.ofVariant? v).map .send
  | "sendReply" => (MessagingNode.ofVariant? v).map .sendReply
  | "receiveReply" => (MessagingNode.ofVariant? v).map .receiveReply
  | "initializeCorrelation" =>
    let r ← v.record? ["handle", "data"]
    return .initializeCorrelation (← r.required "handle" ofJson?)
      (← r.required "data" (list? (pair? str? ofJson?)))
  | "transactedReceiveScope" =>
    let r ← v.record? ["variables", "request", "body"]
    return .transactedReceive (← VariableDecl.read? r) (← r.required "request" node)
      (← r.optional "body" node)
  | "invoke" =>
    let r ← v.record? ["node_type", "arguments", "result"]
    return .invoke (← r.required "node_type" str?)
      (← r.required "arguments" (list? NodeArgument.ofJson?))
      (← r.optional "result" Location.ofJson?)
  | "code" =>
    let r ← v.record? ["body"]
    return .code (← r.required "body" (list? (CodeStmt.ofJsonAt? .inside)))
  | _ => none

def Node.read? : Nat → Place → Json → Option Node
  | 0, _, _ => none
  | n + 1, place, j => do
    let r ← Record.ofJson? ["displayName", "kind"] j
    return .mk (← r.omissible "displayName" str?)
      (← r.required "kind" (NodeKind.read? place (Node.read? n .inside)))

def Node.ofJson? (j : Json) : Option Node := Node.read? (j.depth + 1) .outside j

def ArgumentDecl.toJson (a : ArgumentDecl) : Json :=
  .obj [("name", .str a.name), ("ty", a.ty.toJson), ("direction", a.direction.toJson)]

def NodeGraph.toJson (g : NodeGraph) : Json :=
  .obj ([("name", .str g.name)] ++ fieldOpt "namespace" str g.ns ++
    [("arguments", .arr (g.arguments.map ArgumentDecl.toJson)), ("body", g.body.toJson)])

end Workflow
