import Workflow.Activity.Build.Control

/-!
# Building activities: state machines and flowcharts

States and flowchart nodes are named within their graph, and a name may be used once. Jumps are kept
as references by name.
-/

namespace Workflow.Build

def missingTarget {α : Type} (unit : Nat) (node : ParseNode) : Build α :=
  fail (.missingMember node.label "target") (node.span.inUnit unit)

def requiredTarget (unit : Nat) (node : ParseNode) : Build NodeRef := do
  match ← nodeRef unit node "target" with
  | some target => return target
  | none => missingTarget unit node

def transitionBody (unit : Nat) (build : Inner) (transitionId : StmtId) (node : ParseNode) :
    Build StmtId := do
  let id ← alloc .transitionBody (some transitionId) (node.span.inUnit unit)
  let condition ← optionalFragment unit node "condition"
  let action ← optionalStmt unit build node "action" id
  let target ← requiredTarget unit node
  setKind id (.transitionBody condition action target)
  return id

def transitionItem (unit : Nat) (build : Inner) (transitionId : StmtId) (node : ParseNode) :
    Build StmtId := do
  if node.label != "transition-body" then
    invalid unit node "transition items must be transition bodies"
  transitionBody unit build transitionId node

/-- The ways out of a state that share a trigger. A transition with a target of its own stands for
a single one, before those it lists. -/
def transition (unit : Nat) (build : Inner) (stateId : StmtId) (node : ParseNode) :
    Build StmtId := do
  if node.label != "transition" then
    invalid unit node "state items must be transitions"
  let id ← alloc .transition (some stateId) (node.span.inUnit unit)
  let trigger ← optionalStmt unit build node "trigger" id
  let own ← if (node.member "target").isSome then
      List.singleton <$> transitionBody unit build id node
    else pure []
  let listed ← node.items.mapM (transitionItem unit build id)
  let bodies := own ++ listed
  if bodies.isEmpty then
    missingTarget unit node
  setKind id (.transition trigger bodies)
  return id

/-- Whether a node is a final state; other nodes than states are refused. -/
def stateIsFinal (unit : Nat) (node : ParseNode) : Build Bool :=
  if node.label == "state" then pure false
  else if node.label == "final-state" then pure true
  else invalid unit node "state machine items must be states"

def state (unit : Nat) (build : Inner) (machine : StmtId) (node : ParseNode) (name : String)
    (isFinal : Bool) : Build StmtId := do
  let id ← alloc .state (some machine) (node.span.inUnit unit)
  let entry ← optionalStmt unit build node "entry" id
  let exit ← optionalStmt unit build node "exit" id
  let transitions ← node.items.mapM (transition unit build id)
  setKind id (.state name isFinal entry exit transitions)
  return id

def states (unit : Nat) (build : Inner) (machine : StmtId) :
    List String → List ParseNode → Build (List StmtId)
  | _, [] => return []
  | seen, node :: rest => do
    let isFinal ← stateIsFinal unit node
    let name ← check node.requireText
    let span := node.span.inUnit unit
    if seen.contains name then
      fail (.duplicateNodeName name) span
    if isFinal && (!node.items.isEmpty || (node.member "exit").isSome) then
      fail (.finalStateHasTransitions name) span
    let id ← state unit build machine node name isFinal
    return id :: (← states unit build machine (name :: seen) rest)

def stateMachine (unit : Nat) (build : Inner) (node : ParseNode) (id : StmtId) :
    Build StmtKind := do
  hostVariables unit node id
  let start ← nodeRef unit node "start"
  let states ← states unit build id [] node.items
  return .stateMachine states start none

def flowStep (unit : Nat) (build : Inner) (flowId : StmtId) (node : ParseNode) :
    Build StmtId := do
  let id ← alloc .flowStep (some flowId) (node.span.inUnit unit)
  let action ← requiredStmt unit build node "action" id
  let next ← nodeRef unit node "next"
  setKind id (.flowStep node.text action next none)
  return id

def flowIf (unit : Nat) (flowId : StmtId) (node : ParseNode) : Build StmtId := do
  let id ← alloc .flowIf (some flowId) (node.span.inUnit unit)
  let condition ← fragment unit node "condition"
  let onTrue ← nodeRef unit node "true"
  let onFalse ← nodeRef unit node "false"
  setKind id (.flowIf node.text condition onTrue onFalse)
  return id

def flowCase (unit : Nat) (node : ParseNode) : Build FlowCase := do
  let target ← requiredTarget unit node
  let key ← fragment unit node "key"
  return { key := key, target := target }

def flowSwitch (unit : Nat) (flowId : StmtId) (node : ParseNode) : Build StmtId := do
  let id ← alloc .flowSwitch (some flowId) (node.span.inUnit unit)
  let value ← fragment unit node "value"
  let cases ← node.items.mapM (flowCase unit)
  let fallback ← nodeRef unit node "default"
  setKind id (.flowSwitch node.text value cases fallback)
  return id

def flowNode (unit : Nat) (build : Inner) (flowId : StmtId) (node : ParseNode) : Build StmtId :=
  match node.label with
  | "flow-step" => flowStep unit build flowId node
  | "flow-if" => flowIf unit flowId node
  | "flow-switch" => flowSwitch unit flowId node
  | _ => invalid unit node "flow items must be flow nodes"

/-- Refuses a name that was seen before, and gives the names seen up to here. -/
def newName (unit : Nat) (seen : List String) (node : ParseNode) : Build (List String) :=
  match node.text with
  | none => pure seen
  | some name =>
    if seen.contains name then fail (.duplicateNodeName name) (node.span.inUnit unit)
    else pure (name :: seen)

def flowNodes (unit : Nat) (build : Inner) (flowId : StmtId) :
    List String → List ParseNode → Build (List StmtId)
  | _, [] => return []
  | seen, node :: rest => do
    let seen ← newName unit seen node
    let id ← flowNode unit build flowId node
    return id :: (← flowNodes unit build flowId seen rest)

def flow (unit : Nat) (build : Inner) (node : ParseNode) (id : StmtId) : Build StmtKind := do
  hostVariables unit node id
  return .flow (← flowNodes unit build id [] node.items) none

end Workflow.Build
