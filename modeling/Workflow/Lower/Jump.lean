import Workflow.Lower.Slot

/-!
# Lowering: state machines and flowcharts

The states of a machine and the nodes of a flowchart keep their order, and jumps become positions in
it. The triggers of a state are listed once, and its transitions refer to them by position.
-/

namespace Workflow.Lower

/-- The lowering of a statement of the activity; an empty one yields no node. -/
abbrev Inner := StmtId → Lower (Option Node)

def optional (lower : Inner) : Option StmtId → Lower (Option Node)
  | none => return none
  | some id => lower id

def position? (ids : List StmtId) (id : StmtId) : Option Nat := ids.findIdx? (· == id)

def target? (ids : List StmtId) (r : NodeRef) : Option Nat := r.resolved.bind (position? ids)

def transitionBody (c : LowerContext) (lower : Inner) (states : List StmtId)
    (trigger : Option Nat) (id : StmtId) : Lower (Option TransitionNode) := do
  match c.activity.kind id with
  | .transitionBody condition action r =>
    match target? states r with
    | none =>
      report (.internal s!"unresolved transition target '{r.name}'") r.span
      return none
    | some goal =>
      let condition ← optionalRestricted c condition (some .boolean) .transitionCondition
      let action ← optional lower action
      return some (.mk trigger condition action goal)
  | _ => return none

/-- Lowers the transitions of a state; `triggers` are those before. -/
def transitions (c : LowerContext) (lower : Inner) (states : List StmtId) :
    (triggers : List Node) → List StmtId → Lower (List Node × List TransitionNode)
  | triggers, [] => return (triggers, [])
  | triggers, id :: rest => do
    match c.activity.kind id with
    | .transition trigger bodies =>
      let node ← optional lower trigger
      let position := node.map fun _ => triggers.length
      let own ← bodies.filterMapM (transitionBody c lower states position)
      let (triggers, others) ← transitions c lower states (triggers ++ node.toList) rest
      return (triggers, own ++ others)
    | _ => transitions c lower states triggers rest

def state (c : LowerContext) (lower : Inner) (states : List StmtId) (id : StmtId) :
    Lower (Option StateNode) := do
  match c.activity.kind id with
  | .state name isFinal entry exit ts =>
    let entry ← optional lower entry
    let exit ← optional lower exit
    let (triggers, ts) ← transitions c lower states [] ts
    return some (.mk name isFinal entry exit triggers ts)
  | _ => return none

def stateMachine (c : LowerContext) (lower : Inner) (id : StmtId) (states : List StmtId)
    (start : Option StmtId) : Lower NodeKind := do
  let vars ← variablesOf c (c.activity.storesOf id)
  let lowered ← states.filterMapM (state c lower states)
  match start.bind (position? states) with
  | some initial => return .stateMachine vars lowered initial
  | none =>
    report (.internal "state machine start was not resolved") (c.activity.stmtSpan id)
    return .stateMachine vars lowered 0

/-- Lowers a case of a flowchart switch; one whose target is unknown is dropped. -/
def flowCase (c : LowerContext) (nodes : List StmtId) (ty : Option TypeName) (case : FlowCase) :
    Lower (Option FlowSwitchCase) := do
  let key ← restricted c case.key ty .flowSwitch
  return (target? nodes case.target).map fun goal => { key := key, target := goal }

def flowNode (c : LowerContext) (lower : Inner) (nodes : List StmtId) (id : StmtId) :
    Lower (Option FlowNode) := do
  match c.activity.kind id with
  | .flowStep name action _ next =>
    return some (.step name (← lower action) (next.bind (position? nodes)))
  | .flowIf name condition onTrue onFalse =>
    let condition ← restricted c condition (some .boolean) .flowDecision
    return some (.decision name condition (onTrue.bind (target? nodes))
      (onFalse.bind (target? nodes)))
  | .flowSwitch name value cases fallback =>
    let value ← restricted c value none .flowSwitch
    let cases ← cases.filterMapM (flowCase c nodes value.ty)
    return some (.switch name value cases (fallback.bind (target? nodes)))
  | _ => return none

def flowchart (c : LowerContext) (lower : Inner) (id : StmtId) (nodes : List StmtId)
    (start : Option StmtId) : Lower NodeKind := do
  let vars ← variablesOf c (c.activity.storesOf id)
  let lowered ← nodes.filterMapM (flowNode c lower nodes)
  return .flowchart vars lowered (start.bind (position? nodes))

end Workflow.Lower
