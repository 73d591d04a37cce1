import Workflow.Activity.Resolve.Monad

/-!
# Resolving jumps

The jumps of a flowchart go to its own nodes, and the transitions of a state machine go to its own
states. A step of a flowchart without a jump goes on to the node after it. A machine starts in the
state that it names, or in its first state that is not final; it needs a final state, and no two
ways out of a state may be open at once without any condition.
-/

namespace Workflow.Resolve

def named (a : Activity) (nodes : List StmtId) (name : String) : Option StmtId :=
  nodes.find? fun id => (a.kind id).nodeName == some name

def target (names : String → Option StmtId) (r : NodeRef) : Resolve NodeRef := do
  match names r.name with
  | some id => return { r with resolved := some id }
  | none =>
    report (.unresolvedReference r.name) r.span
    return r

def optionalTarget (names : String → Option StmtId) : Option NodeRef → Resolve (Option NodeRef)
  | none => return none
  | some r => some <$> target names r

/-- Resolves the jumps of a flowchart node; `next` is the node after it. -/
def flowNode (names : String → Option StmtId) (next : Option StmtId) : StmtKind → Resolve StmtKind
  | .flowStep name action none _ => return .flowStep name action none next
  | .flowStep name action (some r) _ => do
    let r ← target names r
    return .flowStep name action (some r) r.resolved
  | .flowIf name condition onTrue onFalse => do
    let onTrue ← optionalTarget names onTrue
    let onFalse ← optionalTarget names onFalse
    return .flowIf name condition onTrue onFalse
  | .flowSwitch name value cases fallback => do
    let cases ← cases.mapM fun c => return { c with target := ← target names c.target }
    let fallback ← optionalTarget names fallback
    return .flowSwitch name value cases fallback
  | kind => return kind

def flowNodes (names : String → Option StmtId) : List StmtId → Resolve Unit
  | [] => return ()
  | id :: rest => do
    let kind ← flowNode names rest.head? ((← activity).kind id)
    setKind id kind
    flowNodes names rest

/-- Resolves a flowchart. It starts at its first node. -/
def flow (id : StmtId) : Resolve Unit := do
  let a ← activity
  match a.kind id with
  | .flow nodes _ =>
    flowNodes (named a nodes) nodes
    setKind id (.flow nodes nodes.head?)
  | _ => return ()

def isFinalState (a : Activity) (id : StmtId) : Bool :=
  match a.kind id with
  | .state _ isFinal .. => isFinal
  | _ => false

def startState (machine : StmtId) (states : List StmtId) : Option NodeRef →
    Resolve (Option StmtId)
  | some r => do
    let a ← activity
    let r ← target (named a states) r
    if r.resolved.any (isFinalState a) then
      report (.startStateIsFinal r.name) r.span
    return r.resolved
  | none => do
    let a ← activity
    let first := states.find? fun s => !isFinalState a s
    if first.isNone then
      report .noStartState (a.stmtSpan machine)
    return first

/-- Reports bodies that would all fire at once without a condition. -/
def ambiguous (state : String) (bodies : List StmtId) : Resolve Unit := do
  if 2 ≤ bodies.length then
    bodies.forM fun body => do
      report (.transitionConditionRequired state) ((← activity).stmtSpan body)

/-- Resolves the target of a transition body, and gives the body back if it has no condition. -/
def transitionBody (names : String → Option StmtId) (id : StmtId) : Resolve (List StmtId) := do
  match (← activity).kind id with
  | .transitionBody condition action r =>
    let r ← target names r
    setKind id (.transitionBody condition action r)
    return if condition.isNone then [id] else []
  | _ => return []

/-- Resolves a transition, and gives back its bodies without condition if it has no trigger. -/
def transition (names : String → Option StmtId) (state : String) (id : StmtId) :
    Resolve (List StmtId) := do
  match (← activity).kind id with
  | .transition trigger bodies =>
    let unconditioned := (← bodies.mapM (transitionBody names)).flatten
    if trigger.isSome then
      ambiguous state unconditioned
      return []
    else return unconditioned
  | _ => return []

def state (names : String → Option StmtId) (id : StmtId) : Resolve Unit := do
  match (← activity).kind id with
  | .state name _ _ _ transitions =>
    let untriggered := (← transitions.mapM (transition names name)).flatten
    ambiguous name untriggered
  | _ => return ()

def stateMachine (id : StmtId) : Resolve Unit := do
  let a ← activity
  match a.kind id with
  | .stateMachine states start _ =>
    let first ← startState id states start
    if !states.any (isFinalState a) then
      report .missingFinalState (a.stmtSpan id)
    states.forM (state (named a states))
    setKind id (.stateMachine states start first)
  | _ => return ()

end Workflow.Resolve
