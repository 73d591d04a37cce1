import Workflow.Activity.Store

/-!
# Statements

The statements of an activity refer to each other, to stores and to embedded code. Embedded code is
held in fragments, each with a marker. A reference to a flowchart node or to a state is by name
until it is resolved.
-/

namespace Workflow

structure CodeFragment where
  marker : Marker
  span : Span
  body : List CodeStmt
deriving Inhabited

structure Fragment where
  marker : Marker
  span : Span
  expr : Expr
deriving Inhabited

/-- A reference by name to a flowchart node or a state. -/
structure NodeRef where
  name : String
  span : Span
  resolved : Option StmtId := none
deriving DecidableEq, Inhabited

structure SwitchCase where
  key : Fragment
  body : StmtId
deriving Inhabited

structure FlowCase where
  key : Fragment
  target : NodeRef
deriving Inhabited

structure ContentParameter where
  name : String
  value : Fragment
deriving Inhabited

/-- What a message carries: one value or named ones. -/
inductive Content where
  | message (value : Fragment)
  | parameters (params : List ContentParameter)
deriving Inhabited

def Content.fragments : Content → List Fragment
  | .message value => [value]
  | .parameters params => params.map (·.value)

inductive ServiceKind where
  | receive
  | send
  | sendReply
  | receiveReply
deriving DecidableEq, Repr, Inhabited

/-- The end of a conversation that an operation belongs to. -/
inductive Side where
  /-- The workflow serves: it receives a request and sends the reply. -/
  | service
  /-- The workflow asks: it sends a request and receives the reply. -/
  | client
deriving DecidableEq, Repr, Inhabited

namespace ServiceKind

def side : ServiceKind → Side
  | .receive | .sendReply => .service
  | .send | .receiveReply => .client

def isReply : ServiceKind → Bool
  | .sendReply | .receiveReply => true
  | _ => false

def isInbound : ServiceKind → Bool
  | .receive | .receiveReply => true
  | _ => false

def title : ServiceKind → String
  | .receive => "Receive"
  | .send => "Send"
  | .sendReply => "SendReply"
  | .receiveReply => "ReceiveReply"

end ServiceKind

structure ServiceOperation where
  kind : ServiceKind
  /-- The name by which other operations refer to this one. -/
  name : Option String
  /-- The contract; a reply takes that of its request. -/
  contract : Option TypeName
  operation : Option String
  content : Option Content
  /-- The correlation handle that the operation follows. -/
  correlatesWith : Option Fragment
  canCreateInstance : Bool
  endpoint : Option Fragment
  /-- Of a reply: the name of its request, if it gives one. -/
  requestName : Option String
  /-- Of a reply: its request, once resolved. -/
  request : Option StmtId := none
  /-- Of a request: the reply that claimed it. -/
  reply : Option StmtId := none
  /-- Of a claimed request: the store of its correlation handle. -/
  correlationStore : Option StoreId := none
deriving Inhabited

/-- How an operation is called in messages: by its name, else by its kind and operation. -/
def ServiceOperation.displayName (op : ServiceOperation) : String :=
  match op.name, op.operation with
  | some name, _ => name
  | none, some operation => s!"{op.kind.title} {operation}"
  | none, none => op.kind.title

/-- The kinds of statements, without their parts. -/
inductive StmtTag where
  | code
  | empty
  | sequence
  | conditional
  | loop
  | switch
  | raise
  | guarded
  | handler
  | forEach
  | delay
  | parallel
  | pick
  | pickBranch
  | stateMachine
  | state
  | transition
  | transitionBody
  | flow
  | flowStep
  | flowIf
  | flowSwitch
  | transacted
  | cancellable
  | compensable
  | confirm
  | compensate
  | persist
  | noPersist
  | terminate
  | service
  | contentCorrelation
  | transactedReceive
deriving DecidableEq, Repr, Inhabited

namespace StmtTag

def title : StmtTag → String
  | .code => "Code"
  | .empty => "Empty"
  | .sequence => "Sequence"
  | .conditional => "If"
  | .loop => "While"
  | .switch => "Switch"
  | .raise => "Throw"
  | .guarded => "Try"
  | .handler => "Catch"
  | .forEach => "ForEach"
  | .delay => "Delay"
  | .parallel => "Parallel"
  | .pick => "Pick"
  | .pickBranch => "PickBranch"
  | .stateMachine => "StateMachine"
  | .state => "State"
  | .transition => "Transition"
  | .transitionBody => "TransitionBody"
  | .flow => "Flow"
  | .flowStep => "FlowStep"
  | .flowIf => "FlowIf"
  | .flowSwitch => "FlowSwitch"
  | .transacted => "Transacted"
  | .cancellable => "Cancellable"
  | .compensable => "Compensable"
  | .confirm => "Confirm"
  | .compensate => "Compensate"
  | .persist => "Persist"
  | .noPersist => "NoPersist"
  | .terminate => "Terminate"
  | .service => "Service"
  | .contentCorrelation => "ContentCorrelation"
  | .transactedReceive => "TransactedReceive"

def isStoreHost : StmtTag → Bool
  | .sequence | .stateMachine | .flow | .pickBranch | .transactedReceive | .handler | .forEach =>
    true
  | _ => false

def isFlowNode : StmtTag → Bool
  | .flowStep | .flowIf | .flowSwitch => true
  | _ => false

end StmtTag

inductive StmtKind where
  /-- Embedded code. It may be chained to the code statement after it, with which it is lowered in
  one run, and it may declare a store together with its first value. -/
  | code (fragment : CodeFragment) (chained : Option StmtId) (initializes : Option StoreId)
  | empty
  | sequence (members : List StmtId)
  | conditional (condition : Fragment) (yes : StmtId) (no : Option StmtId)
  /-- A loop that tests its condition before each iteration, or after it. -/
  | loop (condition : Fragment) (body : StmtId) (testAfter : Bool)
  | switch (value : Fragment) (cases : List SwitchCase) (fallback : Option StmtId)
  /-- Throws an exception, or the caught one again. -/
  | raise (exception : Option Fragment)
  /-- A body with handlers for exceptions and a statement that runs in the end. -/
  | guarded (body : StmtId) (handlers : List StmtId) (final : Option StmtId)
  | handler (exceptionType : TypeName) (caught : Option StoreId) (body : StmtId)
  | forEach (item : StoreId) (values : Fragment) (body : StmtId) (parallel : Bool)
      (completion : Option Fragment)
  | delay (duration : Fragment)
  | parallel (branches : List StmtId) (completion : Option Fragment)
  | pick (branches : List StmtId)
  | pickBranch (trigger : StmtId) (action : Option StmtId)
  | stateMachine (states : List StmtId) (start : Option NodeRef) (resolvedStart : Option StmtId)
  | state (name : String) (isFinal : Bool) (entry exit : Option StmtId)
      (transitions : List StmtId)
  /-- Ways out of a state that share a trigger. -/
  | transition (trigger : Option StmtId) (bodies : List StmtId)
  | transitionBody (condition : Option Fragment) (action : Option StmtId) (target : NodeRef)
  | flow (nodes : List StmtId) (start : Option StmtId)
  | flowStep (name : Option String) (action : StmtId) (next : Option NodeRef)
      (resolvedNext : Option StmtId)
  | flowIf (name : Option String) (condition : Fragment) (onTrue onFalse : Option NodeRef)
  | flowSwitch (name : Option String) (value : Fragment) (cases : List FlowCase)
      (fallback : Option NodeRef)
  | transacted (body : StmtId) (timeout : Option Fragment)
  | cancellable (body : StmtId) (onCancel : Option StmtId)
  | compensable (body : StmtId) (token : Option StoreId)
      (compensation confirmation cancellation : Option StmtId)
  | confirm (target : Option Fragment)
  | compensate (target : Option Fragment)
  | persist
  | noPersist (body : StmtId)
  | terminate (reason exception : Option Fragment)
  | service (op : ServiceOperation)
  | contentCorrelation (handle : Fragment) (data : List ContentParameter)
  | transactedReceive (request body : StmtId)
deriving Inhabited

namespace StmtKind

def tag : StmtKind → StmtTag
  | .code .. => .code
  | .empty => .empty
  | .sequence .. => .sequence
  | .conditional .. => .conditional
  | .loop .. => .loop
  | .switch .. => .switch
  | .raise .. => .raise
  | .guarded .. => .guarded
  | .handler .. => .handler
  | .forEach .. => .forEach
  | .delay .. => .delay
  | .parallel .. => .parallel
  | .pick .. => .pick
  | .pickBranch .. => .pickBranch
  | .stateMachine .. => .stateMachine
  | .state .. => .state
  | .transition .. => .transition
  | .transitionBody .. => .transitionBody
  | .flow .. => .flow
  | .flowStep .. => .flowStep
  | .flowIf .. => .flowIf
  | .flowSwitch .. => .flowSwitch
  | .transacted .. => .transacted
  | .cancellable .. => .cancellable
  | .compensable .. => .compensable
  | .confirm .. => .confirm
  | .compensate .. => .compensate
  | .persist => .persist
  | .noPersist .. => .noPersist
  | .terminate .. => .terminate
  | .service .. => .service
  | .contentCorrelation .. => .contentCorrelation
  | .transactedReceive .. => .transactedReceive

def children : StmtKind → List StmtId
  | .sequence members => members
  | .conditional _ yes no => yes :: no.toList
  | .loop _ body _ => [body]
  | .switch _ cases fallback => cases.map (·.body) ++ fallback.toList
  | .guarded body handlers final => body :: handlers ++ final.toList
  | .handler _ _ body => [body]
  | .forEach _ _ body _ _ => [body]
  | .parallel branches _ => branches
  | .pick branches => branches
  | .pickBranch trigger action => trigger :: action.toList
  | .stateMachine states _ _ => states
  | .state _ _ entry exit transitions => entry.toList ++ exit.toList ++ transitions
  | .transition trigger bodies => trigger.toList ++ bodies
  | .transitionBody _ action _ => action.toList
  | .flow nodes _ => nodes
  | .flowStep _ action _ _ => [action]
  | .transacted body _ => [body]
  | .cancellable body onCancel => body :: onCancel.toList
  | .compensable body _ compensation confirmation cancellation =>
    body :: compensation.toList ++ confirmation.toList ++ cancellation.toList
  | .noPersist body => [body]
  | .transactedReceive request body => [request, body]
  | .code .. | .empty | .raise .. | .delay .. | .flowIf .. | .flowSwitch .. | .confirm ..
  | .compensate .. | .persist | .terminate .. | .service .. | .contentCorrelation .. => []

def nodeName : StmtKind → Option String
  | .state name .. => some name
  | .flowStep name .. => name
  | .flowIf name .. => name
  | .flowSwitch name .. => name
  | _ => none

end StmtKind

/-- A statement in the arena of its activity. The tag is known before the parts are. -/
structure Stmt where
  parent : Option StmtId
  span : Span
  tag : StmtTag
  kind : StmtKind := .empty
  stores : List StoreId := []
deriving Inhabited

end Workflow
