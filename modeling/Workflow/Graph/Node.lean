import Workflow.Code.Expr

/-!
# Node graphs

What an activity is compiled to: a tree of nodes that an engine schedules. A value slot of a node
holds an expression that the engine evaluates in the context of the running activity, and a location
slot holds the handle of a variable or an argument. The jumps of flowcharts and state machines are
positions in their lists of nodes and states.
-/

namespace Workflow

structure VariableDecl where
  name : String
  ty : TypeName
  /-- The first value, which is evaluated whenever the node starts. -/
  default : Option Expr := none
deriving Inhabited

/-- An expression that yields a value, with its type as far as it is known. -/
structure ValueExpr where
  ty : Option TypeName := none
  expr : Expr
deriving Inhabited

/-- A place that can be written, with its type as far as it is known. -/
structure Location where
  ty : Option TypeName := none
  handle : Expr
deriving Inhabited

def Location.name? (l : Location) : Option String := l.handle.asName

inductive ArgumentValue where
  | value (v : ValueExpr)
  | location (l : Location)
deriving Inhabited

structure NodeArgument where
  name : String
  direction : Direction
  value : ArgumentValue
deriving Inhabited

structure FlowSwitchCase where
  key : ValueExpr
  target : Nat
deriving Inhabited

inductive MessageContent where
  | message (value : ArgumentValue)
  | parameters (params : List (String × ArgumentValue))
deriving Inhabited

structure MessagingNode where
  id : String
  contract : Option TypeName := none
  operation : Option String := none
  /-- Of a reply: the identity of its request. -/
  request : Option String := none
  content : Option MessageContent := none
  correlatesWith : Option ValueExpr := none
  /-- The handles that are set up when the request is done. -/
  correlationInitializers : List Location := []
  canCreateInstance : Bool := false
  endpoint : Option ValueExpr := none
deriving Inhabited

mutual
/-- A node with the name that it is shown by. -/
inductive Node where
  | mk (displayName : Option String) (kind : NodeKind)

inductive NodeKind where
  | sequence (vars : List VariableDecl) (activities : List Node)
  | conditional (condition : ValueExpr) (yes no : Option Node)
  /-- A loop that tests its condition before each iteration, or after it. -/
  | loop (condition : ValueExpr) (body : Option Node) (testAfter : Bool)
  | switch (value : ValueExpr) (cases : List CaseNode) (fallback : Option Node)
  | raise (exception : ValueExpr)
  | reraise
  | guarded (body : Option Node) (handlers : List CatchNode) (final : Option Node)
  | forEach (itemType : TypeName) (itemArgument : String) (values : ValueExpr)
      (body : Option Node) (parallel : Bool) (completion : Option ValueExpr)
  | delay (duration : ValueExpr)
  | parallel (branches : List Node) (completion : Option ValueExpr)
  | pick (branches : List PickBranchNode)
  | stateMachine (vars : List VariableDecl) (states : List StateNode) (initial : Nat)
  | flowchart (vars : List VariableDecl) (nodes : List FlowNode) (start : Option Nat)
  | transaction (body : Option Node) (timeout : Option ValueExpr)
  | cancellable (body onCancel : Option Node)
  | compensable (token : Option Location)
      (body compensation confirmation cancellation : Option Node)
  | confirm (target : Option ValueExpr)
  | compensate (target : Option ValueExpr)
  | persist
  | noPersist (body : Option Node)
  | terminate (reason exception : Option ValueExpr)
  | receive (op : MessagingNode)
  | send (op : MessagingNode)
  | sendReply (op : MessagingNode)
  | receiveReply (op : MessagingNode)
  | initializeCorrelation (handle : ValueExpr) (data : List (String × ValueExpr))
  | transactedReceive (vars : List VariableDecl) (request : Node) (body : Option Node)
  | invoke (nodeType : String) (arguments : List NodeArgument) (result : Option Location)
  | code (body : List CodeStmt)

inductive CaseNode where
  | mk (key : ValueExpr) (body : Option Node)

/-- A handler for exceptions; the argument of its delegate gives access to the exception. -/
inductive CatchNode where
  | mk (exceptionType : TypeName) (argument : Option String) (body : Option Node)

inductive PickBranchNode where
  | mk (vars : List VariableDecl) (trigger action : Option Node)

/-- A way out of a state: the position of its trigger in the state, and of its target in the
machine. -/
inductive TransitionNode where
  | mk (trigger : Option Nat) (condition : Option ValueExpr) (action : Option Node) (target : Nat)

inductive StateNode where
  | mk (name : String) (isFinal : Bool) (entry exit : Option Node) (triggers : List Node)
      (transitions : List TransitionNode)

inductive FlowNode where
  | step (name : Option String) (action : Option Node) (next : Option Nat)
  | decision (name : Option String) (condition : ValueExpr) (onTrue onFalse : Option Nat)
  | switch (name : Option String) (value : ValueExpr) (cases : List FlowSwitchCase)
      (fallback : Option Nat)
end

instance : Inhabited Node := ⟨.mk none .persist⟩

structure ArgumentDecl where
  name : String
  ty : TypeName
  direction : Direction
deriving DecidableEq, Repr, Inhabited

structure NodeGraph where
  name : String
  ns : Option String := none
  arguments : List ArgumentDecl
  body : Node
deriving Inhabited

namespace NodeKind

def tag : NodeKind → String
  | .sequence .. => "sequence"
  | .conditional .. => "if"
  | .loop .. => "while"
  | .switch .. => "switch"
  | .raise .. => "throw"
  | .reraise => "rethrow"
  | .guarded .. => "tryCatch"
  | .forEach .. => "forEach"
  | .delay .. => "delay"
  | .parallel .. => "parallel"
  | .pick .. => "pick"
  | .stateMachine .. => "stateMachine"
  | .flowchart .. => "flowchart"
  | .transaction .. => "transactionScope"
  | .cancellable .. => "cancellationScope"
  | .compensable .. => "compensable"
  | .confirm .. => "confirm"
  | .compensate .. => "compensate"
  | .persist => "persist"
  | .noPersist .. => "noPersistScope"
  | .terminate .. => "terminate"
  | .receive .. => "receive"
  | .send .. => "send"
  | .sendReply .. => "sendReply"
  | .receiveReply .. => "receiveReply"
  | .initializeCorrelation .. => "initializeCorrelation"
  | .transactedReceive .. => "transactedReceiveScope"
  | .invoke .. => "invoke"
  | .code .. => "code"

end NodeKind

namespace Node

def displayName : Node → Option String
  | .mk name _ => name

def kind : Node → NodeKind
  | .mk _ kind => kind

def ofKind (kind : NodeKind) : Node := .mk none kind

def named (name : String) : Node → Node
  | .mk _ kind => .mk (some name) kind

def sequence (vars : List VariableDecl) (activities : List Node) : Node :=
  .ofKind (.sequence vars activities)

def code (body : List CodeStmt) : Node := .ofKind (.code body)

end Node

def CaseNode.children : CaseNode → List Node
  | .mk _ body => body.toList

def CatchNode.children : CatchNode → List Node
  | .mk _ _ body => body.toList

def PickBranchNode.children : PickBranchNode → List Node
  | .mk _ trigger action => trigger.toList ++ action.toList

def TransitionNode.children : TransitionNode → List Node
  | .mk _ _ action _ => action.toList

def StateNode.children : StateNode → List Node
  | .mk _ _ entry exit triggers transitions =>
    entry.toList ++ exit.toList ++ triggers ++ transitions.flatMap TransitionNode.children

def FlowNode.children : FlowNode → List Node
  | .step _ action _ => action.toList
  | _ => []

def NodeKind.children : NodeKind → List Node
  | .sequence _ activities => activities
  | .conditional _ yes no => yes.toList ++ no.toList
  | .loop _ body _ => body.toList
  | .forEach _ _ _ body _ _ => body.toList
  | .noPersist body => body.toList
  | .transaction body _ => body.toList
  | .switch _ cases fallback => cases.flatMap CaseNode.children ++ fallback.toList
  | .guarded body handlers final =>
    body.toList ++ handlers.flatMap CatchNode.children ++ final.toList
  | .parallel branches _ => branches
  | .pick branches => branches.flatMap PickBranchNode.children
  | .stateMachine _ states _ => states.flatMap StateNode.children
  | .flowchart _ nodes _ => nodes.flatMap FlowNode.children
  | .cancellable body onCancel => body.toList ++ onCancel.toList
  | .compensable _ body compensation confirmation cancellation =>
    body.toList ++ compensation.toList ++ confirmation.toList ++ cancellation.toList
  | .transactedReceive _ request body => request :: body.toList
  | .raise .. | .reraise | .delay .. | .confirm .. | .compensate .. | .persist | .terminate ..
  | .receive .. | .send .. | .sendReply .. | .receiveReply .. | .initializeCorrelation ..
  | .invoke .. | .code .. => []

def Node.children (n : Node) : List Node := n.kind.children

end Workflow
