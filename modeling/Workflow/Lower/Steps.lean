import Workflow.Graph.Node

/-!
# Step lists

The code of a run is lowered to a list of steps. Plain statements pile up until a scheduled node
comes, and then go into a code node of their own. A skip passes over the steps after it.

As long as nothing is skipped, the steps follow each other. A list with skips has a variable that
holds the position of the next step: every step runs only if the variable is at its position, and
moves the variable on.
-/

namespace Workflow

inductive Step where
  | node (n : Node)
  /-- Runs some statements; then, if the condition holds or there is none, runs `onSkip` and goes on
  after the next `distance` steps. -/
  | skip (before : List CodeStmt) (condition : Option Expr) (onSkip : List CodeStmt)
    (distance : Nat)
deriving Inhabited

/-- A list of steps under construction. -/
structure StepList where
  steps : List Step := []
  /-- The statements after the last step. -/
  pending : List CodeStmt := []
  vars : List VariableDecl := []
  /-- The name of the variable that holds the position. -/
  index : Option String := none
deriving Inhabited

namespace StepList

def length (l : StepList) : Nat := l.steps.length

def isEmpty (l : StepList) : Bool := l.steps.isEmpty && l.pending.isEmpty

def pushPlain (l : StepList) (s : CodeStmt) : StepList := { l with pending := l.pending ++ [s] }

/-- Puts the pending statements into a step. -/
def flush (l : StepList) : StepList :=
  if l.pending.isEmpty then l
  else { l with steps := l.steps ++ [.node (.code l.pending)], pending := [] }

def push (l : StepList) (step : Step) : StepList :=
  let l := l.flush
  { l with steps := l.steps ++ [step] }

def pushNode (l : StepList) (n : Node) : StepList := l.push (.node n)

/-- Adds a skip over nothing yet; its position is that of the last step. -/
def pushSkip (l : StepList) (before : List CodeStmt) (condition : Option Expr)
    (onSkip : List CodeStmt) : StepList :=
  l.push (.skip before condition onSkip 0)

def setOver (distance : Nat) : Step → Step
  | .skip before condition onSkip _ => .skip before condition onSkip distance
  | step => step

def patchSkip (l : StepList) (position distance : Nat) : StepList :=
  { l with steps := l.steps.modify position (setOver distance) }

def declare (l : StepList) (v : VariableDecl) : StepList :=
  { l with vars := l.vars ++ [v] }

/-- Gives the list a variable for the position, before all other variables. -/
def useIndex (l : StepList) (name : String) : StepList :=
  { l with
    vars := { name := name, ty := .int, default := some (.int 0) } :: l.vars
    index := some name }

def readIndex (index : String) : Expr := .storeGet (.ident index)

def advance (index : String) (distance : Nat) : CodeStmt :=
  .eval (.storeSet (.ident index) (.apply .add (readIndex index) (.int distance)))

def atPosition (index : String) (position : Nat) : Expr :=
  .apply .eq (readIndex index) (.int position)

def guardedCode (index : String) (position : Nat) (body : List CodeStmt) : Node :=
  .code [.branch (atPosition index position) (.block body) none]

def skipCode (index : String) (before : List CodeStmt) (condition : Option Expr)
    (onSkip : List CodeStmt) (distance : Nat) : List CodeStmt :=
  let taken := onSkip ++ [advance index (distance + 1)]
  match condition with
  | some c => before ++ [.branch c (.block taken) (some (advance index 1))]
  | none => before ++ taken

/-- A step that runs at its position only, and moves the position on. -/
def indexed (index : String) (position : Nat) : Step → Node
  | .node (.mk name kind) =>
    match kind with
    | .code body => guardedCode index position (body ++ [advance index 1])
    | _ =>
      .ofKind (.conditional { ty := some .boolean, expr := atPosition index position }
        (some (.sequence [] [.mk name kind, .code [advance index 1]])) none)
  | .skip before condition onSkip distance =>
    guardedCode index position (skipCode index before condition onSkip distance)

/-- Steps that run at their positions, which count from `position`. -/
def indexedFrom (index : String) (position : Nat) : List Step → List Node
  | [] => []
  | step :: rest => indexed index position step :: indexedFrom index (position + 1) rest

def plainNode? : Step → Option Node
  | .node n => some n
  | .skip .. => none

def nodes (l : StepList) : List Node :=
  match l.flush.index with
  | none => l.flush.steps.filterMap plainNode?
  | some index => indexedFrom index 0 l.flush.steps

/-- The list as nothing, a single node, or a sequence with the variables. -/
def finish (l : StepList) : Option Node :=
  match l.vars, l.nodes with
  | [], [] => none
  | [], [n] => some n
  | vars, nodes => some (.sequence vars nodes)

end StepList

end Workflow
