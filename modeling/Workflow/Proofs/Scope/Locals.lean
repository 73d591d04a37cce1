import Mathlib.Data.Finset.Dedup
import Mathlib.Data.Finset.Lattice.Lemmas
import Mathlib.Data.Finset.SDiff
import Workflow.Graph.Walk
import Workflow.Lower.Context
import Workflow.Lower.Steps

/-!
# Locals of embedded code

The locals of an expression are the names in it that the oracle marked as locals and that no lambda,
block or nested statement around them binds. A local is used outside the code node that declares it
exactly if it is a local of some node of the graph.

Source code and produced code are read by the same definition. The source names some things that it
does not evaluate: the callee of a scheduled call stands for a node type, and a store that is
assigned or stepped is reached through its handle.
-/

namespace Workflow

open Node TransitionNode PickBranchNode

section Unions

variable {α β : Type} (f : α → Finset String)

def unionMap : List α → Finset String
  | [] => ∅
  | a :: as => f a ∪ unionMap as

variable {f}

@[simp]
theorem unionMap_nil : unionMap f [] = ∅ := rfl

@[simp]
theorem unionMap_cons (a : α) (as : List α) : unionMap f (a :: as) = f a ∪ unionMap f as := rfl

@[simp]
theorem mem_unionMap {as : List α} : n ∈ unionMap f as ↔ ∃ a ∈ as, n ∈ f a := by
  induction as with
  | nil => simp
  | cons a as ih => simp [ih]

theorem unionMap_append (as bs : List α) :
    unionMap f (as ++ bs) = unionMap f as ∪ unionMap f bs := by
  induction as with
  | nil => simp
  | cons a as ih => rw [List.cons_append, unionMap_cons, unionMap_cons, ih, Finset.union_assoc]

theorem unionMap_flatMap (g : β → List α) (bs : List β) :
    unionMap f (bs.flatMap g) = unionMap (fun b => unionMap f (g b)) bs := by
  induction bs with
  | nil => rfl
  | cons b bs ih => rw [List.flatMap_cons, unionMap_append, ih, unionMap_cons]

end Unions

/-- How code is read: which names are locals, which callees only name what is scheduled, and what is
reached through a handle. -/
structure Reading where
  isLocal : Option ExprId → Bool
  isScheduled : Option ExprId → Bool
  isStore : Expr → Bool

def SemanticIndex.isLocal (x : SemanticIndex) (id : Option ExprId) : Bool :=
  x.symbol? id == some .localVar

def SemanticIndex.produced (x : SemanticIndex) : Reading where
  isLocal := x.isLocal
  isScheduled _ := false
  isStore _ := false

def LowerContext.source (c : LowerContext) : Reading where
  isLocal := c.semantics.isLocal
  isScheduled id := (c.semantics.scheduling? id).isSome
  isStore e := (c.storeFor? e).isSome

def LowerContext.reading (c : LowerContext) (x : SemanticIndex) : Reading :=
  { c.source with isLocal := x.isLocal }

section Reading

variable (x : SemanticIndex) (c : LowerContext) (id : Option ExprId) (e : Expr)

@[simp]
theorem produced_isLocal : x.produced.isLocal id = x.isLocal id := rfl

@[simp]
theorem produced_isScheduled : x.produced.isScheduled id = false := rfl

@[simp]
theorem produced_isStore : x.produced.isStore e = false := rfl

@[simp]
theorem source_isScheduled : c.source.isScheduled id = (c.semantics.scheduling? id).isSome := rfl

@[simp]
theorem source_isStore : c.source.isStore e = (c.storeFor? e).isSome := rfl

@[simp]
theorem reading_isScheduled :
    (c.reading x).isScheduled id = (c.semantics.scheduling? id).isSome := rfl

@[simp]
theorem reading_isStore : (c.reading x).isStore e = (c.storeFor? e).isSome := rfl

@[simp]
theorem isLocal_none : x.isLocal none = false := rfl

end Reading

def CodeStmt.declared : CodeStmt → Finset String
  | .declare name .. => {name}
  | _ => ∅

section Locals

variable (r : Reading)

mutual
def Expr.locals : Expr → Finset String
  | .literal .. => ∅
  | .name o n => if r.isLocal o.id then {n} else ∅
  | .member _ t _ => t.locals
  | .call o f args => (if r.isScheduled o.id then ∅ else f.locals) ∪ Argument.localsList args
  | .create _ _ args => Argument.localsList args
  | .unary _ op e => if op.isStep && r.isStore e then ∅ else e.locals
  | .binary _ _ a b => a.locals ∪ b.locals
  | .conditional _ c y n => c.locals ∪ (y.locals ∪ n.locals)
  | .assign _ _ t v => (if r.isStore t then ∅ else t.locals) ∪ v.locals
  | .lambda _ params body => body.locals \ params.toFinset
  | .cast _ _ e => e.locals
  | .index _ t i => t.locals ∪ i.locals
  | .block _ body value =>
    CodeStmt.localsList body ∪ (Expr.localsOpt value \ unionMap CodeStmt.declared body)

def Argument.localsList : List Argument → Finset String
  | [] => ∅
  | .mk _ e :: rest => e.locals ∪ Argument.localsList rest

def CodeStmt.locals : CodeStmt → Finset String
  | .eval e => e.locals
  | .declare _ _ init _ => Expr.localsOpt init
  | .block body => CodeStmt.localsList body
  | .branch c y n => c.locals ∪ (y.locals ∪ CodeStmt.localsOpt n)
  | .loop c body => c.locals ∪ body.locals

def CodeStmt.localsList : List CodeStmt → Finset String
  | [] => ∅
  | s :: rest => s.locals ∪ (CodeStmt.localsList rest \ s.declared)

def Expr.localsOpt : Option Expr → Finset String
  | none => ∅
  | some e => e.locals

def CodeStmt.localsOpt : Option CodeStmt → Finset String
  | none => ∅
  | some s => s.locals
end

end Locals

namespace CodeStmt

variable {r : Reading}

theorem localsList_append (a b : List CodeStmt) :
    localsList r (a ++ b) = localsList r a ∪ (localsList r b \ unionMap declared a) := by
  induction a with
  | nil => simp [localsList]
  | cons s rest ih =>
    simp only [List.cons_append, localsList, ih, unionMap_cons]
    grind

end CodeStmt

section Produced

variable (x : SemanticIndex)

attribute [local simp] Expr.locals Argument.localsList

namespace Expr

@[simp]
theorem locals_ident (n : String) : (ident n).locals x.produced = ∅ := by
  simp [ident]

@[simp]
theorem locals_null : null.locals x.produced = ∅ := by
  simp [null]

@[simp]
theorem locals_storeGet (handle : Expr) :
    (storeGet handle).locals x.produced = handle.locals x.produced := by
  simp [storeGet, methodCall, Argument.plain, ident]

@[simp]
theorem locals_storeGet_withSpan (handle : Expr) (span : Span) :
    ((storeGet handle).withSpan span).locals x.produced = handle.locals x.produced :=
  locals_storeGet x handle

@[simp]
theorem locals_storeSet (handle value : Expr) : (storeSet handle value).locals x.produced =
      handle.locals x.produced ∪ value.locals x.produced := by
  simp [storeSet, methodCall, Argument.plain, ident]

@[simp]
theorem locals_storeSet_withSpan (handle value : Expr) (span : Span) :
    ((storeSet handle value).withSpan span).locals x.produced =
      handle.locals x.produced ∪ value.locals x.produced :=
  locals_storeSet x handle value

@[simp]
theorem locals_apply (op : BinaryOp) (a b : Expr) :
    (apply op a b).locals x.produced = a.locals x.produced ∪ b.locals x.produced := by
  simp [apply]

@[simp]
theorem locals_int (n : Int) : (int n).locals x.produced = ∅ := by
  simp [int]

@[simp]
theorem locals_not (e : Expr) : e.not.locals x.produced = e.locals x.produced := by
  simp [Expr.not]

end Expr

end Produced

/-! ### Slots of nodes -/

def ArgumentValue.slots : ArgumentValue → List Expr
  | .value v => [v.expr]
  | .location l => [l.handle]

def MessageContent.slots : MessageContent → List Expr
  | .message value => value.slots
  | .parameters params => params.flatMap (·.2.slots)

def MessagingNode.slots (op : MessagingNode) : List Expr :=
  op.content.toList.flatMap MessageContent.slots ++ op.correlatesWith.toList.map (·.expr) ++
    op.correlationInitializers.map (·.handle) ++ op.endpoint.toList.map (·.expr)

def VariableDecl.slots (vars : List VariableDecl) : List Expr := vars.flatMap (·.default.toList)

def StateNode.slots : StateNode → List Expr
  | .mk _ _ _ _ _ transitions => transitions.flatMap fun
    | .mk _ condition _ _ => condition.toList.map (·.expr)

def FlowNode.slots : FlowNode → List Expr
  | .step .. => []
  | .decision _ condition _ _ => [condition.expr]
  | .switch _ value cases _ => value.expr :: cases.map (·.key.expr)

def NodeKind.slots : NodeKind → List Expr
  | .sequence vars _ => VariableDecl.slots vars
  | .conditional v _ _ | .loop v _ _ | .raise v | .delay v => [v.expr]
  | .switch v cases _ => v.expr :: cases.map fun
    | .mk key _ => key.expr
  | .forEach _ _ v _ _ completion => v.expr :: completion.toList.map (·.expr)
  | .parallel _ v | .transaction _ v | .confirm v | .compensate v => v.toList.map (·.expr)
  | .pick branches => branches.flatMap fun
    | .mk vars _ _ => VariableDecl.slots vars
  | .stateMachine vars states _ => VariableDecl.slots vars ++ states.flatMap StateNode.slots
  | .flowchart vars nodes _ => VariableDecl.slots vars ++ nodes.flatMap FlowNode.slots
  | .compensable token _ _ _ _ => token.toList.map (·.handle)
  | .terminate reason exception =>
    reason.toList.map (·.expr) ++ exception.toList.map (·.expr)
  | .receive op | .send op | .sendReply op | .receiveReply op => op.slots
  | .initializeCorrelation handle data => handle.expr :: data.map (·.2.expr)
  | .transactedReceive vars _ _ => VariableDecl.slots vars
  | .invoke _ arguments result =>
    arguments.flatMap (·.value.slots) ++ result.toList.map (·.handle)
  | .reraise | .guarded .. | .cancellable .. | .persist | .noPersist .. | .code .. => []

def NodeKind.body : NodeKind → List CodeStmt
  | .code body => body
  | _ => []

/-- The locals that a node itself uses and that its code does not declare before. -/
def NodeKind.ownLocals (x : SemanticIndex) (kind : NodeKind) : Finset String :=
  unionMap (Expr.locals x.produced) kind.slots ∪ CodeStmt.localsList x.produced kind.body

/-- The locals that are used outside the code that declares them, anywhere in a tree. -/
def Node.locals (x : SemanticIndex) (n : Node) : Finset String :=
  unionMap (fun m => m.kind.ownLocals x) n.nodes

section Children

theorem Node.nodesList_eq (ns : List Node) : nodesList ns = ns.flatMap nodes := by
  induction ns with
  | nil => rfl
  | cons n rest ih => rw [nodesList, ih, List.flatMap_cons]

theorem Node.nodesOption_eq (n : Option Node) : nodesOption n = n.toList.flatMap nodes := by
  cases n <;> simp [nodesOption]

attribute [local simp] nodesList_eq nodesOption_eq List.flatMap_append List.flatMap_assoc

theorem CaseNode.nodesList_eq (cases : List CaseNode) :
    CaseNode.nodesList cases = (cases.flatMap CaseNode.children).flatMap nodes := by
  induction cases with
  | nil => rfl
  | cons case rest ih => cases case; simp [CaseNode.nodesList, CaseNode.children, ih]

theorem CatchNode.nodesList_eq (handlers : List CatchNode) :
    CatchNode.nodesList handlers = (handlers.flatMap CatchNode.children).flatMap nodes := by
  induction handlers with
  | nil => rfl
  | cons handler rest ih => cases handler; simp [CatchNode.nodesList, CatchNode.children, ih]

theorem PickBranchNode.nodesList_eq (branches : List PickBranchNode) : nodesList branches =
      (branches.flatMap children).flatMap nodes := by
  induction branches with
  | nil => rfl
  | cons branch rest ih =>
    cases branch
    simp [nodesList, children, ih]

theorem TransitionNode.nodesList_eq (transitions : List TransitionNode) : nodesList transitions =
      (transitions.flatMap children).flatMap nodes := by
  induction transitions with
  | nil => rfl
  | cons transition rest ih =>
    cases transition
    simp [nodesList, children, ih]

theorem StateNode.nodesList_eq (states : List StateNode) :
    StateNode.nodesList states = (states.flatMap StateNode.children).flatMap nodes := by
  induction states with
  | nil => rfl
  | cons state rest ih =>
    cases state
    simp [StateNode.nodesList, StateNode.children, TransitionNode.nodesList_eq, ih]

theorem FlowNode.nodesList_eq (nodes : List FlowNode) :
    FlowNode.nodesList nodes = (nodes.flatMap FlowNode.children).flatMap Node.nodes := by
  induction nodes with
  | nil => rfl
  | cons node rest ih => cases node <;> simp [FlowNode.nodesList, FlowNode.children, ih]

theorem NodeKind.nodesBelow_eq (kind : NodeKind) :
    kind.nodesBelow = kind.children.flatMap Node.nodes := by
  cases kind <;>
    simp [NodeKind.nodesBelow, NodeKind.children, CaseNode.nodesList_eq, CatchNode.nodesList_eq,
      PickBranchNode.nodesList_eq, StateNode.nodesList_eq, FlowNode.nodesList_eq]

end Children

namespace Node

variable {x : SemanticIndex}

theorem locals_mk (name : Option String) (kind : NodeKind) :
    (mk name kind).locals x = kind.ownLocals x ∪ unionMap (locals x) kind.children := by
  rw [locals, nodes, unionMap_cons, NodeKind.nodesBelow_eq, unionMap_flatMap]
  rfl

theorem locals_ofKind (kind : NodeKind) :
    (ofKind kind).locals x = kind.ownLocals x ∪ unionMap (locals x) kind.children :=
  locals_mk none kind

theorem locals_named (name : String) (n : Node) : (n.named name).locals x = n.locals x := by
  obtain ⟨_, kind⟩ := n
  rw [named, locals_mk, locals_mk]

theorem locals_code (body : List CodeStmt) :
    (code body).locals x = CodeStmt.localsList x.produced body := by
  simp [code, locals_ofKind, NodeKind.ownLocals, NodeKind.slots, NodeKind.body,
    NodeKind.children]

end Node

/-- The locals of a step. A skip runs its code in one block. -/
def Step.locals (x : SemanticIndex) : Step → Finset String
  | .node n => n.locals x
  | .skip before condition onSkip _ =>
    CodeStmt.localsList x.produced before ∪
      ((Expr.localsOpt x.produced condition ∪ CodeStmt.localsList x.produced onSkip) \
        unionMap CodeStmt.declared before)

namespace LowerContext

variable (c : LowerContext)

mutual
/-- Whether the code of an expression is spread over more than one step. -/
def pauses : Expr → Bool
  | .literal .. | .name .. | .lambda .. | .block .. => false
  | .member _ t _ => pauses t
  | .call o f args => (c.semantics.scheduling? o.id).isSome || pauses f || argsPause args
  | .create _ _ args => argsPause args
  | .unary _ op e => !(op.isStep && (c.storeFor? e).isSome) && pauses e
  | .binary _ op l r => op.isShortCircuit && c.schedules r || pauses l || pauses r
  | .conditional _ t y n =>
    c.schedules y || c.schedules n || pauses t || pauses y || pauses n
  | .assign _ _ t v => (c.storeFor? t).isNone && pauses t || pauses v
  | .cast _ _ e => pauses e
  | .index _ t i => pauses t || pauses i

def argsPause : List Argument → Bool
  | [] => false
  | .mk _ e :: rest => pauses e || argsPause rest
end

end LowerContext

end Workflow
