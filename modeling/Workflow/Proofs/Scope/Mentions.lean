import Workflow.Proofs.Arena.Fragments
import Workflow.Proofs.Scope.Locals

/-!
# Names in code and in graphs

A local and the parameters of a lambda are bound by code, the variables and delegate arguments of a
node by the node. Both sides of lowering are read by the same definitions: the statements of an
activity, and the nodes of its graph.
-/

namespace Workflow

/-- A name in a tree: one that it binds, or one that it refers to. -/
inductive Mention where
  | bound (name : String)
  | used (name : String)
deriving DecidableEq, Repr

namespace Mention

def name : Mention → String
  | bound n => n
  | used n => n

def All (p : Mention → Prop) (ms : List Mention) : Prop := ∀ m ∈ ms, p m

variable {p : Mention → Prop} {m : Mention} {ms ms' : List Mention}

@[simp]
theorem all_nil : All p [] := fun _ hm => by cases hm

@[simp]
theorem all_cons : All p (m :: ms) ↔ p m ∧ All p ms := List.forall_mem_cons

@[simp]
theorem all_append : All p (ms ++ ms') ↔ All p ms ∧ All p ms' := List.forall_mem_append

@[simp]
theorem all_flatMap {α : Type} {f : α → List Mention} {xs : List α} :
    All p (xs.flatMap f) ↔ ∀ x ∈ xs, All p (f x) := by
  constructor
  · intro h x hx m hm
    exact h m (List.mem_flatMap.2 ⟨x, hx, hm⟩)
  · intro h m hm
    obtain ⟨x, hx, hm⟩ := List.mem_flatMap.1 hm
    exact h x hx m hm

@[simp]
theorem all_map_bound {xs : List String} : All p (xs.map bound) ↔ ∀ x ∈ xs, p (bound x) := by
  simp [All]

end Mention

/-! ### Code -/

mutual
def Expr.mentions : Expr → List Mention
  | .literal .. => []
  | .name _ n => [.used n]
  | .member _ t _ => t.mentions
  | .call _ f args => f.mentions ++ Argument.mentionsList args
  | .create _ _ args => Argument.mentionsList args
  | .unary _ _ e => e.mentions
  | .binary _ _ a b => a.mentions ++ b.mentions
  | .conditional _ c y n => c.mentions ++ (y.mentions ++ n.mentions)
  | .assign _ _ t v => t.mentions ++ v.mentions
  | .lambda _ params body => params.map .bound ++ body.mentions
  | .cast _ _ e => e.mentions
  | .index _ t i => t.mentions ++ i.mentions
  | .block _ body value => CodeStmt.mentionsList body ++ Expr.mentionsOpt value

def Argument.mentionsList : List Argument → List Mention
  | [] => []
  | .mk _ e :: rest => e.mentions ++ Argument.mentionsList rest

def CodeStmt.mentions : CodeStmt → List Mention
  | .eval e => e.mentions
  | .declare name _ init _ => .bound name :: Expr.mentionsOpt init
  | .block body => CodeStmt.mentionsList body
  | .branch c y n => c.mentions ++ (y.mentions ++ CodeStmt.mentionsOpt n)
  | .loop c body => c.mentions ++ body.mentions

def CodeStmt.mentionsList : List CodeStmt → List Mention
  | [] => []
  | s :: rest => s.mentions ++ CodeStmt.mentionsList rest

def Expr.mentionsOpt : Option Expr → List Mention
  | none => []
  | some e => e.mentions

def CodeStmt.mentionsOpt : Option CodeStmt → List Mention
  | none => []
  | some s => s.mentions
end

theorem CodeStmt.mentionsList_append (a b : List CodeStmt) :
    mentionsList (a ++ b) = mentionsList a ++ mentionsList b := by
  induction a with
  | nil => rfl
  | cons s rest ih => simp [mentionsList, ih]

theorem Expr.mentions_withSpan (e : Expr) (span : Span) :
    (e.withSpan span).mentions = e.mentions := by
  cases e <;> rfl

/-! ### Nodes -/

def VariableDecl.names (vars : List VariableDecl) : List String := vars.map (·.name)

def CatchNode.binders : CatchNode → List String
  | .mk _ argument _ => argument.toList

def PickBranchNode.binders : PickBranchNode → List String
  | .mk vars _ _ => VariableDecl.names vars

def NodeKind.binders : NodeKind → List String
  | .sequence vars _ | .stateMachine vars _ _ | .flowchart vars _ _ | .transactedReceive vars _ _ =>
    VariableDecl.names vars
  | .forEach _ argument _ _ _ _ => [argument]
  | .guarded _ handlers _ => handlers.flatMap CatchNode.binders
  | .pick branches => branches.flatMap PickBranchNode.binders
  | .conditional .. | .loop .. | .switch .. | .raise .. | .reraise | .delay .. | .parallel ..
  | .transaction .. | .cancellable .. | .compensable .. | .confirm .. | .compensate .. | .persist
  | .noPersist .. | .terminate .. | .receive .. | .send .. | .sendReply .. | .receiveReply ..
  | .initializeCorrelation .. | .invoke .. | .code .. => []

def NodeKind.mentions (kind : NodeKind) : List Mention :=
  kind.binders.map .bound ++ (kind.slots.flatMap Expr.mentions ++ CodeStmt.mentionsList kind.body)

namespace Node

def mentions (n : Node) : List Mention := n.nodes.flatMap fun m => m.kind.mentions

theorem mentions_mk (name : Option String) (kind : NodeKind) :
    (mk name kind).mentions = kind.mentions ++ kind.children.flatMap mentions := by
  rw [mentions, nodes, List.flatMap_cons, NodeKind.nodesBelow_eq, List.flatMap_assoc]
  rfl

theorem mentions_ofKind (kind : NodeKind) :
    (ofKind kind).mentions = kind.mentions ++ kind.children.flatMap mentions := mentions_mk none kind

theorem mentions_named (name : String) (n : Node) : (n.named name).mentions = n.mentions := by
  obtain ⟨_, kind⟩ := n
  rw [named, mentions_mk, mentions_mk]

theorem mentions_code (body : List CodeStmt) :
    (code body).mentions = CodeStmt.mentionsList body := by
  simp [code, mentions_ofKind, NodeKind.mentions, NodeKind.binders, NodeKind.slots, NodeKind.body,
    NodeKind.children]

end Node

def NodeGraph.mentions (g : NodeGraph) : List Mention :=
  g.arguments.map (fun arg => .bound arg.name) ++ g.body.mentions

/-! ### Activities -/

def StmtKind.mentions (k : StmtKind) : List Mention :=
  CodeStmt.mentionsList k.body ++ k.slots.flatMap (·.expr.mentions)

def Activity.mentions (a : Activity) : List Mention :=
  a.stores.toList.map (fun st => .bound st.name) ++
    (List.range a.stmts.size).flatMap fun i => (a.kind i).mentions

end Workflow
