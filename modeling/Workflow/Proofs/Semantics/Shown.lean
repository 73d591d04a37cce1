import Workflow.Proofs.Lower.Chain
import Workflow.Proofs.Model.Walk
import Workflow.Proofs.Semantics.Inspect
import Workflow.Semantics.Lexical

/-!
# What the oracle is shown

A model program shows the oracle the fragments of the statements, but not all of them: the target of
the assignment that gives a store its first value, and the endpoint of an operation that does not
send. Every expression of a statement is either shown to the oracle or hidden from it.
-/

namespace Workflow

open CodeStmt

/-! ### Expressions of model programs -/

mutual
def ModelStmt.exprs : ModelStmt → List Expr
  | .declare _ _ _ _ init => init.toList.flatMap (·.expr.nodes)
  | .eval e => e.expr.nodes
  | .fragment _ body => nodesList body
  | .block body => ModelStmt.exprsList body
  | .forEach _ _ _ values body => values.expr.nodes ++ ModelStmt.exprsList body

def ModelStmt.exprsList : List ModelStmt → List Expr
  | [] => []
  | s :: rest => s.exprs ++ ModelStmt.exprsList rest
end

def ModelMethod.exprs (m : ModelMethod) : List Expr := m.body.toList.flatMap ModelStmt.exprsList

/-! ### Expressions of activities -/

namespace StmtKind

/-- What the oracle is shown of code: only the value if it is the first value of a store. -/
def shownCode : Option StoreId → List CodeStmt → List Expr
  | some _, [.eval (.assign _ _ _ value)] => value.nodes
  | _, body => nodesList body

/-- What the oracle is not shown of code: the assignment of the first value, and its target. -/
def hiddenCode : Option StoreId → List CodeStmt → List Expr
  | some _, [.eval (.assign o op target value)] => .assign o op target value :: target.nodes
  | _, _ => []

def shown : StmtKind → List Expr
  | .code f _ initializes => shownCode initializes f.body
  | .service op => (op.content.toList.flatMap Content.fragments ++ op.correlatesWith.toList ++
      if op.kind == .send then op.endpoint.toList else []).flatMap (·.expr.nodes)
  | kind => kind.slots.flatMap (·.expr.nodes)

def hidden : StmtKind → List Expr
  | .code f _ initializes => hiddenCode initializes f.body
  | .service op => if op.kind == .send then [] else op.endpoint.toList.flatMap (·.expr.nodes)
  | _ => []

theorem code_perm (initializes : Option StoreId) (body : List CodeStmt) :
    (nodesList body).Perm (shownCode initializes body ++ hiddenCode initializes body) := by
  unfold shownCode hiddenCode
  split
  · next o op target value =>
    simp only [nodesList, CodeStmt.nodes, Expr.nodes, List.append_nil]
    exact @List.perm_append_comm _ (.assign o op target value :: target.nodes) _
  · simp

theorem shownCode_of_plain {initializes : Option StoreId} {body : List CodeStmt}
    (h : initializes = none ∨ Emit.assignedValue body = none) :
    shownCode initializes body = nodesList body := by
  unfold shownCode
  split
  · rcases h with h | h <;> cases h
  · rfl

/-- The oracle is shown everything that is not hidden from it. -/
theorem exprs_perm (k : StmtKind) : k.exprs.Perm (k.shown ++ k.hidden) := by
  cases k with
  | code f next initializes =>
    simpa [exprs, slots, body, shown, hidden] using code_perm initializes f.body
  | service op =>
    have hexprs : exprs (.service op) = op.slots.flatMap (·.expr.nodes) := rfl
    rw [hexprs, ServiceOperation.slots]
    cases hsend : op.kind == .send <;> simp [shown, hidden, hsend]
  | _ => simp [exprs, body, shown, hidden, nodesList]

end StmtKind

def Activity.shown (a : Activity) : List Expr :=
  (List.range a.stmts.size).flatMap fun i => (a.kind i).shown

def Activity.hidden (a : Activity) : List Expr :=
  (List.range a.stmts.size).flatMap fun i => (a.kind i).hidden

theorem Activity.exprs_perm (a : Activity) : a.exprs.Perm (a.shown ++ a.hidden) :=
  (List.Perm.flatMap_left _ fun _ _ => StmtKind.exprs_perm _).trans
    (List.flatMap_append_perm _ _ _).symm

theorem Activity.mem_shown (a : Activity) (h : e ∈ (a.kind i).shown) :
    e ∈ a.shown := Activity.mem_flatMap_kind rfl h

theorem Activity.mem_hidden (a : Activity) (h : e ∈ (a.kind i).hidden) :
    e ∈ a.hidden := Activity.mem_flatMap_kind rfl h

theorem Activity.flatMap_exprs_perm (as : List Activity) : (as.flatMap Activity.exprs).Perm
    (as.flatMap Activity.shown ++ as.flatMap Activity.hidden) :=
  (List.Perm.flatMap_left _ fun a _ => a.exprs_perm).trans (List.flatMap_append_perm _ _ _).symm

theorem StmtKind.mem_shown_of_emitted {k : StmtKind} {f : Fragment} (hf : f ∈ k.emitted) :
    ∀ e ∈ f.expr.nodes, e ∈ k.shown := by
  intro e he
  cases k with
  | code => cases hf
  | _ => exact List.mem_flatMap.2 ⟨f, hf, he⟩

end Workflow
