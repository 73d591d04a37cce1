import Workflow.Proofs.Arena.Fragments

/-!
# Heights

The height of an expression is the number of expressions on its longest path downwards. Statements
inside of blocks do not count.
-/

namespace Workflow

mutual
def Expr.height : Expr → Nat
  | .literal .. | .name .. => 1
  | .member _ target _ => target.height + 1
  | .call _ callee args => max callee.height (Argument.heightList args) + 1
  | .create _ _ args => Argument.heightList args + 1
  | .unary _ _ operand => operand.height + 1
  | .binary _ _ l r => max l.height r.height + 1
  | .conditional _ c y n => max c.height (max y.height n.height) + 1
  | .assign _ _ target value => max target.height value.height + 1
  | .lambda _ _ body => body.height + 1
  | .cast _ _ operand => operand.height + 1
  | .index _ target index => max target.height index.height + 1
  | .block _ body value => max (CodeStmt.heightList body) (Expr.heightOpt value) + 1

def Expr.heightOpt : Option Expr → Nat
  | none => 0
  | some e => e.height

def Argument.heightList : List Argument → Nat
  | [] => 0
  | .mk _ e :: rest => max e.height (Argument.heightList rest)

def CodeStmt.height : CodeStmt → Nat
  | .eval e => e.height
  | .declare _ _ init _ => Expr.heightOpt init
  | .block body => CodeStmt.heightList body
  | .branch c y n => max c.height (max y.height (CodeStmt.heightOpt n))
  | .loop c body => max c.height body.height

def CodeStmt.heightList : List CodeStmt → Nat
  | [] => 0
  | s :: rest => max s.height (CodeStmt.heightList rest)

def CodeStmt.heightOpt : Option CodeStmt → Nat
  | none => 0
  | some s => s.height
end

/-- No expression of the statement is higher than that. -/
structure StmtKind.Fits (n : Nat) (k : StmtKind) : Prop where
  body : CodeStmt.heightList k.body ≤ n
  slots : ∀ f ∈ k.slots, f.expr.height ≤ n

theorem Expr.height_pos (e : Expr) : 0 < e.height := by
  cases e <;> simp [height]

end Workflow
