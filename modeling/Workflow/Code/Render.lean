import Workflow.Code.Expr
import Workflow.Decimal.Layout
import Workflow.Text.Quoted

/-!
# Rendering embedded code

A compact form of code on one line, for messages and model programs. An operand is put in
parentheses unless it is a constant, a name, a member access, a call, an index or an object
creation.
-/

namespace Workflow

/-- Numbers in rendered code have a decimal point from `0.0001` up to below `10 ^ 16`. -/
def Literal.numberLayout : Decimal.Layout := { least := -4, limit := 16, plus := "", tieUp := true }

def Literal.render : Literal → String
  | .null => "null"
  | .bool true => "true"
  | .bool false => "false"
  | .int n => toString n
  | .float x => Literal.numberLayout.number x
  | .str s => Text.quote s

def Expr.isAtomic : Expr → Bool
  | .literal .. | .name .. | .member .. | .call .. | .index .. | .create .. => true
  | _ => false

/-- Puts the text of an operand in parentheses where it needs them. -/
def Expr.enclose (e : Expr) (text : String) : String :=
  if e.isAtomic then text else "(" ++ text ++ ")"

def joinWith (sep : String) : List String → String
  | [] => ""
  | [s] => s
  | s :: rest => s ++ sep ++ joinWith sep rest

mutual
def Expr.render : Expr → String
  | .literal _ v => v.render
  | .name _ n => n
  | .member _ t n => t.enclose t.render ++ "." ++ n
  | .call _ c args => c.enclose c.render ++ "(" ++ joinWith ", " (Argument.renderList args) ++ ")"
  | .create _ ty args => "new " ++ ty.text ++ "(" ++ joinWith ", " (Argument.renderList args) ++ ")"
  | .unary _ op e =>
    if op.isPost then e.enclose e.render ++ op.symbol else op.symbol ++ e.enclose e.render
  | .binary _ op l r => l.enclose l.render ++ " " ++ op.symbol ++ " " ++ r.enclose r.render
  | .conditional _ c y n =>
    c.enclose c.render ++ " ? " ++ y.enclose y.render ++ " : " ++ n.enclose n.render
  | .assign _ op t v => t.enclose t.render ++ " " ++ op.symbol ++ " " ++ v.enclose v.render
  | .lambda _ ps b => "(" ++ joinWith ", " ps ++ ") => " ++ b.enclose b.render
  | .cast _ ty e => "(" ++ ty.text ++ ")" ++ e.enclose e.render
  | .index _ t i => t.enclose t.render ++ "[" ++ i.render ++ "]"
  | .block _ b v => "\x7b" ++ CodeStmt.renderInner b ++ Expr.renderResult v ++ " \x7d"

/-- The arguments of a call, each with the mark of its direction. -/
def Argument.renderList : List Argument → List String
  | [] => []
  | .mk d e :: rest => (d.mark ++ e.render) :: Argument.renderList rest

def CodeStmt.render : CodeStmt → String
  | .eval e => e.render ++ ";"
  | .declare name ty init _ => ty.text ++ " " ++ name ++ Expr.renderInit init ++ ";"
  | .block b => "\x7b" ++ CodeStmt.renderInner b ++ " \x7d"
  | .branch c y n => "if (" ++ c.render ++ ") " ++ y.render ++ CodeStmt.renderElse n
  | .loop c b => "while (" ++ c.render ++ ") " ++ b.render

def CodeStmt.renderInner : List CodeStmt → String
  | [] => ""
  | s :: rest => " " ++ s.render ++ CodeStmt.renderInner rest

def Expr.renderResult : Option Expr → String
  | none => ""
  | some e => " => " ++ e.render

def Expr.renderInit : Option Expr → String
  | none => ""
  | some e => " = " ++ e.render

def CodeStmt.renderElse : Option CodeStmt → String
  | none => ""
  | some s => " else " ++ s.render
end

def CodeStmt.renderBody (body : List CodeStmt) : String := joinWith " " (body.map CodeStmt.render)

end Workflow
