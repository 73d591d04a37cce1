import Workflow.Code.Operator
import Workflow.Span

/-!
# Embedded code

Workflow constructs hold ordinary expressions and statements, which come already parsed. The same
trees serve for the code that the compiler produces, where a store is read by `handle.Get(__ctx)`
and written by `handle.Set(__ctx, value)`.

Every expression has an origin: the identity that numbering gives it, and its place in the source.
Expressions that the compiler makes itself have neither.
-/

namespace Workflow

abbrev ExprId := Nat

/-- A type as written in the source. The compiler only compares types and passes them on; `var` asks
for inference. -/
structure TypeName where
  text : String
deriving DecidableEq, Repr, Inhabited

namespace TypeName

def inferred : TypeName := ⟨"var"⟩

def boolean : TypeName := ⟨"bool"⟩

def int : TypeName := ⟨"int"⟩

def string : TypeName := ⟨"string"⟩

def object : TypeName := ⟨"object"⟩

def isInferred (ty : TypeName) : Bool := ty.text == "var"

def toJson (ty : TypeName) : Json := .str ty.text

def ofJson? (j : Json) : Option TypeName := j.str?.map TypeName.mk

@[simp]
theorem ofJson?_toJson (ty : TypeName) : ofJson? ty.toJson = some ty := rfl

end TypeName

inductive Literal where
  | null
  | bool (value : Bool)
  | int (value : Int)
  | float (value : Float)
  | str (value : String)
deriving Inhabited

structure Origin where
  id : Option ExprId := none
  span : Span := {}
deriving DecidableEq, Repr, Inhabited

mutual
inductive Expr where
  | literal (origin : Origin) (value : Literal)
  | name (origin : Origin) (name : String)
  | member (origin : Origin) (target : Expr) (name : String)
  | call (origin : Origin) (callee : Expr) (args : List Argument)
  | create (origin : Origin) (ty : TypeName) (args : List Argument)
  | unary (origin : Origin) (op : UnaryOp) (operand : Expr)
  | binary (origin : Origin) (op : BinaryOp) (lhs rhs : Expr)
  | conditional (origin : Origin) (condition yes no : Expr)
  | assign (origin : Origin) (op : AssignOp) (target value : Expr)
  | lambda (origin : Origin) (params : List String) (body : Expr)
  | cast (origin : Origin) (ty : TypeName) (operand : Expr)
  | index (origin : Origin) (target index : Expr)
  /-- Runs the statements, then has the value. -/
  | block (origin : Origin) (body : List CodeStmt) (value : Option Expr)

inductive Argument where
  | mk (direction : Direction) (value : Expr)

inductive CodeStmt where
  | eval (expr : Expr)
  | declare (name : String) (ty : TypeName) (init : Option Expr) (span : Span)
  | block (body : List CodeStmt)
  | branch (condition : Expr) (yes : CodeStmt) (no : Option CodeStmt)
  | loop (condition : Expr) (body : CodeStmt)
end

instance : Inhabited Expr := ⟨.literal {} .null⟩

instance : Inhabited CodeStmt := ⟨.block []⟩

namespace Argument

def direction : Argument → Direction
  | .mk d _ => d

def value : Argument → Expr
  | .mk _ e => e

def plain (e : Expr) : Argument := .mk .input e

@[simp]
theorem direction_mk (d : Direction) (e : Expr) : (Argument.mk d e).direction = d := rfl

@[simp]
theorem value_mk (d : Direction) (e : Expr) : (Argument.mk d e).value = e := rfl

end Argument

namespace Expr

def origin : Expr → Origin
  | literal o _ => o
  | name o _ => o
  | member o _ _ => o
  | call o _ _ => o
  | create o _ _ => o
  | unary o _ _ => o
  | binary o _ _ _ => o
  | conditional o _ _ _ => o
  | assign o _ _ _ => o
  | lambda o _ _ => o
  | cast o _ _ => o
  | index o _ _ => o
  | block o _ _ => o

def withOrigin (o : Origin) : Expr → Expr
  | literal _ v => literal o v
  | name _ n => name o n
  | member _ t n => member o t n
  | call _ c args => call o c args
  | create _ ty args => create o ty args
  | unary _ op e => unary o op e
  | binary _ op l r => binary o op l r
  | conditional _ c y n => conditional o c y n
  | assign _ op t v => assign o op t v
  | lambda _ ps b => lambda o ps b
  | cast _ ty e => cast o ty e
  | index _ t i => index o t i
  | block _ b v => block o b v

def id (e : Expr) : Option ExprId := e.origin.id

def span (e : Expr) : Span := e.origin.span

def withSpan (e : Expr) (span : Span) : Expr := e.withOrigin { e.origin with span := span }

@[simp]
theorem origin_withOrigin (o : Origin) (e : Expr) : (e.withOrigin o).origin = o := by
  cases e <;> rfl

def asName : Expr → Option String
  | name _ n => some n
  | _ => none

def isCall : Expr → Bool
  | call .. => true
  | _ => false

/-- The name of the activity context that all produced code refers to. -/
def contextName : String := "__ctx"

def ident (n : String) : Expr := name {} n

def int (n : Int) : Expr := literal {} (.int n)

def boolean (b : Bool) : Expr := literal {} (.bool b)

def string (s : String) : Expr := literal {} (.str s)

def null : Expr := literal {} .null

def methodCall (target : Expr) (method : String) (args : List Expr) : Expr :=
  call {} (member {} target method) (args.map Argument.plain)

/-- The call `Type.Invoke(args)`, which runs a workflow node. -/
def invoke (ty : String) (args : List Argument) : Expr :=
  call {} (member {} (ident ty) "Invoke") args

def not (e : Expr) : Expr := unary {} .not e

def apply (op : BinaryOp) (lhs rhs : Expr) : Expr := binary {} op lhs rhs

def storeGet (handle : Expr) : Expr := methodCall handle "Get" [ident contextName]

/-- The write `handle.Set(__ctx, value)` of a store, which has the written value. -/
def storeSet (handle value : Expr) : Expr := methodCall handle "Set" [ident contextName, value]

end Expr

namespace CodeStmt

def localVar (name : String) (ty : TypeName) (init : Option Expr) : CodeStmt :=
  declare name ty init {}

end CodeStmt

end Workflow
