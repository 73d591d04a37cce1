import Workflow.Json.Record

/-!
# Operators of embedded code

The operators of the expression language with their symbols and their names in the tree format, and
the directions in which arguments pass data.
-/

namespace Workflow

open Json

/-- The direction in which a parameter, an argument or a store passes data. -/
inductive Direction where
  | input
  | output
  | byRef
deriving DecidableEq, Repr, Inhabited

namespace Direction

def word : Direction → String
  | .input => "in"
  | .output => "out"
  | .byRef => "ref"

def ofWord? : String → Option Direction
  | "in" => some .input
  | "out" => some .output
  | "ref" => some .byRef
  | _ => none

def mark : Direction → String
  | .input => ""
  | .output => "out "
  | .byRef => "ref "

def toJson (d : Direction) : Json := .str d.word

def ofJsonAt? (place : Place) (j : Json) : Option Direction :=
  (j.choice? place).bind ofWord?

def ofJson? (j : Json) : Option Direction := ofJsonAt? .outside j

end Direction

inductive UnaryOp where
  | not
  | neg
  | preIncrement
  | preDecrement
  | postIncrement
  | postDecrement
deriving DecidableEq, Repr, Inhabited

/-- Operators with two operands, the ones that may skip the second included. -/
inductive BinaryOp where
  | add
  | sub
  | mul
  | div
  | rem
  | eq
  | ne
  | lt
  | le
  | gt
  | ge
  | bitAnd
  | bitOr
  | andAlso
  | orElse
  | coalesce
deriving DecidableEq, Repr, Inhabited

/-- Simple and compound assignment. -/
inductive AssignOp where
  | assign
  | add
  | sub
  | mul
  | div
  | rem
deriving DecidableEq, Repr, Inhabited

namespace UnaryOp

/-- The arithmetic operator that an increment or decrement applies. -/
def stepOp : UnaryOp → Option BinaryOp
  | .preIncrement | .postIncrement => some .add
  | .preDecrement | .postDecrement => some .sub
  | .not | .neg => none

def isStep (op : UnaryOp) : Bool := op.stepOp.isSome

def isPost : UnaryOp → Bool
  | .postIncrement | .postDecrement => true
  | _ => false

def symbol : UnaryOp → String
  | .not => "!"
  | .neg => "-"
  | .preIncrement | .postIncrement => "++"
  | .preDecrement | .postDecrement => "--"

def word : UnaryOp → String
  | .not => "not"
  | .neg => "neg"
  | .preIncrement => "preIncrement"
  | .preDecrement => "preDecrement"
  | .postIncrement => "postIncrement"
  | .postDecrement => "postDecrement"

def ofWord? : String → Option UnaryOp
  | "not" => some .not
  | "neg" => some .neg
  | "preIncrement" => some .preIncrement
  | "preDecrement" => some .preDecrement
  | "postIncrement" => some .postIncrement
  | "postDecrement" => some .postDecrement
  | _ => none

def toJson (op : UnaryOp) : Json := .str op.word

def ofJsonAt? (place : Place) (j : Json) : Option UnaryOp :=
  (j.choice? place).bind ofWord?

def ofJson? (j : Json) : Option UnaryOp := ofJsonAt? .outside j

end UnaryOp

namespace BinaryOp

/-- Operators that evaluate their second operand only on some values of the first. -/
def isShortCircuit : BinaryOp → Bool
  | .andAlso | .orElse | .coalesce => true
  | _ => false

/-- Operators with a truth value as result, whatever their operands are. -/
def isBoolean : BinaryOp → Bool
  | .eq | .ne | .lt | .le | .gt | .ge | .andAlso | .orElse => true
  | _ => false

def symbol : BinaryOp → String
  | .add => "+"
  | .sub => "-"
  | .mul => "*"
  | .div => "/"
  | .rem => "%"
  | .eq => "=="
  | .ne => "!="
  | .lt => "<"
  | .le => "<="
  | .gt => ">"
  | .ge => ">="
  | .bitAnd => "&"
  | .bitOr => "|"
  | .andAlso => "&&"
  | .orElse => "||"
  | .coalesce => "??"

def word : BinaryOp → String
  | .add => "add"
  | .sub => "sub"
  | .mul => "mul"
  | .div => "div"
  | .rem => "rem"
  | .eq => "eq"
  | .ne => "ne"
  | .lt => "lt"
  | .le => "le"
  | .gt => "gt"
  | .ge => "ge"
  | .bitAnd => "bitAnd"
  | .bitOr => "bitOr"
  | .andAlso => "andAlso"
  | .orElse => "orElse"
  | .coalesce => "coalesce"

def ofWord? : String → Option BinaryOp
  | "add" => some .add
  | "sub" => some .sub
  | "mul" => some .mul
  | "div" => some .div
  | "rem" => some .rem
  | "eq" => some .eq
  | "ne" => some .ne
  | "lt" => some .lt
  | "le" => some .le
  | "gt" => some .gt
  | "ge" => some .ge
  | "bitAnd" => some .bitAnd
  | "bitOr" => some .bitOr
  | "andAlso" => some .andAlso
  | "orElse" => some .orElse
  | "coalesce" => some .coalesce
  | _ => none

def toJson (op : BinaryOp) : Json := .str op.word

def ofJsonAt? (place : Place) (j : Json) : Option BinaryOp :=
  (j.choice? place).bind ofWord?

def ofJson? (j : Json) : Option BinaryOp := ofJsonAt? .outside j

end BinaryOp

namespace AssignOp

/-- The arithmetic operator of a compound assignment. -/
def binary : AssignOp → Option BinaryOp
  | .assign => none
  | .add => some .add
  | .sub => some .sub
  | .mul => some .mul
  | .div => some .div
  | .rem => some .rem

def symbol : AssignOp → String
  | .assign => "="
  | .add => "+="
  | .sub => "-="
  | .mul => "*="
  | .div => "/="
  | .rem => "%="

def word : AssignOp → String
  | .assign => "assign"
  | .add => "add"
  | .sub => "sub"
  | .mul => "mul"
  | .div => "div"
  | .rem => "rem"

def ofWord? : String → Option AssignOp
  | "assign" => some .assign
  | "add" => some .add
  | "sub" => some .sub
  | "mul" => some .mul
  | "div" => some .div
  | "rem" => some .rem
  | _ => none

def toJson (op : AssignOp) : Json := .str op.word

def ofJsonAt? (place : Place) (j : Json) : Option AssignOp :=
  (j.choice? place).bind ofWord?

def ofJson? (j : Json) : Option AssignOp := ofJsonAt? .outside j

end AssignOp

@[simp]
theorem Direction.ofJsonAt?_toJson (place : Place) (d : Direction) :
    Direction.ofJsonAt? place d.toJson = some d := by
  cases d <;> rfl

@[simp]
theorem UnaryOp.ofJsonAt?_toJson (place : Place) (op : UnaryOp) :
    UnaryOp.ofJsonAt? place op.toJson = some op := by
  cases op <;> rfl

@[simp]
theorem BinaryOp.ofJsonAt?_toJson (place : Place) (op : BinaryOp) :
    BinaryOp.ofJsonAt? place op.toJson = some op := by
  cases op <;> rfl

@[simp]
theorem AssignOp.ofJsonAt?_toJson (place : Place) (op : AssignOp) :
    AssignOp.ofJsonAt? place op.toJson = some op := by
  cases op <;> rfl

end Workflow
