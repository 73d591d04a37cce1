/-!
# JSON values

JSON data with the fields of an object in order. Integers and floating-point numbers are told
apart: a number is an integer when it is written without fraction and exponent and fits into 64
bits, and a floating-point number otherwise.
-/

namespace Workflow

inductive Json where
  | null
  | bool (value : Bool)
  | int (value : Int)
  | float (value : Float)
  | str (value : String)
  | arr (items : List Json)
  | obj (fields : List (String × Json))
deriving Inhabited

namespace Json

mutual
/-- How many arrays and objects stand inside each other at the deepest place. -/
def depth : Json → Nat
  | .arr items => depthItems items + 1
  | .obj fields => depthFields fields + 1
  | _ => 0

def depthItems : List Json → Nat
  | [] => 0
  | j :: js => max j.depth (depthItems js)

def depthFields : List (String × Json) → Nat
  | [] => 0
  | (_, j) :: fs => max j.depth (depthFields fs)
end

def find? (key : String) : List (String × Json) → Option Json
  | [] => none
  | (k, j) :: fs => if k = key then some j else find? key fs

/-- Sets the value of a key: in place if the key is there, else at the end. -/
def put (key : String) (value : Json) : List (String × Json) → List (String × Json)
  | [] => [(key, value)]
  | (k, j) :: fs => if k = key then (k, value) :: fs else (k, j) :: put key value fs

/-- The value of a key of an object; nothing else has keys. -/
def get? (key : String) : Json → Option Json
  | .obj fields => find? key fields
  | _ => none

def nat (n : Nat) : Json := .int n

def array {α : Type} (write : α → Json) (items : List α) : Json := .arr (items.map write)

def nats (ns : List Nat) : Json := array nat ns

def strings (ss : List String) : Json := .arr (ss.map .str)

/-- An optional value, written `null` when absent. -/
def orNull {α : Type} (write : α → Json) : Option α → Json
  | none => .null
  | some a => write a

/-- A field of an object that is always written. -/
def field (name : String) (value : Json) : List (String × Json) := [(name, value)]

/-- A field that is left out when there is no value. -/
def fieldOpt {α : Type} (name : String) (write : α → Json) : Option α → List (String × Json)
  | none => []
  | some a => [(name, write a)]

/-- A list field that is left out when the list is empty. -/
def fieldList {α : Type} (name : String) (write : α → Json) (items : List α) :
    List (String × Json) :=
  if items.isEmpty then [] else [(name, .arr (items.map write))]

end Json

end Workflow
