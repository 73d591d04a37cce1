import Workflow.Json.Basic

/-!
# Records and variants in JSON

How typed data is read from a JSON value. A record is an object, or an array of its fields in their
declared order; a variant is an object with its tag as one of the fields, or an array that starts
with the tag. Unknown fields are ignored, and a field that is read must not be repeated. Tags and
choices have more forms inside a tagged value than outside.

A *defaulted* field falls back to its default wherever it is missing. An *optional* field is absent
when it is missing from an object or `null`, but an array has to hold it. An *omissible* field is
both: absent when missing in either form, or `null`.
-/

namespace Workflow.Json

def bool? : Json → Option Bool
  | .bool b => some b
  | _ => none

def str? : Json → Option String
  | .str s => some s
  | _ => none

/-- An integer that fits into an unsigned word of the given number of bits. -/
def word? (bits : Nat) : Json → Option Nat
  | .int n => if 0 ≤ n && n < Nat.pow 2 bits then some n.toNat else none
  | _ => none

/-- An integer that fits into a signed 64-bit word. -/
def int64? : Json → Option Int
  | .int n => if -(Nat.pow 2 63 : Nat) ≤ n && n < Nat.pow 2 63 then some n else none
  | _ => none

def number? : Json → Option Float
  | .float x => some x
  | .int n => some (if 0 ≤ n then n.toNat.toUInt64.toFloat else -(n.natAbs.toUInt64.toFloat))
  | _ => none

/-- Where a value stands: on its own, or at any depth inside a tagged value. -/
inductive Place where
  | outside
  | inside
deriving DecidableEq, Repr, Inhabited

/-- The name of a choice without data: a string, or an object whose one field has that name and the
value `null`. Inside a tagged value the field may also hold an empty object. -/
def choice? (place : Place) : Json → Option String
  | .str s => some s
  | .obj [(name, .null)] => some name
  | .obj [(name, .obj [])] => if place = .inside then some name else none
  | _ => none

/-- The name that a tag gives. Inside a tagged value a tag may also be a number, which counts the
names of the variants in their declared order from zero. -/
def tag? (place : Place) (tags : List String) : Json → Option String
  | .str tag => some tag
  | .int n => if place = .inside && 0 ≤ n then tags[n.toNat]? else none
  | _ => none

def values (key : String) (fields : List (String × Json)) : List Json :=
  (fields.filter fun f => f.1 == key).map (·.2)

def list? {α : Type} (read : Json → Option α) : Json → Option (List α)
  | .arr items => items.mapM read
  | _ => none

def nullable? {α : Type} (read : Json → Option α) : Json → Option (Option α)
  | .null => some none
  | j => (read j).map some

def pair? {α β : Type} (first : Json → Option α) (second : Json → Option β) :
    Json → Option (α × β)
  | .arr [a, b] => do
    let a ← first a
    let b ← second b
    some (a, b)
  | _ => none

/-- The fields a record was given with. -/
structure Record where
  fields : List (String × Json)
  /-- Whether the fields came as an array in declared order. -/
  positional : Bool

namespace Record

/-- The fields of a value; `names` is their declared order. An array must not be longer than it. -/
def ofJson? (names : List String) : Json → Option Record
  | .obj fields => some ⟨fields, false⟩
  | .arr items => if items.length ≤ names.length then some ⟨names.zip items, true⟩ else none
  | _ => none

def required {α : Type} (r : Record) (name : String) (read : Json → Option α) : Option α :=
  match values name r.fields with
  | [j] => read j
  | _ => none

def defaulted {α : Type} (r : Record) (name : String) (default : α) (read : Json → Option α) :
    Option α :=
  match values name r.fields with
  | [] => some default
  | [j] => read j
  | _ => none

/-- A field that an object may leave out. -/
def optional {α : Type} (r : Record) (name : String) (read : Json → Option α) :
    Option (Option α) :=
  match values name r.fields with
  | [] => if r.positional then none else some none
  | [j] => nullable? read j
  | _ => none

/-- A field that an object and the end of an array may leave out. -/
def omissible {α : Type} (r : Record) (name : String) (read : Json → Option α) :
    Option (Option α) :=
  match values name r.fields with
  | [] => some none
  | [j] => nullable? read j
  | _ => none

end Record

/-- A tag and the value that holds the fields of its variant. -/
structure Variant where
  tag : String
  body : Json

/-- The variant of a value whose tag is the field `tagName`, or comes first in an array; `tags` are
the names of the variants in their declared order. -/
def Variant.ofJson? (place : Place) (tagName : String) (tags : List String) :
    Json → Option Variant
  | .obj fields =>
    match values tagName fields with
    | [j] => (tag? place tags j).map fun tag => ⟨tag, .obj fields⟩
    | _ => none
  | .arr (j :: rest) => (tag? place tags j).map fun tag => ⟨tag, .arr rest⟩
  | _ => none

/-- The fields of a variant, in their declared order. -/
def Variant.record? (v : Variant) (names : List String) : Option Record :=
  Record.ofJson? names v.body

end Workflow.Json
