import Workflow.Json.Basic
import Workflow.Decimal.Layout
import Workflow.Text.Quoted

/-!
# JSON text

Two ways to write a value: compact, without any blank, and indented by two spaces for each level,
with one item or field on a line and `[]` and `{}` for empty ones. Fields keep their order.
-/

namespace Workflow.Json

/-- Numbers in JSON text have a decimal point from `0.00001` up to below `10 ^ 16`; outside that
range the exponent shows its sign. -/
def numberLayout : Decimal.Layout := { least := -5, limit := 16, plus := "+", tieUp := false }

/-- One character inside a string: quotes, backslashes and controls are escaped and nothing else. -/
def stringChar (c : Char) : String :=
  if c == '"' then "\\\""
  else if c == '\\' then "\\\\"
  else if 0x20 ≤ c.toNat then String.singleton c
  else if c.toNat == 8 then "\\b"
  else if c.toNat == 9 then "\\t"
  else if c.toNat == 10 then "\\n"
  else if c.toNat == 12 then "\\f"
  else if c.toNat == 13 then "\\r"
  else if c.toNat < 16 then "\\u000" ++ Text.hex c.toNat
  else "\\u00" ++ Text.hex c.toNat

def writeString (out : String) (s : String) : String :=
  (s.toList.foldl (fun out c => out ++ stringChar c) (out ++ "\"")) ++ "\""

/-- The text of a value without inner values. A number out of range has no text of its own. -/
def atom : Json → String
  | .null => "null"
  | .bool true => "true"
  | .bool false => "false"
  | .int n => toString n
  | .float x => if x.isFinite then numberLayout.number x else "null"
  | .str s => writeString "" s
  | .arr _ => "[]"
  | .obj _ => "\x7b\x7d"

mutual
def compactOnto (out : String) : Json → String
  | .arr items => compactItems (out ++ "[") "" items ++ "]"
  | .obj fields => compactFields (out ++ "\x7b") "" fields ++ "\x7d"
  | .str s => writeString out s
  | j => out ++ atom j

/-- Appends items, `sep` before the first one and commas between them. -/
def compactItems (out : String) (sep : String) : List Json → String
  | [] => out
  | j :: js => compactItems (compactOnto (out ++ sep) j) "," js

/-- Appends fields, `sep` before the first one and commas between them. -/
def compactFields (out : String) (sep : String) : List (String × Json) → String
  | [] => out
  | (k, j) :: fs => compactFields (compactOnto (writeString (out ++ sep) k ++ ":") j) "," fs
end

def compact (j : Json) : String := compactOnto "" j

def lineStart (level : Nat) : String := "\n" ++ String.ofList (List.replicate (2 * level) ' ')

mutual
/-- Appends the indented text of a value that stands at a level. -/
def indentedOnto (out : String) (level : Nat) : Json → String
  | .arr [] => out ++ "[]"
  | .arr items => indentedItems (out ++ "[") (level + 1) "" items ++ lineStart level ++ "]"
  | .obj [] => out ++ "\x7b\x7d"
  | .obj fields =>
    indentedFields (out ++ "\x7b") (level + 1) "" fields ++ lineStart level ++ "\x7d"
  | .str s => writeString out s
  | j => out ++ atom j

def indentedItems (out : String) (level : Nat) (sep : String) : List Json → String
  | [] => out
  | j :: js => indentedItems (indentedOnto (out ++ sep ++ lineStart level) level j) level "," js

def indentedFields (out : String) (level : Nat) (sep : String) : List (String × Json) → String
  | [] => out
  | (k, j) :: fs =>
    indentedFields (indentedOnto (writeString (out ++ sep ++ lineStart level) k ++ ": ") level j)
      level "," fs
end

def indented (j : Json) : String := indentedOnto "" 0 j

end Workflow.Json
