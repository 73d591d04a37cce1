import Workflow.Tree.Node
import Workflow.Code.Format
import Workflow.Json.Reader

/-!
# The JSON format of programs

A program is an object with the list of its units. As text, a single unit may stand alone. The span
of a node is always written, empty members and items and absent parts are left out.
-/

namespace Workflow

open Json

namespace ParseNode

mutual
def toJson : ParseNode → Json
  | ⟨label, span, members, items, text, code, expr⟩ =>
    .obj ([("label", .str label), ("span", span.toJson)] ++
      (if members.isEmpty then [] else [("members", .obj (membersToJson members))]) ++
      (if items.isEmpty then [] else [("items", .arr (itemsToJson items))]) ++
      fieldOpt "text" str text ++
      fieldOpt "code" (fun body => .arr (CodeStmt.toJsonList body)) code ++
      fieldOpt "expr" Expr.toJson expr)

def membersToJson : List (String × ParseNode) → List (String × Json)
  | [] => []
  | (k, n) :: rest => (k, n.toJson) :: membersToJson rest

def itemsToJson : List ParseNode → List Json
  | [] => []
  | n :: rest => n.toJson :: itemsToJson rest
end

/-- Reads members from an object, each by the given reader. -/
def readMembers? (read : Json → Option ParseNode) : Json → Option (List (String × ParseNode))
  | .obj fields => fields.mapM fun (k, j) => (read j).map (k, ·)
  | _ => none

def read? : Nat → Json → Option ParseNode
  | 0, _ => none
  | n + 1, j => do
    let r ← Record.ofJson? ["label", "span", "members", "items", "text", "code", "expr"] j
    return {
      label := (← r.required "label" str?), span := (← r.defaulted "span" {} Span.ofJson?)
      members := (← r.defaulted "members" [] (readMembers? (read? n)))
      items := (← r.defaulted "items" [] (list? (read? n))), text := (← r.omissible "text" str?)
      code := (← r.omissible "code" (list? CodeStmt.ofJson?))
      expr := (← r.omissible "expr" Expr.ofJson?) }

def ofJson? (j : Json) : Option ParseNode := read? (j.depth + 1) j

end ParseNode

namespace ParseUnit

def toJson (u : ParseUnit) : Json :=
  .obj (fieldOpt "path" str u.path ++ fieldOpt "namespace" str u.ns ++
    [("imports", .strings u.imports), ("activities", .arr (u.activities.map ParseNode.toJson))])

def ofJson? (j : Json) : Option ParseUnit := do
  let r ← Record.ofJson? ["path", "namespace", "imports", "activities"] j
  return {
    path := (← r.omissible "path" str?), ns := (← r.omissible "namespace" str?)
    imports := (← r.defaulted "imports" [] (list? str?))
    activities := (← r.defaulted "activities" [] (list? ParseNode.ofJson?)) }

end ParseUnit

namespace ParseProgram

inductive ReadError where
  /-- The text is no JSON, or nests too deep. -/
  | invalidJson
  | notProgram
  | notUnit
deriving DecidableEq, Repr

def ReadError.message : ReadError → String
  | .invalidJson => "Invalid JSON"
  | .notProgram => "Failed to parse program"
  | .notUnit => "Failed to parse unit"

def toJson (p : ParseProgram) : Json := .obj [("units", .arr (p.units.map ParseUnit.toJson))]

def read? (j : Json) : Option ParseProgram := do
  let r ← Record.ofJson? ["units"] j
  return { units := (← r.required "units" (list? ParseUnit.ofJson?)) }

def ofJson (j : Json) : Except ReadError ParseProgram :=
  match read? j with
  | some p => .ok p
  | none => .error .notProgram

/-- How many arrays and objects a text may nest. -/
def maxLevels : Nat := 127

def ofText (text : String) : Except ReadError ParseProgram :=
  match parse? text (some maxLevels) with
  | none => .error .invalidJson
  | some j =>
    match j.get? "units" with
    | some _ => ofJson j
    | none =>
      match ParseUnit.ofJson? j with
      | some u => .ok { units := [u] }
      | none => .error .notUnit

end ParseProgram

end Workflow
