import Workflow.Json.Record

/-!
# Source spans

A span is a region of the source text of one compilation unit, with lines and columns counted from
one. Spans come with the parse tree and are carried through every pass, so that an error found late
still points at the text it is about. A span at line and column zero is unknown.
-/

namespace Workflow

/-- A region of source text. -/
structure Span where
  unit : Nat := 0
  line : Nat := 0
  column : Nat := 0
  endLine : Nat := 0
  /-- The column just past the region on its last line. -/
  endColumn : Nat := 0
deriving DecidableEq, Repr, Inhabited

namespace Span

def point (line column : Nat) : Span :=
  { line := line, column := column, endLine := line, endColumn := column }

def isUnknown (s : Span) : Bool := s.line == 0 && s.column == 0

def inUnit (s : Span) (unit : Nat) : Span := { s with unit := unit }

def text (s : Span) : String :=
  if s.isUnknown then s!"unit {s.unit}" else s!"unit {s.unit}:{s.line}:{s.column}"

def toJson (s : Span) : Json :=
  .obj [("unit", .nat s.unit), ("line", .nat s.line), ("column", .nat s.column),
    ("endLine", .nat s.endLine), ("endColumn", .nat s.endColumn)]

/-- The numbers fit into 32 bits; only the line and the column have to be there. -/
def ofJson? (j : Json) : Option Span := do
  let r ← Json.Record.ofJson? ["unit", "line", "column", "endLine", "endColumn"] j
  return {
    unit := (← r.defaulted "unit" 0 (Json.word? 32)), line := (← r.required "line" (Json.word? 32))
    column := (← r.required "column" (Json.word? 32))
    endLine := (← r.defaulted "endLine" 0 (Json.word? 32))
    endColumn := (← r.defaulted "endColumn" 0 (Json.word? 32)) }

@[simp]
theorem inUnit_unit (s : Span) (unit : Nat) : (s.inUnit unit).unit = unit := rfl

@[simp]
theorem inUnit_inUnit (s : Span) (unit other : Nat) :
    (s.inUnit other).inUnit unit = s.inUnit unit := rfl

@[simp]
theorem isUnknown_inUnit (s : Span) (unit : Nat) : (s.inUnit unit).isUnknown = s.isUnknown := rfl

end Span

end Workflow
