import Workflow.Activity.Store

/-!
# The markers of a model program

What is known about the markers of a model program: which mark fragments, which declare stores whose
type is to be inferred, and where each comes from. All three are kept in ascending order.
-/

namespace Workflow

/-- The markers of a model program. -/
structure Marking where
  fragments : List Marker := []
  inferred : List Marker := []
  /-- The place of every marker. -/
  spans : List (Marker × Span) := []
deriving Inhabited

namespace Marking

def insertMarker (m : Marker) : List Marker → List Marker
  | [] => [m]
  | k :: rest => if m < k then m :: k :: rest else if m = k then k :: rest
    else k :: insertMarker m rest

/-- Sets the place of a marker in a list by ascending markers. -/
def insertSpan (m : Marker) (span : Span) : List (Marker × Span) → List (Marker × Span)
  | [] => [(m, span)]
  | (k, s) :: rest =>
    if m < k then (m, span) :: (k, s) :: rest
    else if m = k then (m, span) :: rest
    else (k, s) :: insertSpan m span rest

def addFragment (t : Marking) (m : Marker) (span : Span) : Marking :=
  { t with fragments := insertMarker m t.fragments, spans := insertSpan m span t.spans }

def addStorePlace (t : Marking) (s : Store) : Marking :=
  { t with spans := insertSpan s.marker s.span t.spans }

/-- Notes the declaration of a store in a body. -/
def addStore (t : Marking) (s : Store) : Marking :=
  let t := t.addStorePlace s
  if s.ty.isInferred then { t with inferred := insertMarker s.marker t.inferred } else t

def span? (t : Marking) (m : Marker) : Option Span := (t.spans.find? (·.1 == m)).map (·.2)

@[simp]
theorem mem_insertMarker {m k : Marker} {l : List Marker} :
    k ∈ insertMarker m l ↔ k = m ∨ k ∈ l := by
  induction l with
  | nil => simp [insertMarker]
  | cons a rest ih =>
    unfold insertMarker
    split
    · simp
    · split
      · rename_i h
        simp [h]
      · simp [ih, or_left_comm]

end Marking

end Workflow
