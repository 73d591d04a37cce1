import Workflow.Activity.Build.Monad
import Workflow.Model.Basic

/-!
# Errors about the program

None of the errors found while an activity is built is a fault of the compiler. What is wrong with a
node is reported in the unit that is built, except by the accessors of a node, which report the span
of the node as it is.
-/

namespace Workflow

variable {e : CompileError}

def Cause.isInternal : Cause → Bool
  | .internal _ | .alreadyRedirected _ => true
  | _ => false

theorem Cause.isInternal_eq (cause : Cause) :
    cause.isInternal = (cause.code == "W090" || cause.code == "W091") := by
  cases cause <;> simp [isInternal, code]

namespace CompileError

/-- The error says that the oracle did not answer for a fragment. -/
def IsUnanswered (e : CompileError) : Prop :=
  ∃ m, e.cause = .internal s!"fragment {markerText m} missing from the semantic model"

theorem not_isUnanswered_of_cause (h : e.cause.isInternal = false) : ¬ e.IsUnanswered := by
  rintro ⟨m, hm⟩
  rw [hm] at h
  cases h

/-- Other faults of the compiler are told apart by the first letters of what they say. -/
theorem not_isUnanswered {text : String} {span : Span} (h : text.toList.take 2 ≠ ['f', 'r']) :
    ¬ ((Cause.internal text).error span).IsUnanswered := by
  rintro ⟨m, hm⟩
  obtain rfl : text = _ := Cause.internal.inj hm
  exact h (by simp [toString, String.toList_append])

end CompileError

namespace Diagnostics

def Clear (d : Diagnostics) : Prop := ∀ e ∈ d.errors, ¬ e.IsUnanswered

theorem clear_empty : Clear {} := fun _ he => by cases he

theorem Clear.push {d : Diagnostics} (hd : d.Clear) (he : ¬ e.IsUnanswered) : (d.push e).Clear := by
  intro e' he'
  rcases List.mem_append.1 he' with he' | he'
  · exact hd e' he'
  · rw [List.mem_singleton.1 he']
    exact he

end Diagnostics

/-- If a check fails, then with an error about the program. -/
def Checked {α : Type} (x : Except CompileError α) : Prop :=
  ∀ e, x = .error e → e.cause.isInternal = false

section Checks

variable {α β : Type}

theorem checked_ok (v : α) : Checked (.ok v) := by
  rintro _ ⟨⟩

theorem checked_error {cause : Cause} (h : cause.isInternal = false) :
    Checked (.error (cause.error span) : Except CompileError α) := by
  rintro _ ⟨⟩
  exact h

theorem Checked.bind {x : Except CompileError α} {f : α → Except CompileError β} (hx : Checked x)
    (hf : ∀ v, Checked (f v)) : Checked (x >>= f) := by
  cases x with
  | error e =>
    rintro _ ⟨⟩
    exact hx e rfl
  | ok v => exact hf v

variable (n : ParseNode) (name : String)

@[simp]
theorem checked_require : Checked (n.require name) := by
  unfold ParseNode.require
  split
  · exact checked_ok _
  · exact checked_error rfl

@[simp]
theorem checked_requireText : Checked n.requireText := by
  unfold ParseNode.requireText
  split
  · exact checked_ok _
  · exact checked_error rfl

@[simp]
theorem checked_requireExpr : Checked (n.requireExpr name) := by
  refine (checked_require n name).bind fun m => ?_
  split
  · exact checked_ok _
  · exact checked_error rfl

@[simp]
theorem checked_declare (a : Activity) (st : Store) : Checked (a.declare st) := by
  unfold Activity.declare
  split
  · exact checked_error rfl
  · exact checked_ok _

end Checks

/-! ### Where errors are -/

/-- A unit that is built, and the errors of the accessors of the nodes that it is built from. -/
structure Source where
  unit : Nat
  refused : CompileError → Prop

/-- The error is about the program, and it is in the unit unless an accessor gave it. -/
structure CompileError.Blames (e : CompileError) (S : Source) : Prop where
  program : e.cause.isInternal = false
  place : e.span.unit = S.unit ∨ S.refused e

namespace ParseNode

/-- An accessor of the node fails with the error. -/
inductive Refuses (n : ParseNode) (e : CompileError) : Prop
  | member (name : String) (h : n.require name = .error e)
  | text (h : n.requireText = .error e)
  | expr (name : String) (h : n.requireExpr name = .error e)

theorem Refuses.program {n : ParseNode} (h : n.Refuses e) : e.cause.isInternal = false := by
  cases h with
  | member name h => exact checked_require n name e h
  | text h => exact checked_requireText n e h
  | expr name h => exact checked_requireExpr n name e h

/-- A node and the nodes inside it. -/
inductive Contains (n : ParseNode) : ParseNode → Prop
  | self : Contains n n
  | member {m l : ParseNode} {name : String} (h : Contains n m) (hl : m.member name = some l) :
    Contains n l
  | item {m l : ParseNode} (h : Contains n m) (hl : l ∈ m.items) : Contains n l

theorem member_of_require {n m : ParseNode} (h : n.require name = .ok m) :
    n.member name = some m := by
  unfold require at h
  split at h <;> cases h
  assumption

def source (n : ParseNode) (unit : Nat) : Source :=
  ⟨unit, fun e => ∃ m, n.Contains m ∧ m.Refuses e⟩

/-- The node is at most that deep, and the errors of its accessors are those of the source. -/
def Below (S : Source) : Nat → ParseNode → Prop
  | 0, _ => False
  | d + 1, n => (∀ e, n.Refuses e → S.refused e) ∧
      (∀ name m, n.member name = some m → Below S d m) ∧ ∀ m ∈ n.items, Below S d m

variable {S : Source} {d : Nat} {n m : ParseNode}

theorem Below.blames (h : n.Below S d) (he : n.Refuses e) : e.Blames S := by
  cases d with
  | zero => exact h.elim
  | succ d => exact ⟨he.program, .inr (h.1 e he)⟩

theorem Below.member (h : n.Below S (d + 1)) (hm : n.member name = some m) :
    m.Below S d := h.2.1 name m hm

theorem Below.item (h : n.Below S (d + 1)) (hm : m ∈ n.items) : m.Below S d := h.2.2 m hm

theorem Below.succ (h : n.Below S d) : n.Below S (d + 1) := by
  induction d generalizing n with
  | zero => exact h.elim
  | succ d ih =>
    exact ⟨h.1, fun name m hm => ih (h.2.1 name m hm), fun m hm => ih (h.2.2 m hm)⟩

theorem Contains.isBelow (h : n.Contains m) (unit : Nat) (hd : m.depth ≤ d) :
    m.Below (n.source unit) d := by
  induction d generalizing m with
  | zero =>
    have hpos := m.depth_eq
    omega
  | succ d ih =>
    refine ⟨fun e he => ⟨m, h, he⟩, fun name l hl => ?_, fun l hl => ?_⟩
    · have hless := depth_lt_of_member hl
      exact ih (h.member hl) (by omega)
    · have hless := depth_lt_of_mem_items hl
      exact ih (h.item hl) (by omega)

end ParseNode

end Workflow
