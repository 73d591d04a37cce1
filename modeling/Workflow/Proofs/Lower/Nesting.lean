import Workflow.Proofs.Lower.Staging

/-!
# How skips nest

A skip passes over the steps after it, as many as it says. Staging sets each of them to end where
its own steps end, so a skip never reaches past the last step, and the steps that two skips pass over
are apart or one within the other.
-/

namespace Workflow

def Step.over? : Step → Option Nat
  | .node _ => none
  | .skip _ _ _ distance => some distance

namespace StepList

/-- Every skip passes over a step at least and none beyond the last; two of them are apart or
nested. -/
structure Nested (a : List (Option Nat)) : Prop where
  forward : ∀ i k : Nat, a[i]? = some (some k) → 0 < k ∧ i + k < a.length
  apart : ∀ i j k l : Nat, a[i]? = some (some k) → a[j]? = some (some l) → i < j →
    i + k ≤ j ∨ j + l ≤ i + k

namespace Nested

variable {a b : List (Option Nat)}

theorem nil : Nested [] := ⟨by simp, by simp⟩

theorem node : Nested [none] := ⟨by grind, by grind⟩

theorem append (ha : Nested a) (hb : Nested b) : Nested (a ++ b) where
  forward i k h := by
    have := ha.forward i k
    have := hb.forward (i - a.length) k
    grind
  apart i j k l h h' hij := by
    have := ha.forward i k
    have := ha.apart i j k l
    have := hb.apart (i - a.length) (j - a.length) k l
    grind

/-- The steps that a skip passes over may end with another skip, which may reach further. -/
theorem skip (hb : Nested b) (hk : 0 < k) (hle : k ≤ b.length)
    (hwithin : ∀ j l : Nat, b[j]? = some (some l) → j + 1 < k → j + l < k) :
    Nested (some k :: b) where
  forward i l h := by
    cases i with
    | zero => grind
    | succ i =>
      have := hb.forward i l
      grind
  apart i j l m h h' hij := by
    cases j with
    | zero => omega
    | succ j =>
      have := hwithin j m
      cases i with
      | zero => grind
      | succ i =>
        have := hb.apart i j l m
        grind

/-- A skip over all the steps that follow. -/
theorem skipAll (hb : Nested b) : Nested (some (b.length + 1) :: (b ++ [none])) := by
  refine skip (hb.append node) (Nat.succ_pos _) (by simp) fun j l h hj => ?_
  have := hb.forward j l
  grind

theorem operatorSteps {b : List Step} (hb : Nested (b.map Step.over?)) (op : BinaryOp)
    (left right : Expr) (result held : String) (ty heldType : TypeName) :
    Nested ((Stage.operatorSteps op left result held ty heldType b right).map Step.over?) := by
  simpa [Stage.operatorSteps, Stage.operatorStep, Step.over?] using hb.skipAll

theorem choiceSteps {b d : List Step} (hb : Nested (b.map Step.over?))
    (hd : Nested (d.map Step.over?)) (test first second : Expr) (result : String) :
    Nested ((Stage.choiceSteps test result b first d second).map Step.over?) := by
  have hchoice : Nested (some (b.length + 1) :: (b.map Step.over? ++
      some (d.length + 1) :: (d.map Step.over? ++ [none]))) := by
    have hall := hb.append hd.skipAll
    rw [List.length_map] at hall
    refine skip hall (Nat.succ_pos _) (by simp) fun j l h hj => ?_
    have := hb.forward j l
    grind
  simpa [Stage.choiceSteps, Step.over?] using hchoice

end Nested

end StepList

end Workflow
