import Mathlib.Algebra.BigOperators.Intervals
import Workflow.Proofs.Build.Activity

/-!
# Sums over the statements of an activity

As the statements inside a statement fill the places after it, what a pass adds up for the tree is
what the statements of the arena have themselves.
-/

namespace Workflow

namespace Activity

variable {a : Activity} {p : Option StmtId} {xs : List StmtId} {lo hi : Nat}

/-- Every statement is linked to what it refers to, and what is inside comes after it, in order. -/
structure Ordered (a : Activity) : Prop where
  linked : ∀ i, a.Linked i (a.kind i)
  tag : ∀ i, a.tag i = (a.kind i).tag
  pairwise : ∀ i, (a.kind i).children.Pairwise (· < ·)
  after : ∀ i, ∀ m ∈ (a.kind i).children, i < m

theorem Fills.ordered (hf : a.Fills p xs lo hi) (hlo : lo ≤ i) (hhi : i < hi) :
    a.Linked i (a.kind i) ∧ a.tag i = (a.kind i).tag ∧ (a.kind i).children.Pairwise (· < ·) ∧
      ∀ m ∈ (a.kind i).children, i < m := by
  induction hf with
  | nil => omega
  | @cons _ _ lo mid _ _ htag hlinked hin _ ihi iha =>
    rcases Nat.lt_trichotomy i lo with h | rfl | h
    · omega
    · exact ⟨hlinked, htag, hin.pairwise, fun m hm => hin.mem_le hm⟩
    · rcases Nat.lt_or_ge i mid with h' | h'
      · exact ihi h h'
      · exact iha h' hhi

theorem WellBuilt.ordered (ha : a.WellBuilt) : a.Ordered := by
  have hall : ∀ i, a.Linked i (a.kind i) ∧ a.tag i = (a.kind i).tag ∧
      (a.kind i).children.Pairwise (· < ·) ∧ ∀ m ∈ (a.kind i).children, i < m := by
    intro i
    by_cases hi : i < a.stmts.size
    · exact ha.fills.ordered (Nat.zero_le i) hi
    · have hk : a.kind i = .empty := kind_eq_empty (Nat.le_of_not_lt hi)
      have ht : a.tag i = .empty := by rw [tag, Array.getElem?_eq_none (Nat.le_of_not_lt hi)]
      rw [hk, ht]
      refine ⟨⟨chained_of_unchained ?_, fun h => (by cases h), ?_, ?_, ruled_of_face rfl rfl rfl⟩,
        rfl, List.Pairwise.nil, ?_⟩
      all_goals simp [StmtKind.children, StmtKind.parts, StmtKind.item]
  exact ⟨fun i => (hall i).1, fun i => (hall i).2.1, fun i => (hall i).2.2.1,
    fun i => (hall i).2.2.2⟩

section Sums

variable {M : Type} [AddCommMonoid M] (own : StmtId → M)

def upTo (a : Activity) : Nat → StmtId → M
  | 0, _ => 0
  | n + 1, i => own i + ((a.kind i).children.map (a.upTo n)).sum

def total (a : Activity) (i : StmtId) : M := a.upTo own (a.stmts.size - i) i

variable {own}

theorem upTo_of_size_le (hown : ∀ i, a.stmts.size ≤ i → own i = 0) {i : StmtId}
    (hi : a.stmts.size ≤ i) (n : Nat) : a.upTo own n i = 0 := by
  cases n with
  | zero => rfl
  | succ n =>
    rw [upTo, kind_eq_empty hi, hown i hi]
    exact add_zero _

variable (hown : ∀ i, a.stmts.size ≤ i → own i = 0) (ha : a.Ordered)

include hown ha

/-- No statement lies deeper than there are statements after it. -/
theorem upTo_eq {n k : Nat} {i : StmtId} (hn : a.stmts.size - i ≤ n)
    (hk : a.stmts.size - i ≤ k) : a.upTo own n i = a.upTo own k i := by
  induction n generalizing k i with
  | zero => rw [upTo_of_size_le hown (by omega), upTo_of_size_le hown (by omega)]
  | succ n ih =>
    cases k with
    | zero => rw [upTo_of_size_le hown (by omega), upTo_of_size_le hown (by omega)]
    | succ k =>
      rw [upTo, upTo]
      congr 2
      refine List.map_congr_left fun m hm => ?_
      have hlt : @LT.lt Nat _ i m := ha.after i m hm
      exact ih (by omega) (by omega)

/-- The sum over a statement is its own share and the sums over the statements inside it. -/
theorem total_eq (i : StmtId) :
    a.total own i = own i + ((a.kind i).children.map (a.total own)).sum := by
  have hstep : a.total own i = a.upTo own (a.stmts.size - i + 1) i :=
    upTo_eq hown ha (Nat.le_refl _) (Nat.le_succ _)
  rw [hstep, upTo]
  congr 2
  refine List.map_congr_left fun m hm => ?_
  have hlt : @LT.lt Nat _ i m := ha.after i m hm
  exact upTo_eq hown ha (by omega) (Nat.le_refl _)

/-- The sum over statements that fill an interval is that of all statements of the interval. -/
theorem Fills.sum_total (hf : a.Fills p xs lo hi) :
    (xs.map (a.total own)).sum = ∑ i ∈ Finset.Ico lo hi, own i := by
  induction hf with
  | nil => simp
  | @cons _ rest lo mid hi _ _ _ hin hafter ihi iha =>
    have hle := hin.le
    rw [List.map_cons, List.sum_cons, total_eq hown ha lo, ihi, iha,
      ← Finset.sum_Ico_consecutive _ (Nat.le_of_lt hle) hafter.le,
      Finset.sum_eq_sum_Ico_succ_bot hle]

end Sums

end Activity

end Workflow
