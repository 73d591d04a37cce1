import Workflow.Proofs.Build.Total

/-!
# The statements of an activity form a tree

Every statement inside another one has it as its parent, so no statement is inside two others. The
walk from the root visits each statement once, in the order of the arena. Chains of code statements
lead forward.
-/

namespace Workflow.Activity

open List

variable {a : Activity} {p : Option StmtId} {xs : List StmtId} {lo hi : Nat}

theorem Fills.parent_of_mem {i : Nat} (h : a.Fills p xs lo hi) (hmem : i ∈ xs) : a.parent i = p := by
  induction h with
  | nil => cases hmem
  | cons hp _ _ _ _ _ ih =>
    rcases mem_cons.1 hmem with rfl | hmem
    · exact hp
    · exact ih hmem

theorem Fills.parent_of_mem_children {i m : Nat} (h : a.Fills p xs lo hi) (hlo : lo ≤ i)
    (hhi : i < hi) (hm : m ∈ (a.kind i).children) : a.parent m = some i := by
  induction h with
  | nil => omega
  | @cons _ _ lo mid _ _ _ _ hin _ ihi iha =>
    rcases Nat.lt_trichotomy i lo with h | rfl | h
    · omega
    · exact hin.parent_of_mem hm
    · rcases Nat.lt_or_ge i mid with h' | h'
      · exact ihi h h'
      · exact iha h' hhi

theorem WellBuilt.parent_of_mem_children (ha : a.WellBuilt)
    (hm : m ∈ (a.kind i).children) : a.parent m = some i := by
  by_cases hi : i < a.stmts.size
  · exact ha.fills.parent_of_mem_children (Nat.zero_le i) hi hm
  · rw [kind_eq_empty (Nat.le_of_not_lt hi)] at hm
    cases hm

theorem WellBuilt.lt_of_mem_children (ha : a.WellBuilt)
    (hm : m ∈ (a.kind i).children) : m < a.stmts.size :=
  lt_size_of_parent (ha.parent_of_mem_children hm)

theorem WellBuilt.nodup_children (ha : a.WellBuilt) (i : StmtId) : (a.kind i).children.Nodup :=
  (ha.ordered.pairwise i).imp fun h => Nat.ne_of_lt h

/-- Every place of a filled interval is that of a listed statement or inside an earlier one. -/
theorem Fills.exists_parent (h : a.Fills p xs lo hi) (hlo : lo ≤ i) (hhi : i < hi) :
    i ∈ xs ∨ ∃ m : Nat, m < i ∧ i ∈ (a.kind m).children := by
  induction h with
  | nil => omega
  | @cons _ rest lo mid hi _ _ _ hin _ ihi iha =>
    rcases Nat.lt_or_ge i mid with hmid | hmid
    · by_cases heq : i = lo
      · left
        exact heq ▸ mem_cons_self
      · right
        rcases ihi (by omega) hmid with hmem | hinside
        · exact ⟨lo, by omega, hmem⟩
        · exact hinside
    · rcases iha hmid hhi with hmem | hinside
      · exact .inl (mem_cons_of_mem _ hmem)
      · exact .inr hinside

theorem WellBuilt.root_eq (ha : a.WellBuilt) :
    a.root = 0 ∧ 0 < a.stmts.size ∧ a.parent a.root = none := by
  have hfills := ha.fills
  generalize hroot : a.root = root at hfills
  cases hfills with
  | cons hparent _ _ hin hafter => exact ⟨rfl, Nat.lt_of_lt_of_le hin.le hafter.le, hparent⟩

/-- A statement other than the root is listed once, by a statement before it. -/
theorem WellBuilt.exists_parent (ha : a.WellBuilt) (hpos : 0 < i) (hi : i < a.stmts.size) :
    ∃ m : Nat, m < i ∧ a.parent i = some m ∧ (a.kind m).children.count i = 1 := by
  rcases ha.fills.exists_parent (Nat.zero_le i) hi with hmem | ⟨m, hlt, hmem⟩
  · rw [mem_singleton, ha.root_eq.1] at hmem
    exact absurd hmem (Nat.ne_of_gt hpos)
  · refine ⟨m, hlt, ha.parent_of_mem_children hmem, ?_⟩
    exact count_eq_one_of_mem (ha.nodup_children m) hmem

/-- In a list that is chained forward, a chain leads to the code right after. -/
theorem infix_of_chainsForward (hchain : a.chainsForward xs = true) (hm : m ∈ xs)
    (hn : Lower.chainedTo a m = some n) : [m, n] <:+: xs ∧ (a.kind n).tag = .code := by
  induction xs with
  | nil => cases hm
  | cons first rest ih =>
    cases rest with
    | nil =>
      rw [chainsForward, isUnchained, ← mem_singleton.1 hm, hn] at hchain
      cases hchain
    | cons next rest =>
      rw [chainsForward, Bool.and_eq_true] at hchain
      rcases mem_cons.1 hm with rfl | hm
      · have hnext := hchain.1
        rw [hn, Option.all_some, Bool.and_eq_true, beq_iff_eq, beq_iff_eq] at hnext
        obtain ⟨rfl, htag⟩ := hnext
        exact ⟨⟨[], rest, rfl⟩, htag⟩
      · exact (ih hchain.2 hm).imp_left (·.trans (suffix_cons _ _).isInfix)

/-- What is chained is followed by code in a sequence, to which it is chained. -/
theorem WellBuilt.followed_of_chained (ha : a.WellBuilt)
    (hn : Lower.chainedTo a i = some n) : ∃ p before after,
      a.kind p = .sequence (before ++ i :: n :: after) ∧ (a.kind n).tag = .code := by
  have hi : i < a.stmts.size := by
    refine Nat.lt_of_not_le fun hle => ?_
    rw [chainedTo_eq, kind_eq_empty hle] at hn
    cases hn
  have hpos : 0 < i := by
    refine Nat.pos_of_ne_zero fun h => ?_
    have hroot := ha.unchained
    rw [ha.root_eq.1, ← h, hn] at hroot
    cases hroot
  obtain ⟨p, -, -, hcount⟩ := ha.exists_parent hpos hi
  have hmem : i ∈ (a.kind p).children := one_le_count_iff.1 (Nat.le_of_eq hcount.symm)
  have hchained := (ha.ordered.linked p).chained
  unfold Chained at hchained
  split at hchained
  next htag =>
    obtain ⟨⟨before, after, hin⟩, hcode⟩ := infix_of_chainsForward hchained hmem hn
    obtain ⟨members, hk⟩ : ∃ members, a.kind p = .sequence members := by
      cases hk : a.kind p <;> rw [hk] at htag <;> first | exact ⟨_, rfl⟩ | cases htag
    rw [hk, append_assoc] at hin
    exact ⟨p, before, after, hk.trans (congrArg _ hin.symm), hcode⟩
  · rw [hchained i hmem] at hn
    cases hn

theorem WellBuilt.lt_chained (ha : a.WellBuilt)
    (hn : Lower.chainedTo a i = some n) : i < n ∧ n < a.stmts.size := by
  obtain ⟨p, before, after, hk, -⟩ := ha.followed_of_chained hn
  have hasc := ha.ordered.pairwise p
  rw [hk, StmtKind.children, pairwise_append, pairwise_cons] at hasc
  refine ⟨hasc.2.1.1 n mem_cons_self, ha.lt_of_mem_children (i := p) ?_⟩
  rw [hk]
  simp [StmtKind.children]

/-- The walk over statements that fill an interval visits its places in order. -/
theorem Fills.flatMap_preorderFrom (h : a.Fills p xs lo hi) (hn : hi - lo ≤ n) :
    xs.flatMap (a.preorderFrom n) = range' lo (hi - lo) := by
  induction h generalizing n with
  | nil => simp
  | @cons _ rest lo mid hi _ _ _ hin hafter ihi iha =>
    have hlo := hin.le
    have hmid := hafter.le
    obtain ⟨n, rfl⟩ : ∃ m, n = m + 1 := ⟨n - 1, by omega⟩
    rw [flatMap_cons, preorderFrom, ihi (by omega), iha (by omega), cons_append,
      show hi - lo = (mid - (lo + 1) + (hi - mid)) + 1 by omega, range'_succ,
      ← range'_append_1, show lo + 1 + (mid - (lo + 1)) = mid by omega]

/-- The walk from the root needs no more depth than there are statements. -/
theorem WellBuilt.preorderFrom_root (ha : a.WellBuilt) (hn : a.stmts.size ≤ n) :
    a.preorderFrom n a.root = range a.stmts.size := by
  have h := ha.fills.flatMap_preorderFrom (Nat.le_trans (Nat.sub_le _ _) hn)
  rwa [flatMap_singleton, Nat.sub_zero, ← range_eq_range'] at h

/-- The walk from the root visits every statement once, in the order of the arena. -/
theorem WellBuilt.preorder_eq (ha : a.WellBuilt) : a.preorder = range a.stmts.size :=
  ha.preorderFrom_root (Nat.le_refl _)

end Workflow.Activity
