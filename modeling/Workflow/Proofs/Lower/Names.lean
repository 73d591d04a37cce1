import Workflow.Lower.Context

/-!
# Names of generated variables

The lowering names a new variable by a stem and the next number. Stems are words without digits, so
that the name shows both: two generated variables have the same name only if they have the same stem
and the same number.
-/

namespace Workflow.Lower

theorem toList_tempName (stem : String) (n : Nat) : (tempName stem n).toList =
      '_' :: '_' :: ((sanitize stem).toList ++ Nat.toDigits 10 n) := by
  simp [tempName, toString]

theorem takeWhile_append_toDigits (n : Nat) (h : ∀ c ∈ word, c.isDigit = false) :
    (word ++ Nat.toDigits 10 n).takeWhile (fun c => !c.isDigit) = word := by
  have hword : ∀ c ∈ word, (!c.isDigit) = true := by
    intro c hc
    simp [h c hc]
  rw [List.takeWhile_append_of_pos hword]
  cases hd : Nat.toDigits 10 n with
  | nil => simp
  | cons d ds =>
    have hmem : d ∈ Nat.toDigits 10 n := by simp [hd]
    have hdigit : d.isDigit = true := Nat.isDigit_of_mem_toDigits (by decide) (by decide) hmem
    simp [hdigit]

/-- A generated name shows its stem and its number. -/
theorem tempName_inj (h : ∀ c ∈ (sanitize stem).toList, c.isDigit = false)
    (h' : ∀ c ∈ (sanitize stem').toList, c.isDigit = false)
    (heq : tempName stem m = tempName stem' n) : sanitize stem = sanitize stem' ∧ m = n := by
  have hlist : (sanitize stem).toList ++ Nat.toDigits 10 m =
      (sanitize stem').toList ++ Nat.toDigits 10 n := by
    have := congrArg String.toList heq
    simpa [toList_tempName] using this
  have hstem : (sanitize stem).toList = (sanitize stem').toList := by
    rw [← takeWhile_append_toDigits m h, ← takeWhile_append_toDigits n h', hlist]
  refine ⟨String.toList_inj.1 hstem, ?_⟩
  rw [hstem] at hlist
  have hdigits := List.append_cancel_left hlist
  rw [← Nat.ofDigitChars_ten_toDigits (n := m), ← Nat.ofDigitChars_ten_toDigits (n := n), hdigits]

/-- Whether a stem is a word without digits, as the stems of the lowering are. -/
def isStem (stem : String) : Bool := (sanitize stem).toList.all fun c => !c.isDigit

theorem tempName_ne (m n : Nat) (h : isStem stem = true)
    (h' : isStem stem' = true) (hne : sanitize stem ≠ sanitize stem') :
    tempName stem m ≠ tempName stem' n := by
  intro heq
  simp only [isStem, List.all_eq_true, Bool.not_eq_eq_eq_not, Bool.not_true] at h h'
  exact hne (tempName_inj h h' heq).1

theorem tempName_right_inj (h : isStem stem = true)
    (heq : tempName stem m = tempName stem n) : m = n := by
  simp only [isStem, List.all_eq_true, Bool.not_eq_eq_eq_not, Bool.not_true] at h
  exact (tempName_inj h h heq).2

abbrev indexName (n : Nat) : String := tempName "step" n

abbrev resultName (n : Nat) : String := tempName "r" n

abbrev heldName (n : Nat) : String := tempName "l" n

theorem resultName_inj : resultName m = resultName n ↔ m = n :=
  ⟨tempName_right_inj (by decide), fun h => by rw [h]⟩

theorem resultName_ne_indexName (m n : Nat) : resultName m ≠ indexName n :=
  tempName_ne m n (by decide) (by decide) (by decide)

theorem heldName_ne_indexName (m n : Nat) : heldName m ≠ indexName n :=
  tempName_ne m n (by decide) (by decide) (by decide)

theorem heldName_ne_resultName (m n : Nat) : heldName m ≠ resultName n :=
  tempName_ne m n (by decide) (by decide) (by decide)

end Workflow.Lower
