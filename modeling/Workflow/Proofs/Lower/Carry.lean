import Workflow.Proofs.Lower.Derivation
import Workflow.Proofs.Lower.Segment
import Workflow.Proofs.Lower.Yield

/-!
# Steps that carry source code out

Steps carry source code out if they take every world that agrees to one that agrees afterwards, move
the position behind them, and change no result variable of before. The rules are those of a program
logic: nothing to do, one after the other, and one rule for each kind of step.
-/

namespace Workflow

open Lower

open Source (Rest)
open StepList (Positioned KeepsIndex moved)

/-- A variable for the position suits steps: it has a generated name, and it is there if one of them
is a skip. -/
structure Fits (index : Option String) (steps : List Step) : Prop where
  named : ∀ x, index = some x → ∃ n, x = indexName n
  plain : index = none → ∀ step ∈ steps, ∃ n, step = .node n

namespace Fits

variable {index : Option String} {a b : List Step}

theorem left (h : Fits index (a ++ b)) : Fits index a where
  named := h.named
  plain hi step hs := h.plain hi step (List.mem_append_left _ hs)

theorem right (h : Fits index (a ++ b)) : Fits index b where
  named := h.named
  plain hi step hs := h.plain hi step (List.mem_append_right _ hs)

theorem tail (h : Fits index (step :: a)) : Fits index a where
  named := h.named
  plain hi s hs := h.plain hi s (List.mem_cons_of_mem _ hs)

/-- Where there is a skip there is a variable for the position. -/
theorem exists_of_skip (h : Fits index (.skip before condition onSkip distance :: a)) :
    ∃ n, index = some (indexName n) := by
  cases index with
  | none =>
    obtain ⟨n, hn⟩ := h.plain rfl _ List.mem_cons_self
    cases hn
  | some x =>
    obtain ⟨n, rfl⟩ := h.named x rfl
    exact ⟨n, rfl⟩

end Fits

namespace LowerContext

variable {c : LowerContext}

/-- Neither stores nor results up to a number nor the position nor the calls were changed. -/
structure Quiet (c : LowerContext) (index : Option String) (n : Nat) (ρ ρ' : World String) :
    Prop where
  handles : ∀ x, c.IsHandle x → ρ'.vars x = ρ.vars x
  trace : ρ'.trace = ρ.trace
  stable : Stable n ρ ρ'
  index : KeepsIndex index ρ ρ'

namespace Quiet

variable {index : Option String} {n : Nat} {ρ ρ' ρ'' : World String}

theorem trans (h : c.Quiet index n ρ ρ') (h' : c.Quiet index n ρ' ρ'') : c.Quiet index n ρ ρ'' where
  handles x hx := (h'.handles x hx).trans (h.handles x hx)
  trace := h'.trace.trans h.trace
  stable := h.stable.trans h'.stable (Nat.le_refl n)
  index x hx := (h'.index x hx).trans (h.index x hx)

theorem set (ρ : World String) (v : Value) (hx : ¬ c.IsHandle x)
    (hn : ∀ i ≤ n, x ≠ resultName i) (hi : index ≠ some x) : c.Quiet index n ρ (ρ.set x v) where
  handles _ hy := World.vars_set_of_ne ρ v fun heq => hx (heq ▸ hy)
  trace := rfl
  stable i hi := World.vars_set_of_ne ρ v fun heq => hn i hi heq.symm
  index _ hy := World.vars_set_of_ne ρ v fun heq => hi (heq ▸ hy)

theorem agrees (h : c.Quiet index n ρ ρ') (hag : c.Agrees w ρ) : c.Agrees w ρ' where
  vars id x hx := (h.handles x ⟨id, hx⟩).trans (hag.vars id x hx)
  trace := h.trace.trans hag.trace

end Quiet

section Generated

variable {index : Option String} {steps : List Step} {n i : Nat} (hc : c.HandlesApart)
include hc

theorem quiet_set_result (hfit : Fits index steps) (ρ : World String) (v : Value) (hlt : n < i) :
    c.Quiet index n ρ (ρ.set (resultName i) v) := by
  refine .set ρ v (hc.not_resultName i) ?_ ?_
  · intro j hj heq
    rw [resultName_inj] at heq
    omega
  · intro heq
    obtain ⟨m, hm⟩ := hfit.named _ heq
    exact resultName_ne_indexName i m hm

theorem quiet_set_held (hfit : Fits index steps) (ρ : World String) (v : Value) :
    c.Quiet index n ρ (ρ.set (heldName i) v) := by
  refine .set ρ v (hc.not_heldName i) (fun j _ => heldName_ne_resultName i j) ?_
  intro heq
  obtain ⟨m, hm⟩ := hfit.named _ heq
  exact heldName_ne_indexName i m hm

theorem Frame.keepsIndex (h : c.Frame ρ ρ') (hfit : Fits index steps) : KeepsIndex index ρ ρ' := by
  intro x hx
  obtain ⟨m, rfl⟩ := hfit.named x hx
  exact h _ (hc.not_indexName m)

theorem Agrees.moved (h : c.Agrees w ρ)
    (hfit : Fits index steps) (position : Nat) : c.Agrees w (moved index position ρ) := by
  cases index with
  | none => exact h
  | some x =>
    obtain ⟨m, rfl⟩ := hfit.named x rfl
    exact h.set_of_not_isHandle (hc.not_indexName m) _

omit hc in
theorem stable_moved (hfit : Fits index steps) (n position : Nat) (ρ : World String) :
    Stable n ρ (StepList.moved index position ρ) := by
  cases index with
  | none => exact .refl n ρ
  | some x =>
    obtain ⟨m, rfl⟩ := hfit.named x rfl
    exact fun i _ => World.vars_set_of_ne ρ _ (resultName_ne_indexName i m)

end Generated

/-- The steps carry `S` out, from worlds with `P` to worlds with `Q`, and change no result variable
up to a number. -/
def Carries (c : LowerContext) (H : Runtime) (answer : Answer) (bound n : Nat) {κ : Type}
    (P : World String → Prop) (S : World StoreId → Option (κ × World StoreId))
    (steps : List Step) (Q : World String → κ → Prop) : Prop :=
  ∀ index, Fits index steps → ∀ position w ρ, c.Agrees w ρ → Positioned index position ρ → P ρ →
    ∀ k w₁, S w = some (k, w₁) →
      ∃ ρ₁, Engine.runFrom H answer bound index position steps ρ = some ρ₁ ∧
        Positioned index (position + steps.length) ρ₁ ∧ c.Agrees w₁ ρ₁ ∧ Stable n ρ ρ₁ ∧ Q ρ₁ k

namespace Carries

variable {H : Runtime} {answer : Answer} {bound n i m : Nat} {κ κ' : Type}
variable {P : World String → Prop} {S : World StoreId → Option (κ × World StoreId)}
variable {a b : List Step} {Q : World String → κ → Prop}

theorem nil (h : ∀ w k w₁, S w = some (k, w₁) → w₁ = w ∧ ∀ ρ, P ρ → Q ρ k) :
    c.Carries H answer bound n P S [] Q := by
  intro index _ position w ρ hag hpos hP k w₁ hS
  obtain ⟨rfl, hQ⟩ := h w k w₁ hS
  exact ⟨ρ, Engine.runFrom_nil, hpos, hag, .refl n ρ, hQ ρ hP⟩

theorem seq {T : κ → World StoreId → Option (κ' × World StoreId)}
    {S' : World StoreId → Option (κ' × World StoreId)} {R : World String → κ' → Prop}
    (h : c.Carries H answer bound n P S a Q)
    (h' : ∀ k, c.Carries H answer bound i (Q · k) (T k) b R) (hle : n ≤ i)
    (hS : ∀ w, S' w = (S w).bind fun r => T r.1 r.2) :
    c.Carries H answer bound n P S' (a ++ b) R := by
  intro index hfit position w ρ hag hpos hP l w₂ hl
  rw [hS] at hl
  obtain ⟨⟨k, w₁⟩, hk, hl⟩ := Option.bind_eq_some_iff.1 hl
  obtain ⟨ρ₁, hrun, hpos₁, hag₁, hst₁, hQ⟩ := h index hfit.left position w ρ hag hpos hP k w₁ hk
  obtain ⟨ρ₂, hrun', hpos₂, hag₂, hst₂, hR⟩ := h' k index hfit.right _ w₁ ρ₁ hag₁ hpos₁ hQ l w₂ hl
  refine ⟨ρ₂, ?_, ?_, hag₂, hst₁.trans hst₂ hle, hR⟩
  · rw [Engine.runFrom_append hrun, hrun']
  · rw [List.length_append, ← Nat.add_assoc]
    exact hpos₂

theorem keep (h : c.Carries H answer bound n (fun _ => True) S a Q) {K : World String → Prop}
    (hK : ∀ ρ ρ', Stable n ρ ρ' → K ρ → K ρ') :
    c.Carries H answer bound n K S a (fun ρ k => K ρ ∧ Q ρ k) := by
  intro index hfit position w ρ hag hpos hP k w₁ hS
  obtain ⟨ρ₁, hrun, hpos₁, hag₁, hst₁, hQ⟩ := h index hfit position w ρ hag hpos trivial k w₁ hS
  exact ⟨ρ₁, hrun, hpos₁, hag₁, hst₁, hK ρ ρ₁ hst₁ hP, hQ⟩

theorem weaken {Q' : World String → κ → Prop} (h : c.Carries H answer bound n P S a Q)
    (hQ : ∀ ρ k, Q ρ k → Q' ρ k) : c.Carries H answer bound n P S a Q' := by
  intro index hfit position w ρ hag hpos hP k w₁ hS
  obtain ⟨ρ₁, hrun, hpos₁, hag₁, hst₁, hk⟩ := h index hfit position w ρ hag hpos hP k w₁ hS
  exact ⟨ρ₁, hrun, hpos₁, hag₁, hst₁, hQ ρ₁ k hk⟩

theorem map (f : κ → κ') {S' : World StoreId → Option (κ' × World StoreId)}
    {R : World String → κ' → Prop} (h : c.Carries H answer bound n P S a Q)
    (hR : ∀ ρ k, Q ρ k → R ρ (f k)) (hS : ∀ w, S' w = (S w).bind fun r => some (f r.1, r.2)) :
    c.Carries H answer bound n P S' a R := by
  intro index hfit position w ρ hag hpos hP l w₁ hl
  rw [hS] at hl
  obtain ⟨⟨k, w'⟩, hk, hl⟩ := Option.bind_eq_some_iff.1 hl
  simp only [Option.some.injEq, Prod.mk.injEq] at hl
  obtain ⟨rfl, rfl⟩ := hl
  obtain ⟨ρ₁, hrun, hpos₁, hag₁, hst₁, hQ⟩ := h index hfit position w ρ hag hpos hP k w' hk
  exact ⟨ρ₁, hrun, hpos₁, hag₁, hst₁, hR ρ₁ k hQ⟩

/-- Two parts one after the other. What is known of the first one has to stay known during the
second. -/
theorem both {κ'' : Type} {T : World StoreId → Option (κ' × World StoreId)}
    {S' : World StoreId → Option (κ'' × World StoreId)} {R : World String → κ' → Prop}
    {V : World String → κ'' → Prop} (f : κ → κ' → κ'') (h : c.Carries H answer bound n P S a Q)
    (h' : c.Carries H answer bound i (fun _ => True) T b R) (hle : n ≤ i)
    (hQ : ∀ k ρ ρ', Stable i ρ ρ' → Q ρ k → Q ρ' k) (hV : ∀ ρ k l, Q ρ k → R ρ l → V ρ (f k l))
    (hS : ∀ w, S' w = (S w).bind fun r => (T r.2).bind fun q => some (f r.1 q.1, q.2)) :
    c.Carries H answer bound n P S' (a ++ b) V := by
  refine h.seq (i := i) (T := fun k w => (T w).bind fun q => some (f k q.1, q.2)) ?_ hle hS
  intro k
  refine (h'.keep (hQ k)).map (f k) (fun ρ l hl => ?_) fun w => rfl
  exact hV ρ k l hl.1 hl.2

theorem bothYield {α β γ : Type} {S : World StoreId → Option (Rest α × World StoreId)}
    {T : World StoreId → Option (Rest β × World StoreId)}
    {S' : World StoreId → Option (Rest γ × World StoreId)}
    {E : World String → Option (α × World String)} {F : World String → Option (β × World String)}
    {G : World String → Option (γ × World String)} (f : Rest α → Rest β → Rest γ)
    (h : c.Carries H answer bound n P S a fun ρ k => c.Yields i ρ E k)
    (h' : c.Carries H answer bound i (fun _ => True) T b fun ρ l => c.Yields m ρ F l)
    (hni : n ≤ i) (him : i ≤ m)
    (hf : ∀ ρ k l, c.Yields m ρ E k → c.Yields m ρ F l → c.Yields m ρ G (f k l))
    (hS : ∀ w, S' w = (S w).bind fun r => (T r.2).bind fun q => some (f r.1 q.1, q.2)) :
    c.Carries H answer bound n P S' (a ++ b) fun ρ k => c.Yields m ρ G k :=
  h.both f h' hni (fun _ _ _ hst hy => hy.mono hst (Nat.le_refl i))
    (fun ρ k l hk hl => hf ρ k l (hk.mono (.refl i ρ) him) hl) hS

end Carries

end LowerContext

end Workflow
