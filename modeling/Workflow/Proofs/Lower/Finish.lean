import Workflow.Proofs.Lower.CodeRun

/-!
# Finished runs

A finished list of steps is a node that starts the variables and then runs the steps. Its variables
are generated ones, so that starting them changes no store and puts the position to zero.
-/

namespace Workflow

open StepList (Positioned)

variable {w : World StoreId} {ρ : World String} {T : World StoreId → Option (World StoreId)}

namespace Engine

variable (H : Runtime) (answer : Answer) (bound : Nat)

theorem run_sequence (vars : List VariableDecl) (nodes : List Node) (ρ : World String) :
    run H answer bound (.sequence vars nodes) ρ =
      (start H bound vars ρ).bind (runList H answer bound nodes) := by
  rw [Node.sequence, Node.ofKind, run, runKind]
  rfl

/-- However a list is finished, its variables are started and its nodes run. -/
theorem runOption_finish (l : StepList) (ρ : World String) : runOption H answer bound l.finish ρ =
      (start H bound l.vars ρ).bind (runList H answer bound l.nodes) := by
  unfold StepList.finish
  split
  case h_1 hvars hnodes => rw [hvars, hnodes, runOption, start, Option.bind_some, runList]
  case h_2 hvars hnodes =>
    rw [hvars, hnodes, runOption, start, Option.bind_some, runList_singleton]
  case h_3 => rw [runOption, run_sequence]

theorem start_append (a b : List VariableDecl) (ρ : World String) :
    start H bound (a ++ b) ρ = (start H bound a ρ).bind (start H bound b) := by
  induction a generalizing ρ with
  | nil => rfl
  | cons v rest ih =>
    rw [List.cons_append, start, start]
    cases v.default with
    | none => exact ih _
    | some e =>
      simp only [Option.bind_eq_bind, Option.bind_assoc]
      exact congrArg _ (funext fun r => ih _)

end Engine

namespace LowerContext

variable {c : LowerContext} {H : Runtime} {answer : Answer} {bound : Nat}

/-- Generated variables are started; a position that is zero or among them is zero afterwards. -/
theorem start_generated (H : Runtime) (bound : Nat) (hc : c.HandlesApart)
    (hindex : ∀ x, index = some x → ∃ n, x = Lower.indexName n)
    (hvars : ∀ v ∈ vars, (∃ n, v.name = Lower.resultName n ∧ v.default = none) ∨
      (index = some v.name ∧ v.default = some (.int 0))) (hag : c.Agrees w ρ) :
    ∃ ρ₀, Engine.start H bound vars ρ = some ρ₀ ∧ c.Agrees w ρ₀ ∧
      ∀ x, index = some x → (ρ.vars x = some (.int 0) ∨ ∃ v ∈ vars, v.name = x ∧
        v.default = some (.int 0)) → ρ₀.vars x = some (.int 0) := by
  induction vars generalizing ρ with
  | nil => exact ⟨ρ, rfl, hag, fun x _ h => h.elim id fun ⟨v, hv, _⟩ => absurd hv List.not_mem_nil⟩
  | cons v rest ih =>
    have hrest : ∀ v ∈ rest, _ := fun v hv => hvars v (List.mem_cons_of_mem _ hv)
    rcases hvars v List.mem_cons_self with ⟨n, hname, hdefault⟩ | ⟨hi, hdefault⟩
    · -- A result variable.
      have hhandle : ¬ c.IsHandle v.name := hname ▸ hc.not_resultName n
      obtain ⟨ρ₀, hstart, hag₀, hzero⟩ :=
        ih hrest (hag.set_of_not_isHandle hhandle (H.start (ρ.vars v.name)))
      refine ⟨ρ₀, ?_, hag₀, fun x hx h => hzero x hx ?_⟩
      · rw [Engine.start, hdefault]
        exact hstart
      · obtain ⟨m, rfl⟩ := hindex x hx
        have hne : Lower.indexName m ≠ v.name := hname ▸ (Lower.resultName_ne_indexName n m).symm
        rcases h with h | ⟨v', hv', hname', hdefault'⟩
        · exact .inl ((World.vars_set_of_ne ρ _ hne).trans h)
        · rcases List.mem_cons.1 hv' with rfl | hv'
          · exact absurd hname'.symm hne
          · exact .inr ⟨v', hv', hname', hdefault'⟩
    · -- The variable of the position.
      have hhandle : ¬ c.IsHandle v.name := by
        obtain ⟨n, hn⟩ := hindex _ hi
        rw [hn]
        exact hc.not_indexName n
      obtain ⟨ρ₀, hstart, hag₀, hzero⟩ := ih hrest (hag.set_of_not_isHandle hhandle (.int 0))
      refine ⟨ρ₀, ?_, hag₀, fun x hx _ => hzero x hx (.inl ?_)⟩
      · rw [Engine.start, hdefault]
        exact hstart
      · obtain rfl : v.name = x := by
          rw [hi] at hx
          exact Option.some.inj hx
        exact World.vars_set_self ρ _ _

theorem start_steps (H : Runtime) (bound : Nat) (hc : c.HandlesApart) {l : StepList}
    (hgen : l.Generated) (hag : c.Agrees w ρ) :
    ∃ ρ₀, Engine.start H bound l.vars ρ = some ρ₀ ∧ c.Agrees w ρ₀ ∧ Positioned l.index 0 ρ₀ := by
  obtain ⟨ρ₀, hstart, hag₀, hzero⟩ :=
    start_generated H bound hc (fun x hx => (hgen.index x hx).1) hgen.vars hag
  exact ⟨ρ₀, hstart, hag₀, fun x hx => hzero x hx (.inr (hgen.index x hx).2)⟩

/-- What is staged from an empty list is done by the steps of the list. -/
theorem Progress.runFrom (hc : c.HandlesApart)
    (h : c.Progress H answer bound { lower := l } t T) (hag : c.Agrees w ρ)
    (hpos : Positioned t.steps.index 0 ρ) (hT : T w = some w₁) :
    ∃ ρ₁, Engine.runFrom H answer bound t.steps.index 0 t.steps.flush.steps ρ = some ρ₁ ∧
      c.Agrees w₁ ρ₁ := by
  have hgen : t.steps.Generated := h.generated StepList.generated_empty
  have hfit : Fits t.steps.index t.steps.steps :=
    ⟨fun x hx => (hgen.index x hx).1, hgen.plain⟩
  have hempty : c.Reaches H answer bound t.steps.index {} ρ ρ :=
    ⟨ρ, Engine.runFrom_nil, hpos, rfl, .refl c ρ⟩
  obtain ⟨ρ₃, hreach, hag₃⟩ := h.reaches _ hfit ρ ρ w w₁ hempty hag hT
  obtain ⟨ρ₁, hrun, -, hag₁⟩ := hreach.flush hc hfit hag₃
  exact ⟨ρ₁, hrun, hag₁⟩

/-- A finished run does what was staged. -/
theorem Progress.finish (hc : c.HandlesApart)
    (h : c.Progress H answer bound { lower := l } t T) (hag : c.Agrees w ρ) (hT : T w = some w₁) :
    ∃ ρ', Engine.runOption H answer bound t.steps.finish ρ = some ρ' ∧ c.Agrees w₁ ρ' := by
  obtain ⟨ρ₀, hstart, hag₀, hpos⟩ :=
    start_steps H bound hc (h.generated StepList.generated_empty) hag
  obtain ⟨ρ₁, hrun, hag₁⟩ := h.runFrom hc hag₀ hpos hT
  refine ⟨ρ₁, ?_, hag₁⟩
  rw [Engine.runOption_finish, hstart, Option.bind_some, StepList.nodes_eq_nodesFrom]
  exact hrun

end LowerContext

end Workflow
