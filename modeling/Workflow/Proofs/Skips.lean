import Workflow.Proofs.Settled

/-!
# Skips

The steps of a run of code or of a value are walked through from the first position on: a step runs
if the walk is at its position, and the walk goes on behind it or, after a skip that is taken,
behind the steps that this passes over. Skips are nested and never reach past the last step, so the
walk runs steps one after the other and ends behind the last.

The engine walks in the same way through the nodes that the steps become, since nothing but the
guards of the nodes writes the variable of the position.
-/

namespace Workflow

open StepList Option

/-- How far a step moves the position on; `taken` is the outcome of the condition of a skip. -/
def Step.move (taken : Bool) : Step → Nat
  | .node _ => 1
  | .skip _ none _ distance => distance + 1
  | .skip _ (some _) _ distance => if taken then distance + 1 else 1

namespace StepList

/-- The walk goes from a position to the other. -/
def Leads (outcome : Nat → Bool) (steps : List Step) (i j : Nat) : Prop :=
  ∃ step, steps[i]? = some step ∧ j = i + step.move (outcome i)

variable {outcome : Nat → Bool} {steps : List Step}

theorem Leads.lt {i j : Nat} (h : Leads outcome steps i j) : i < j := by
  obtain ⟨step, -, rfl⟩ := h
  refine Nat.lt_add_of_pos_right ?_
  unfold Step.move
  split <;> grind

end StepList

/-- None of the names is the given one. -/
def Mention.Avoid (x : String) (ms : List Mention) : Prop := All (fun m => m.name ≠ x) ms

instance (x : String) (ms : List Mention) : Decidable (Mention.Avoid x ms) :=
  inferInstanceAs (Decidable (∀ m ∈ ms, m.name ≠ x))

namespace Engine
open Mention
variable {H : Runtime} {answer : Answer} {bound : Nat} {x : String} {ρ ρ' : World String}

theorem vars_iterate {test : World String → Option (Bool × World String)}
    {body : World String → Option (World String)}
    (htest : ∀ {ρ b ρ'}, test ρ = some (b, ρ') → ρ'.vars x = ρ.vars x)
    (hbody : ∀ {ρ ρ'}, body ρ = some ρ' → ρ'.vars x = ρ.vars x) (n : Nat)
    (h : iterate test body n ρ = some ρ') : ρ'.vars x = ρ.vars x := by
  induction n generalizing ρ with
  | zero => cases h
  | succ n ih =>
    obtain ⟨⟨b, ρ₁⟩, ht, h⟩ := bind_eq_some_iff.1 h
    cases b with
    | false =>
      cases h
      exact htest ht
    | true =>
      obtain ⟨ρ₂, hb, h⟩ := bind_eq_some_iff.1 h
      exact (ih h).trans ((hbody hb).trans (htest ht))

mutual
theorem vars_eval (e : Expr) {ρ ρ' : World String} {v : Value} (hx : Avoid x e.mentions)
    (h : eval H bound e ρ = some (v, ρ')) : ρ'.vars x = ρ.vars x := by
  cases e with
  | literal => cases h; rfl
  | name =>
    obtain ⟨_, _, h⟩ := map_eq_some_iff.1 h
    cases h
    rfl
  | call o f args =>
    obtain ⟨hf, hargs⟩ := all_append.1 hx
    unfold eval at h
    split at h
    all_goals try cases ‹Expr.call .. = _›
    · next y method _ =>
      split at h
      · obtain ⟨_, _, h⟩ := map_eq_some_iff.1 h
        cases h
        rfl
      · split at h
        · obtain ⟨⟨a, ρ₁⟩, ha, h⟩ := bind_eq_some_iff.1 h
          cases h
          rw [World.vars_set_of_ne]
          · exact vars_evalSecond args hargs ha
          · exact Ne.symm (hf _ List.mem_cons_self)
        · cases h
    · cases h
  | unary o op e =>
    obtain ⟨⟨a, ρ₁⟩, ha, h⟩ := bind_eq_some_iff.1 h
    dsimp only at h
    split at h
    · cases h
    · obtain ⟨_, -, h⟩ := bind_eq_some_iff.1 h
      cases h
      exact vars_eval e hx ha
  | binary o op l r =>
    obtain ⟨hl, hr⟩ := all_append.1 hx
    obtain ⟨⟨a, ρ₁⟩, ha, h⟩ := bind_eq_some_iff.1 h
    have hleft := vars_eval l hl ha
    dsimp only [Runtime.operate] at h
    split at h
    · cases h
      exact hleft
    · obtain ⟨⟨b, ρ₂⟩, hb, h⟩ := bind_eq_some_iff.1 h
      obtain ⟨_, -, h⟩ := bind_eq_some_iff.1 h
      cases h
      exact (vars_eval r hr hb).trans hleft
  | conditional o c y n =>
    obtain ⟨hc, hyn⟩ := all_append.1 hx
    obtain ⟨hy, hn⟩ := all_append.1 hyn
    obtain ⟨⟨a, ρ₁⟩, ha, h⟩ := bind_eq_some_iff.1 h
    obtain ⟨b, -, h⟩ := bind_eq_some_iff.1 h
    have htest := vars_eval c hc ha
    split at h
    · exact (vars_eval y hy h).trans htest
    · exact (vars_eval n hn h).trans htest
  | cast o ty e => exact vars_eval e hx h
  | block o body value =>
    obtain ⟨hb, hv⟩ := all_append.1 hx
    obtain ⟨ρ₁, hrun, h⟩ := bind_eq_some_iff.1 h
    exact (vars_evalOption value hv h).trans (vars_execList body hb hrun)
  | _ => cases h
termination_by structural e

theorem vars_evalSecond (args : List Argument) {ρ ρ' : World String} {v : Value}
    (hx : Avoid x (Argument.mentionsList args)) (h : evalSecond H bound args ρ = some (v, ρ')) :
    ρ'.vars x = ρ.vars x := by
  match args with
  | [] | [_] => cases h
  | .mk _ _ :: .mk _ e :: _ =>
    exact vars_eval e (all_append.1 (all_append.1 hx).2).1 h
termination_by structural args

theorem vars_evalOption (e : Option Expr) {ρ ρ' : World String} {v : Value}
    (hx : Avoid x (Expr.mentionsOpt e)) (h : evalOption H bound e ρ = some (v, ρ')) :
    ρ'.vars x = ρ.vars x := by
  cases e with
  | none => cases h; rfl
  | some e => exact vars_eval e hx h
termination_by structural e

theorem vars_exec (stmt : CodeStmt) {ρ ρ' : World String} (hx : Avoid x stmt.mentions)
    (h : exec H bound stmt ρ = some ρ') : ρ'.vars x = ρ.vars x := by
  cases stmt with
  | eval e =>
    obtain ⟨⟨v, ρ₁⟩, he, h⟩ := map_eq_some_iff.1 h
    cases h
    exact vars_eval e hx he
  | declare y ty init span =>
    obtain ⟨hy, hinit⟩ := all_cons.1 hx
    obtain ⟨⟨v, ρ₁⟩, he, h⟩ := bind_eq_some_iff.1 h
    cases h
    exact (World.vars_set_of_ne _ _ (Ne.symm hy)).trans (vars_evalOption init hinit he)
  | block body => exact vars_execList body hx h
  | branch c y n =>
    obtain ⟨hc, hyn⟩ := all_append.1 hx
    obtain ⟨hy, hn⟩ := all_append.1 hyn
    obtain ⟨⟨a, ρ₁⟩, ha, h⟩ := bind_eq_some_iff.1 h
    obtain ⟨b, -, h⟩ := bind_eq_some_iff.1 h
    have htest := vars_eval c hc ha
    split at h
    · exact (vars_exec y hy h).trans htest
    · exact (vars_execElse n hn h).trans htest
  | loop c body =>
    obtain ⟨hc, hbody⟩ := all_append.1 hx
    refine vars_iterate (fun {ρ b ρ'} htest => ?_) (fun hb => vars_exec body hbody hb) bound h
    obtain ⟨⟨a, ρ₁⟩, ha, htest⟩ := bind_eq_some_iff.1 htest
    obtain ⟨_, -, htest⟩ := bind_eq_some_iff.1 htest
    cases htest
    exact vars_eval c hc ha
termination_by structural stmt

theorem vars_execList (body : List CodeStmt) {ρ ρ' : World String}
    (hx : Avoid x (CodeStmt.mentionsList body)) (h : execList H bound body ρ = some ρ') :
    ρ'.vars x = ρ.vars x := by
  cases body with
  | nil => cases h; rfl
  | cons stmt rest =>
    obtain ⟨hs, hrest⟩ := all_append.1 hx
    obtain ⟨ρ₁, hrun, h⟩ := bind_eq_some_iff.1 h
    exact (vars_execList rest hrest h).trans (vars_exec stmt hs hrun)
termination_by structural body

theorem vars_execElse (n : Option CodeStmt) {ρ ρ' : World String}
    (hx : Avoid x (CodeStmt.mentionsOpt n)) (h : execElse H bound n ρ = some ρ') :
    ρ'.vars x = ρ.vars x := by
  cases n with
  | none => cases h; rfl
  | some stmt => exact vars_exec stmt hx h
termination_by structural n
end

end Engine

/-! ### The walk of the engine -/

section Walk

open Mention

variable (H : Runtime) (answer : Answer) (bound : Nat)

/-- What a step does besides moving the position, with the outcome of its condition. -/
def Step.work : Step → World String → Option (Bool × World String)
  | .node n, ρ => (Engine.run H answer bound n ρ).map (true, ·)
  | .skip before none onSkip _, ρ => (Engine.execList H bound (before ++ onSkip) ρ).map (true, ·)
  | .skip before (some test) onSkip _, ρ => do
    let ρ ← Engine.execList H bound before ρ
    let (v, ρ) ← Engine.eval H bound test ρ
    if ← v.asBool then (Engine.execList H bound onSkip ρ).map (true, ·) else return (false, ρ)

variable {H answer bound} {x : String} {step : Step} {ρ ρ' : World String} {steps : List Step}

namespace Engine

/-- The outcomes of the conditions in a run through the nodes of steps. -/
def outcome (H : Runtime) (answer : Answer) (bound : Nat) (x : String) (steps : List Step)
    (ρ : World String) (i : Nat) : Bool :=
  (do
    let ρ ← runList H answer bound (indexedFrom x 0 (steps.take i)) ρ
    let step ← steps[i]?
    return (← step.work H answer bound ρ).1).getD true

variable {i : Nat}

variable (hsteps : ∀ step ∈ steps, step.IsSimple ∧ Avoid x step.mentions)
  (hρ : ρ.vars x = some (.int 0))

include hsteps hρ

end Engine

end Walk

namespace LowerContext

variable {c : LowerContext} {site : Site} {s t : StageState}

end LowerContext

/-! ### Staged code -/

section Staged

open Mention

namespace LowerContext.View

variable {site : Site} {V : site.context.Vocabulary}

end LowerContext.View

end Staged

end Workflow
