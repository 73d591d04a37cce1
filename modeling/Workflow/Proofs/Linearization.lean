import Workflow.Proofs.Lower.Finish
import Workflow.Proofs.Run.Order

/-!
# Linearized runs do what the code says

A run of code is staged into steps, and the finished node schedules the calls and leaves the values
that the code stands for. Where the code writes stores only by whole statements this is direct
evaluation from left to right. Where writes are nested in expressions it is evaluation with the calls
first, which differs from direct evaluation unless the expressions are orderly.
-/

namespace Workflow

open Source

namespace Linearization

variable {c : LowerContext} {fragments : List (List CodeStmt × Option StoreId)} {span : Span}
variable {l : LowerState} {u : Unit} {s : StageState}

/-- A finished run does what the fragments do under any evaluation without other results than the
evaluation with the calls first. -/
theorem finish_of_faithful (hc : c.HandlesApart)
    (hstores : ∀ f ∈ fragments, c.fragmentOnStores writes f.1 f.2 = true)
    (hev : ∀ f ∈ fragments, ∀ e ∈ fragmentExprs f.1 f.2, Faithful H answer c ev e)
    (hstage : Stage.fragments { context := c, span := span } fragments { lower := l } = .ok u s)
    (bound : Nat) (hag : c.Agrees w ρ) (hrun : Source.fragments ev fragments w = some w') :
    ∃ ρ', Engine.runOption H answer bound s.steps.finish ρ = some ρ' ∧ c.Agrees w' ρ' := by
  have hprogress : c.Progress H answer bound { lower := l } s (Source.fragments ev fragments) :=
    LowerContext.fragments_progress hc rfl rfl hstores hev hstage
  exact hprogress.finish hc hag hrun

/-- Direct evaluation of a run of code whose statements write stores only as a whole is what the
finished steps do: they schedule the same calls with the same arguments in the same order, and leave
the same values in all stores. -/
theorem finish_runs_fragments (hc : c.HandlesApart)
    (hstores : ∀ f ∈ fragments, c.fragmentOnStores false f.1 f.2 = true)
    (hstage : Stage.fragments { context := c, span := span } fragments { lower := l } = .ok u s)
    (H : Runtime) (answer : Answer) (bound : Nat) {w w' : World StoreId} {ρ : World String}
    (hag : c.Agrees w ρ) (hrun : Source.fragments (Source.eval H answer c) fragments w = some w') :
    ∃ ρ', Engine.runOption H answer bound s.steps.finish ρ = some ρ' ∧ c.Agrees w' ρ' := by
  refine finish_of_faithful hc hstores (fun f hf => ?_) hstage bound hag hrun
  exact Source.faithful_of_fragment (hstores f hf) (LowerContext.orderly_of_fragment (hstores f hf))

section Sample

def sampleAttribute : SchedulingAttribute where
  nodeType := "Demo.A"
  parameters := [{ name := "value", ty := .int }]
  result := some .int

/-- Two stores, `s` and `x`, for the expressions 1 and 2; a call numbered 3 is scheduled. -/
def sample : LowerContext where
  activity :=
    { name := "Sample"
      stores := #[
        { name := "s", ty := .int, kind := .var, marker := 1, host := .activity, span := {} },
        { name := "x", ty := .int, kind := .var, marker := 2, host := .activity, span := {} }] }
  semantics :=
    { exprs := [
        { expr := 1, symbol := some (.store 1) },
        { expr := 2, symbol := some (.store 2) },
        { expr := 3, symbol := some (.method
            { name := "Invoke", container := "Demo.A", scheduling := some sampleAttribute }) }] }
  maxDepth := 64

def readS : Expr := .name { id := some 1 } "s"

def readX : Expr := .name { id := some 2 } "x"

def callA (e : Expr) : Expr := .call { id := some 3 } (.ident "A") [.mk .input e]

/-- The first answer is one, the second two, and so on. -/
def counting : Answer := fun trace => .int trace.length

def zeros {κ : Type} : World κ := { vars := fun _ => some (.int 0), trace := [] }

def passed {κ : Type} (w : World κ) : List (List (Option Int)) :=
  w.trace.map fun call => call.args.map Value.asInt

theorem sample_plainNames : sample.PlainNames := ⟨by decide, by decide, by decide⟩

theorem agrees_zeros (c : LowerContext) : c.Agrees zeros zeros := ⟨fun _ _ _ => rfl, rfl⟩

def outcome? (c : LowerContext) (fragments : List (List CodeStmt × Option StoreId)) :
    Option StageState :=
  match Stage.fragments { context := c, span := {} } fragments {} with
  | .ok _ s => some s
  | .error _ _ => none

theorem ok_of_outcome? {p : StageState → Bool} (h : (outcome? c fragments).any p = true) :
    ∃ s, Stage.fragments { context := c, span := {} } fragments {} = .ok () s ∧ p s = true := by
  unfold outcome? at h
  split at h
  · exact ⟨_, ‹_›, h⟩
  · cases h

end Sample

/-- `x = s < 1 ? A(A(s)) : s`, and after it `s += A(x)` and `x++`. -/
def sampleRun : List (List CodeStmt × Option StoreId) :=
  [([.eval (.assign {} .assign readX
      (.conditional {} (.binary {} .lt readS (.int 1)) (callA (callA readS)) readS))], none),
    ([.eval (.assign {} .add readS (callA readX)), .eval (.unary {} .postIncrement readX)], none)]

theorem finish_runs_sampleRun :
    ∃ s ρ', Stage.fragments { context := sample, span := {} } sampleRun {} = .ok () s ∧
      Engine.runOption .arithmetic counting 0 s.steps.finish zeros = some ρ' ∧
      passed ρ' = [[some 0], [some 1], [some 2]] ∧
      (ρ'.vars "s").bind Value.asInt = some 3 ∧ (ρ'.vars "x").bind Value.asInt = some 3 := by
  have hsource : (fragments (eval .arithmetic counting sample) sampleRun zeros).map
      (fun w => (passed w, (w.vars 0).bind Value.asInt, (w.vars 1).bind Value.asInt)) =
      some ([[some 0], [some 1], [some 2]], some 3, some 3) := by
    decide +kernel
  obtain ⟨w', hrun, hw'⟩ := Option.map_eq_some_iff.1 hsource
  have hstage : ∃ s, Stage.fragments { context := sample, span := {} } sampleRun {} = .ok () s ∧
      true = true :=
    ok_of_outcome? (p := fun _ => true) (by decide +kernel)
  obtain ⟨s, hs, -⟩ := hstage
  obtain ⟨ρ', hρ', hag⟩ := finish_runs_fragments sample_plainNames.handlesApart (by decide +kernel)
    hs .arithmetic counting 0 (agrees_zeros sample) hrun
  simp only [Prod.mk.injEq] at hw'
  refine ⟨s, ρ', hs, hρ', ?_, ?_, ?_⟩
  · rw [passed, hag.trace]
    exact hw'.1
  · rw [hag.vars 0 "s" ⟨_, rfl, rfl⟩]
    exact hw'.2.1
  · rw [hag.vars 1 "x" ⟨_, rfl, rfl⟩]
    exact hw'.2.2

/-- What the finished steps of any run of code on stores do is evaluation with the calls first, and
nothing else agrees with it. If all expressions of the run are orderly, then it is direct evaluation
from left to right. -/
theorem finish_runs_calls_first (hc : c.HandlesApart)
    (hstores : ∀ f ∈ fragments, c.fragmentOnStores true f.1 f.2 = true)
    (hstage : Stage.fragments { context := c, span := span } fragments { lower := l } = .ok u s)
    (H : Runtime) (answer : Answer) (bound : Nat) :
    (∀ (w w₁ : World StoreId) (ρ : World String), c.Agrees w ρ →
      Source.fragments (Source.callsFirst H answer c) fragments w = some w₁ →
      ∃ ρ', Engine.runOption H answer bound s.steps.finish ρ = some ρ' ∧
        ∀ w', c.Agrees w' ρ' ↔ c.Same w₁ w') ∧
    ((∀ f ∈ fragments, ∀ e ∈ fragmentExprs f.1 f.2, c.orderly e = true) →
      ∀ (w w' : World StoreId) (ρ : World String), c.Agrees w ρ →
      Source.fragments (Source.eval H answer c) fragments w = some w' →
      ∃ ρ', Engine.runOption H answer bound s.steps.finish ρ = some ρ' ∧ c.Agrees w' ρ') := by
  constructor
  · intro w w₁ ρ hag hrun
    obtain ⟨ρ', hρ', hag'⟩ :=
      finish_of_faithful hc hstores (fun f _ e _ w q hq => hq) hstage bound hag hrun
    exact ⟨ρ', hρ', fun w' => hag'.iff_same hc⟩
  · intro horder w w' ρ hag hrun
    refine finish_of_faithful hc hstores (fun f hf => ?_) hstage bound hag hrun
    exact faithful_of_fragment (hstores f hf) (horder f hf)

def incrementThenCall (e : Expr) : List (List CodeStmt × Option StoreId) :=
  [([.eval (.assign {} .assign readX
    (.binary {} .add (.unary {} .postIncrement readS) (callA e)))], none)]

/-- An increment that the call to its right does not depend on may be made after the call. -/
theorem finish_runs_incrementThenCall :
    ∃ s ρ', Stage.fragments { context := sample, span := {} } (incrementThenCall readX) {} =
        .ok () s ∧
      Engine.runOption .arithmetic counting 0 s.steps.finish zeros = some ρ' ∧
      passed ρ' = [[some 0]] ∧ (ρ'.vars "s").bind Value.asInt = some 1 := by
  have hsource : (fragments (eval .arithmetic counting sample)
      (incrementThenCall readX) zeros).map (fun w => (passed w, (w.vars 0).bind Value.asInt)) =
      some ([[some 0]], some 1) := by
    decide +kernel
  obtain ⟨w', hrun, hw'⟩ := Option.map_eq_some_iff.1 hsource
  have hstage : ∃ s, Stage.fragments { context := sample, span := {} } (incrementThenCall readX)
      {} = .ok () s ∧ true = true :=
    ok_of_outcome? (p := fun _ => true) (by decide +kernel)
  obtain ⟨s, hs, -⟩ := hstage
  obtain ⟨ρ', hρ', hag⟩ := (finish_runs_calls_first sample_plainNames.handlesApart
    (by decide +kernel) hs .arithmetic counting 0).2 (by decide +kernel) _ _ _
    (agrees_zeros sample) hrun
  simp only [Prod.mk.injEq] at hw'
  refine ⟨s, ρ', hs, hρ', ?_, ?_⟩
  · rw [passed, hag.trace]
    exact hw'.1
  · rw [hag.vars 0 "s" ⟨_, rfl, rfl⟩]
    exact hw'.2

/-- In `x = s++ + A(s)` the call is made with the value of `s` before its increment, although the
increment stands before the call. -/
theorem call_misses_increment :
    ∃ s, Stage.fragments { context := sample, span := {} } (incrementThenCall readS) {} = .ok () s ∧
      (Engine.runOption .arithmetic counting 0 s.steps.finish zeros).map passed = some [[some 0]] ∧
      (Source.fragments (Source.eval .arithmetic counting sample) (incrementThenCall readS)
        zeros).map passed = some [[some 1]] := by
  have hstage : ∃ s, Stage.fragments { context := sample, span := {} } (incrementThenCall readS)
      {} = .ok () s ∧ decide ((Engine.runOption .arithmetic counting 0 s.steps.finish
        zeros).map passed = some [[some 0]]) = true :=
    ok_of_outcome? (by decide +kernel)
  obtain ⟨s, hs, hrun⟩ := hstage
  exact ⟨s, hs, of_decide_eq_true hrun, by decide +kernel⟩

end Linearization

end Workflow
