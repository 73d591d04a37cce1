import Workflow.Proofs.Lower.Clean
import Workflow.Proofs.Lower.Finish

/-!
# Values of slots

A value that needs calls is evaluated in two parts: the hoisted steps run first, and the expression
of the slot is evaluated in the node that takes it. Together they do what the expression of the
source does with its calls first. Where a slot refuses calls there are no steps.
-/

namespace Workflow

open Stage

open StepList (Positioned)

namespace Engine

variable (H : Runtime) (answer : Answer) (bound : Nat)

def prepare (h : Hoisted) (ρ : World String) : Option (World String) :=
  (start H bound h.vars ρ).bind (runList H answer bound h.nodes)

theorem prepare_of_isEmpty (hempty : h.isEmpty = true) (ρ : World String) :
    prepare H answer bound h ρ = some ρ := by
  rw [Hoisted.isEmpty, Bool.and_eq_true, List.isEmpty_iff, List.isEmpty_iff] at hempty
  rw [prepare, hempty.1, hempty.2, start, Option.bind_some, runList]

theorem run_wrap (h : Hoisted) (consumer : Node) (ρ : World String) :
    run H answer bound (h.wrap consumer) ρ =
      (prepare H answer bound h ρ).bind (run H answer bound consumer) := by
  unfold Hoisted.wrap
  split
  case isTrue hempty =>
    rw [prepare_of_isEmpty H answer bound hempty, Option.bind_some]
  case isFalse =>
    rw [run_sequence, prepare, Option.bind_assoc]
    refine congrArg _ (funext fun ρ => ?_)
    rw [runList_append]
    refine congrArg _ (funext fun ρ => ?_)
    rw [runList_singleton]

end Engine

namespace LowerContext

variable {c : LowerContext} {H : Runtime} {answer : Answer} {bound : Nat}

/-- The hoisted steps and then the expression of a slot do what `K` does. -/
def Evaluates (c : LowerContext) (H : Runtime) (answer : Answer) (bound : Nat) (h : Hoisted)
    (e : Expr) (K : Source.Rest Value) : Prop :=
  ∀ w ρ q, c.Agrees w ρ → K w = some q → ∃ ρ₁, Engine.prepare H answer bound h ρ = some ρ₁ ∧
    ∃ ρ₂, Engine.eval H bound e ρ₁ = some (q.1, ρ₂) ∧ c.Agrees q.2 ρ₂

theorem Evaluates.of_le
    (hK : c.Evaluates H answer bound h e K) (hle : ∀ w q, K' w = some q → K w = some q) :
    c.Evaluates H answer bound h e K' :=
  fun w ρ q hag hq => hK w ρ q hag (hle w q hq)

theorem StagesWell.evaluates (hc : c.HandlesApart) (hwell : c.StagesWell H answer bound e)
    (h : value site e { lower := l } = .ok e' t) (hsite : site.context = c)
    (hcan : site.canSchedule = false → c.schedules e = false) :
    (t.lower.errors.errors = [] → l.errors.errors = []) ∧
      c.Evaluates H answer bound { vars := t.steps.vars, nodes := t.steps.nodes } e'
        (Source.callsFirst H answer c e) := by
  obtain ⟨a, s₁, hv, rfl⟩ := value_ok h
  have hem := hv.emits
  have hcarry := hwell hv hsite hcan
  refine ⟨hem.errors, ?_⟩
  -- No statement is pending: none was at the start, and added steps leave none.
  have hpending : s₁.steps.pending = [] := by
    by_cases ha : a = []
    · exact (hem.same ha).2
    · exact (hem.append ha).2
  have hgen : s₁.steps.Generated := hem.generated StepList.generated_empty
  have hfit : Fits s₁.steps.index s₁.steps.steps :=
    ⟨fun x hx => (hgen.index x hx).1, hgen.plain⟩
  intro w ρ q hag hq
  obtain ⟨k, w₁, hS, hk⟩ := Source.atOnce_eq_some.1 hq
  obtain ⟨ρ₀, hstart, hag₀, hpos⟩ := start_steps H bound hc hgen hag
  have hempty : c.Reaches H answer bound s₁.steps.index {} ρ₀ ρ₀ :=
    ⟨ρ₀, Engine.runFrom_nil, hpos, rfl, .refl c ρ₀⟩
  obtain ⟨ρ₁, hreach, hag₁, hy⟩ := hempty.emits hc hem hcarry hfit hag₀ hS
  obtain ⟨ρ₁', hrun, -, hexec, -⟩ := hreach
  rw [hpending, Engine.execList] at hexec
  cases hexec
  obtain ⟨ρ₂, hE, hag₂, -⟩ := hy w₁ ρ₁ hag₁ (.refl _ ρ₁) q.1 q.2 hk
  refine ⟨ρ₁, ?_, ρ₂, hE, hag₂⟩
  dsimp only [Engine.prepare]
  rw [StepList.flush_of_pending hpending, hstart, Option.bind_some,
    StepList.nodes_eq_nodesFrom, StepList.flush_of_pending hpending]
  exact hrun

theorem value_clean (H : Runtime) (answer : Answer) (bound : Nat) (hc : c.HandlesApart)
    (he : c.onStores writes f.expr = true) (ty : Option TypeName) :
    Lower.Clean (Lower.value c f ty) fun p =>
      c.Evaluates H answer bound p.2 p.1.expr (Source.callsFirst H answer c f.expr) := by
  refine .stage (T := fun e' steps => c.Evaluates H answer bound
      { vars := steps.vars, nodes := steps.nodes } e' (Source.callsFirst H answer c f.expr))
    (fun l e' t h herr => ?_) (fun e' steps => ?_) fun e _ => ?_
  · obtain ⟨herrors, hev⟩ :=
      (stagesWell hc (.of_onStores he)).evaluates hc h rfl fun hs => by simp [Site.canSchedule] at hs
    exact ⟨herrors herr, hev⟩
  · exact .pure id
  · exact (Lower.Clean.reportError (Q := fun _ => False) e).bind fun _ => .pure id

theorem schedules_of_isStore (h : c.isStore e = true) : c.schedules e = false := by
  unfold isStore namedStore? at h
  cases e
  case name o x => simp [schedules, Expr.any, Expr.nodes, scheduling?, Expr.isCall]
  all_goals simp [Expr.asName] at h

/-- Where calls are refused, an expression on stores has none and nothing is added. -/
theorem of_refused (he : c.onStores writes e = true) (h : Staging site (.expr e e') a s t)
    (hsite : site.context = c) (hcan : site.canSchedule = false) :
    c.schedules e = false ∧ t = s := by
  generalize hp : Piece.expr e e' = p at h
  induction h generalizing e e' with (
    cases hp
    all_goals simp only [onStores, Bool.and_eq_true] at he)
  | literal => exact ⟨by simp [schedules, Expr.any, Expr.nodes, scheduling?, Expr.isCall], rfl⟩
  | read => exact ⟨schedules_of_isStore he, rfl⟩
  | name hnone =>
    obtain ⟨store, hstore⟩ := storeFor?_of_isStore he
    rw [hsite, hstore] at hnone
    cases hnone
  | scheduled _ hsend =>
    cases hsend with
    | send _ _ h =>
      rw [Site.canSchedule_deeper, hcan] at h
      cases h
  | called hcall =>
    cases hcall with
    | call hnone =>
      rw [Site.context_deeper, hsite] at hnone
      simp [hnone] at he
  | step hop =>
    rw [if_pos (by simp [UnaryOp.isStep, hop]), Bool.and_eq_true] at he
    exact ⟨by rw [schedules_unary]; exact schedules_of_isStore he.2, rfl⟩
  | unary hnone _ ih =>
    rw [schedules_unary]
    split at he
    case isTrue hop =>
      rw [Bool.and_eq_true] at he
      obtain ⟨store, hstore⟩ := storeFor?_of_isStore he.2
      rcases hnone with hnone | hnone
      · simp [UnaryOp.isStep, hnone] at hop
      · rw [hsite, hstore] at hnone
        cases hnone
    case isFalse => exact ih he hsite hcan rfl
  | operator hskip | choice hskip => simp [hcan] at hskip
  | binary _ _ _ hl hr =>
    obtain ⟨hsl, rfl⟩ := hl he.1 hsite hcan rfl
    obtain ⟨hsr, rfl⟩ := hr he.2 hsite hcan rfl
    exact ⟨by rw [schedules_binary, hsl, hsr]; rfl, rfl⟩
  | conditional _ _ _ _ ht hy hn =>
    obtain ⟨hst, rfl⟩ := ht he.1.1 hsite hcan rfl
    obtain ⟨hsy, rfl⟩ := hy he.1.2 hsite hcan rfl
    obtain ⟨hsn, rfl⟩ := hn he.2 hsite hcan rfl
    exact ⟨by rw [schedules_conditional, hst, hsy, hsn]; rfl, rfl⟩
  | write _ _ _ ih =>
    obtain ⟨hse, rfl⟩ := ih he.2 hsite hcan rfl
    exact ⟨by rw [schedules_assign, hse, schedules_of_isStore he.1.2]; rfl, rfl⟩
  | assign hnone =>
    obtain ⟨store, hstore⟩ := storeFor?_of_isStore he.1.2
    rw [hsite, hstore] at hnone
    cases hnone
  | cast _ ih =>
    rw [schedules_cast]
    exact ih he hsite hcan rfl
  | member | create | lambda | index | block => cases he

/-- A slot that refuses calls needs no steps. -/
theorem restricted_clean (H : Runtime) (answer : Answer) (bound : Nat) (hc : c.HandlesApart)
    (he : c.onStores writes f.expr = true) (ty : Option TypeName) (slot : Slot) :
    Lower.Clean (Lower.restricted c f ty slot) fun v =>
      c.Evaluates H answer bound {} v.expr (Source.callsFirst H answer c f.expr) := by
  refine .stage (T := fun e' _ => c.Evaluates H answer bound {} e'
    (Source.callsFirst H answer c f.expr)) (fun l e' t h herr => ?_) (fun e' steps => ?_)
    fun e _ => ?_
  · obtain ⟨a, s₁, hv, rfl⟩ := value_ok h
    obtain ⟨hnone, rfl⟩ := of_refused he hv rfl rfl
    obtain ⟨herrors, hev⟩ :=
      (stagesWell hc (.of_onStores he)).evaluates (H := H) hc h rfl fun _ => hnone
    exact ⟨herrors herr, hev⟩
  · exact .pure id
  · exact (Lower.Clean.reportError (Q := fun _ => False) e).bind fun _ => .pure id

end LowerContext

end Workflow
