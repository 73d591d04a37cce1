import Workflow.Proofs.Lower.StepRules

/-!
# Staged expressions carry their calls out

The steps that staging an expression adds make its calls, in the order in which the expression is
evaluated with its calls first, and the produced expression does what is left.
-/

namespace Workflow

open Source Stage Option Bool

open Source (Rest)

variable {e : Expr}

namespace LowerContext

variable (c : LowerContext) (H : Runtime) (answer : Answer) (bound : Nat)

/-- However the expression is staged, the steps carry its calls out and the produced expression does
what is left. -/
def StagesWell (e : Expr) : Prop :=
  ∀ ⦃site : Site⦄ ⦃a : List Step⦄ ⦃s t : StageState⦄ ⦃e' : Expr⦄,
    Staging site (.expr e e') a s t →
    site.context = c → (site.canSchedule = false → c.schedules e = false) →
    c.Carries H answer bound s.lower.counter (fun _ => True) (settle H answer c e) a
      fun ρ k => c.Yields t.lower.counter ρ (Engine.eval H bound e') k

def ArgsStageWell (args : List Argument) : Prop :=
  ∀ ⦃site : Site⦄ ⦃attr : SchedulingAttribute⦄ ⦃i : Nat⦄ ⦃a : List Step⦄ ⦃s t : StageState⦄
    ⦃as : List NodeArgument⦄, Staging site (.inputs attr i args as) a s t →
    site.context = c → site.canSchedule = true →
    c.Carries H answer bound s.lower.counter (fun _ => True) (settleArgs H answer c args) a
      fun ρ ks => c.Yields t.lower.counter ρ (Engine.arguments H bound as) ks

variable {c H answer bound}

theorem carries_left {E : World String → Option (Value × World String)}
    (hS : ∀ w, settle H answer c e w = some (eval H answer c e, w))
    (hE : ∀ ρ, c.Yields n ρ E (eval H answer c e)) :
    c.Carries H answer bound n (fun _ => True) (settle H answer c e) []
      fun ρ k => c.Yields n ρ E k := by
  refine .nil fun w k w₁ h => ?_
  rw [hS] at h
  cases h
  exact ⟨rfl, fun ρ _ => hE ρ⟩

namespace StagesWell

theorem literal (o : Origin) (v : Literal) : c.StagesWell H answer bound (.literal o v) := by
  intro site a s t e' h hsite hcan
  cases h
  exact carries_left (fun w => by rw [settle]) fun ρ => Yields.literal H answer bound o v

theorem name (hc : c.HandlesApart) {o : Origin} {x : String} (he : c.isStore (.name o x) = true) :
    c.StagesWell H answer bound (.name o x) := by
  intro site a s t e' h hsite hcan
  subst hsite
  obtain ⟨store, hstore⟩ := storeFor?_of_isStore he
  cases h with
  | read hstore' =>
    exact carries_left (fun w => by rw [settle])
      fun ρ => Yields.read H answer bound hc hstore' o.span
  | name hnone =>
    rw [hnone] at hstore
    cases hstore

theorem step (hc : c.HandlesApart) (o : Origin) (hop : op.isStep = true)
    (he : c.isStore e = true) : c.StagesWell H answer bound (.unary o op e) := by
  intro site a s t e' h hsite hcan
  subst hsite
  obtain ⟨by', hby⟩ := isSome_iff_exists.1 hop
  obtain ⟨store, hstore⟩ := storeFor?_of_isStore he
  cases h with
  | step hby' hstore' =>
    exact carries_left (fun w => by rw [settle, if_pos hop])
      fun ρ => Yields.step H answer bound hc hby' hstore'
  | unary hplain =>
    rcases hplain with hnone | hnone
    · rw [hby] at hnone
      cases hnone
    · rw [hstore] at hnone
      cases hnone

theorem unary (hc : c.HandlesApart) (o : Origin) {op : UnaryOp} (hop : op.isStep = false)
    (he : c.StagesWell H answer bound e) : c.StagesWell H answer bound (.unary o op e) := by
  intro site a s t e' h hsite hcan
  cases h with
  | step hby => simp [UnaryOp.isStep, hby] at hop
  | unary _ hv =>
    rw [schedules_unary] at hcan
    refine (he hv hsite hcan).map _ (fun ρ k hk => Yields.unary H bound hc o hop hk) fun w => ?_
    rw [settle, if_neg (by simp [hop])]
    rfl

theorem cast (o : Origin) (ty : TypeName) (he : c.StagesWell H answer bound e) :
    c.StagesWell H answer bound (.cast o ty e) := by
  intro site a s t e' h hsite hcan
  cases h with
  | cast hv =>
    rw [schedules_cast] at hcan
    have hS : settle H answer c (.cast o ty e) = settle H answer c e := by
      funext w
      rw [settle]
    rw [hS]
    refine (he hv hsite hcan).weaken fun ρ k hk => ?_
    have hE : ∀ v, Engine.eval H bound (.cast o ty v) = Engine.eval H bound v := by
      intro v
      funext ρ
      rw [Engine.eval]
    rw [hE]
    exact hk

theorem binary (hc : c.HandlesApart) (o : Origin) (op : BinaryOp) {l r : Expr}
    (hl : c.StagesWell H answer bound l) (hr : c.StagesWell H answer bound r) :
    c.StagesWell H answer bound (.binary o op l r) := by
  intro site a s t e' h hsite hcan
  have hcan' : site.canSchedule = false → c.schedules l = false ∧ c.schedules r = false := by
    intro hs
    simpa [schedules_binary] using hcan hs
  cases h with
  | operator hskip hl' hr' hlt hle hlower =>
    -- The right side schedules calls and may be skipped.
    simp only [hsite, and_eq_true] at hskip
    have hcarry := hl hl' hsite fun hs => (hcan' hs).1
    have hcarry' := hr hr' hsite fun hs => (hcan' hs).2
    rw [← hlower] at hcarry'
    have hcounter := hlower ▸ hr'.emits.counter
    refine hcarry.seq (fun k => Carries.operator hc hskip.1.1 _ _ _ hlt
      (Nat.le_of_lt (Nat.lt_of_lt_of_le hlt hle)) (Nat.le_trans hle hcounter) hcarry')
      hl'.emits.counter fun w => ?_
    rw [settle]
    simp only [hskip.1.1, hskip.2, Bool.and_self, if_true]
    rfl
  | binary hskip hl' hr' =>
    refine (hl hl' hsite fun hs => (hcan' hs).1).bothYield _ (hr hr' hsite fun hs => (hcan' hs).2)
      hl'.emits.counter hr'.emits.counter
      (fun ρ k k' hk hk' => Yields.binary H bound hc o op hk hk') fun w => ?_
    have hplain : (op.isShortCircuit && c.schedules r) = false := by
      cases hs : site.canSchedule with
      | true => simpa [hsite, hs] using hskip
      | false => simp [(hcan' hs).2]
    rw [settle]
    simp only [hplain, false_eq_true, if_false]
    rfl

theorem conditional (hc : c.HandlesApart) (o : Origin) {y n : Expr}
    (he : c.StagesWell H answer bound e) (hy : c.StagesWell H answer bound y)
    (hn : c.StagesWell H answer bound n) : c.StagesWell H answer bound (.conditional o e y n) := by
  intro site a s t e' h hsite hcan
  have hcan' : site.canSchedule = false →
      c.schedules e = false ∧ c.schedules y = false ∧ c.schedules n = false := by
    intro hs
    simpa [schedules_conditional] using hcan hs
  cases h with
  | choice hskip he' hy' hn' hlt hle hle' hlower =>
    -- A side schedules calls, and one of the sides is skipped.
    simp only [hsite, and_eq_true] at hskip
    have hcarry := he he' hsite fun hs => (hcan' hs).1
    have hcarry₁ := hy hy' hsite fun hs => (hcan' hs).2.1
    have hcarry₂ := hn hn' hsite fun hs => (hcan' hs).2.2
    have hcounter := hlower ▸ hn'.emits.counter
    have hcounter₁ := hy'.emits.counter
    refine hcarry.seq (fun k => Carries.choice hc hlt (by omega) (by omega) (by omega) hcarry₁
      hcarry₂) he'.emits.counter fun w => ?_
    rw [settle]
    simp only [hskip.2, if_true]
    rfl
  | @conditional _ _ _ test a _ s₁ y' b s₂ n' d _ _ _ hskip he' hy' hn' =>
    have hcarry := he he' hsite fun hs => (hcan' hs).1
    have hcarry₁ := hy hy' hsite fun hs => (hcan' hs).2.1
    have hcarry₂ := hn hn' hsite fun hs => (hcan' hs).2.2
    have hplain : (c.schedules y || c.schedules n) = false := by
      cases hs : site.canSchedule with
      | true => simpa [hsite, hs] using hskip
      | false => simp [(hcan' hs).2]
    have hfirst : c.Carries H answer bound s.lower.counter (fun _ => True)
        (fun w => (settle H answer c e w).bind fun q =>
          (settle H answer c y q.2).bind fun q' => some ((q.1, q'.1), q'.2)) (a ++ b)
        fun ρ k => c.Yields s₂.lower.counter ρ (Engine.eval H bound test) k.1 ∧
          c.Yields s₂.lower.counter ρ (Engine.eval H bound y') k.2 :=
      hcarry.both Prod.mk hcarry₁ he'.emits.counter
        (fun _ _ _ hst hk => hk.mono hst (Nat.le_refl _))
        (fun ρ _ _ hk hl => ⟨hk.mono (.refl _ ρ) hy'.emits.counter, hl⟩) fun w => rfl
    rw [← List.append_assoc]
    refine hfirst.both (fun k l => Rest.choose k.1 k.2 l) hcarry₂
      (Nat.le_trans he'.emits.counter hy'.emits.counter)
      (fun _ _ _ hst hk => ⟨hk.1.mono hst (Nat.le_refl _), hk.2.mono hst (Nat.le_refl _)⟩)
      (fun ρ k l hk hl => Yields.conditional H bound hc o (hk.1.mono (.refl _ ρ) hn'.emits.counter)
        (hk.2.mono (.refl _ ρ) hn'.emits.counter) hl) fun w => ?_
    rw [settle]
    simp only [hplain, false_eq_true, if_false]
    simp only [bind_eq_bind, bind_assoc, bind_some, pure_def]

theorem assign (hc : c.HandlesApart) (o : Origin) (op : AssignOp) {target : Expr}
    (ht : c.isStore target = true) (he : c.StagesWell H answer bound e) :
    c.StagesWell H answer bound (.assign o op target e) := by
  intro site a s t e' h hsite hcan
  subst hsite
  cases h with
  | write hstore _ hv =>
    have hcan' : site.canSchedule = false → site.context.schedules e = false := by
      intro hs
      have := hcan hs
      simp only [schedules_assign, or_eq_false_iff] at this
      exact this.2
    obtain ⟨id, x, hid, hx, hname⟩ := hc.of_storeFor? hstore
    refine (he hv rfl hcan').map _ (fun ρ k hk => Yields.assign H bound hc o op hx hname hk)
      fun w => ?_
    rw [settle, hid]
    rfl
  | assign hnone =>
    obtain ⟨store, hstore⟩ := storeFor?_of_isStore ht
    rw [hstore] at hnone
    cases hnone

theorem call (hc : c.HandlesApart) {o : Origin} {attr : SchedulingAttribute}
    (hattr : c.semantics.scheduling? o.id = some attr) (hresult : attr.result.isSome = true)
    (callee : Expr) {args : List Argument} (hargs : c.ArgsStageWell H answer bound args) :
    c.StagesWell H answer bound (.call o callee args) := by
  intro site a s t e' h hsite hcan
  subst hsite
  cases h with
  | scheduled hattr' h =>
    obtain rfl : attr = _ := Option.some.inj (hattr.symm.trans hattr')
    cases h with
    | send _ _ hcan' has hlocation _ hcounter =>
      have hcarry := hargs has rfl hcan'
      obtain ⟨hnumber, ty, hpair⟩ := resultLocation_temp hresult hlocation
      cases hpair
      rw [hcounter]
      refine hcarry.seq (fun ks => Carries.call hc ?_) has.emits.counter fun w => ?_
      · omega
      · rw [settle, hattr]
        simp only [bind_eq_bind, bind_assoc, bind_some, pure_def, atOnce]
  | called h =>
    cases h with
    | call hnone => cases hattr.symm.trans hnone

end StagesWell

theorem ArgsStageWell.of_forall (hc : c.HandlesApart) {args : List Argument}
    (hin : ∀ a ∈ args, a.direction = .input)
    (hargs : ∀ a ∈ args, c.StagesWell H answer bound a.value) :
    c.ArgsStageWell H answer bound args := by
  induction args with
  | nil =>
    intro site attr i a s t as h hsite hcan
    cases h
    refine .nil fun w k w₁ hS => ?_
    rw [settleArgs] at hS
    cases hS
    exact ⟨rfl, fun ρ _ => Yields.arguments_nil H bound⟩
  | cons a rest ih =>
    obtain ⟨hd, hothersIn⟩ := List.forall_mem_cons.1 hin
    obtain ⟨he, hothersWell⟩ := List.forall_mem_cons.1 hargs
    have hrest := ih hothersIn hothersWell
    intro site attr i a s t as h hsite hcan
    cases h with
    | input hv hothers =>
      refine (he hv hsite fun hs => by simp [hcan] at hs).bothYield _ (hrest hothers hsite hcan)
        hv.emits.counter hothers.emits.counter
        (fun ρ k ks hk hks => Yields.arguments_cons H bound hc _ _ _ hk hks) fun w => ?_
      rw [settleArgs, if_pos rfl]
      rfl
    | location hne => exact absurd hd hne

theorem stagesWell (hc : c.HandlesApart) (he : c.OnStores e) : c.StagesWell H answer bound e := by
  induction he with
  | literal => exact .literal ..
  | name h => exact .name hc h
  | step hop h => exact .step hc _ hop h
  | unary hop _ ih => exact .unary hc _ hop ih
  | binary _ _ ihl ihr => exact .binary hc _ _ ihl ihr
  | conditional _ _ _ ih ihy ihn => exact .conditional hc _ ih ihy ihn
  | assign h _ ih => exact .assign hc _ _ h ih
  | cast _ ih => exact .cast _ _ ih
  | call hattr hresult hin _ ih => exact .call hc hattr hresult _ (.of_forall hc hin ih)

theorem argsStageWell (hc : c.HandlesApart) {args : List Argument}
    (h : (∀ a ∈ args, a.direction = .input) ∧ ∀ a ∈ args, c.OnStores a.value) :
    c.ArgsStageWell H answer bound args :=
  .of_forall hc h.1 fun a ha => stagesWell hc (h.2 a ha)

end LowerContext

end Workflow
