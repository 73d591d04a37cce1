import Workflow.Proofs.Lower.Expression

/-!
# Code runs

The state of a staging pass stands for what its steps and then its pending statements do. A staged
statement makes progress: whatever was reached before, what the statement does is reached
afterwards.
-/

namespace Workflow

open Source Stage Engine List Option

open StepList (Positioned KeepsIndex moved)

variable {a : List Step}

/-- The steps of a list and then its pending statements lead from one world to another. -/
def LowerContext.Reaches (c : LowerContext) (H : Runtime) (answer : Answer) (bound : Nat)
    (index : Option String) (l : StepList) (ρ ρ₂ : World String) : Prop :=
  ∃ ρ₁, runFrom H answer bound index 0 l.steps ρ = some ρ₁ ∧
    Positioned index l.steps.length ρ₁ ∧ execList H bound l.pending ρ₁ = some ρ₂ ∧
    c.Frame ρ₁ ρ₂

namespace LowerContext

variable {c : LowerContext} {H : Runtime} {answer : Answer} {bound : Nat}
variable {index : Option String}

namespace Reaches

variable {l : StepList} {ρ ρ₂ ρ₃ : World String}

theorem flush (hc : c.HandlesApart) (hfit : Fits index l.steps)
    (h : c.Reaches H answer bound index l ρ ρ₂) (hag : c.Agrees w ρ₂) :
    ∃ ρ₁, runFrom H answer bound index 0 l.flush.steps ρ = some ρ₁ ∧
      Positioned index l.flush.steps.length ρ₁ ∧ c.Agrees w ρ₁ := by
  obtain ⟨ρ₁, hrun, hpos, hpending, hfr⟩ := h
  by_cases hnil : l.pending = []
  · rw [StepList.flush_of_pending hnil]
    rw [hnil, execList] at hpending
    cases hpending
    exact ⟨ρ₂, hrun, hpos, hag⟩
  · rw [StepList.steps_flush, if_neg hnil]
    refine ⟨moved index (l.steps.length + 1) ρ₂, ?_, ?_, hag.moved hc hfit _⟩
    · rw [runFrom_append hrun, Nat.zero_add]
      exact runFrom_code hpos hpending (hfr.keepsIndex hc hfit)
    · rw [length_append]
      exact StepList.positioned_moved index _ ρ₂

theorem pushPlain (h : c.Reaches H answer bound index l ρ ρ₂) {stmt : CodeStmt}
    (hstmt : exec H bound stmt ρ₂ = some ρ₃) (hfr : c.Frame ρ₂ ρ₃) :
    c.Reaches H answer bound index (l.pushPlain stmt) ρ ρ₃ := by
  obtain ⟨ρ₁, hrun, hpos, hpending, hfr'⟩ := h
  refine ⟨ρ₁, hrun, hpos, ?_, hfr'.trans hfr⟩
  rw [StepList.pushPlain, execList_append, hpending, bind_some,
    execList_singleton, hstmt]

theorem emits (hc : c.HandlesApart) {κ : Type}
    {S : World StoreId → Option (κ × World StoreId)} {Q : World String → κ → Prop}
    (h : c.Reaches H answer bound index s.steps ρ ρ₂) (hem : Emits s t a)
    (hcarry : c.Carries H answer bound n (fun _ => True) S a Q) (hfit : Fits index t.steps.steps)
    {k : κ} (hag : c.Agrees w ρ₂) (hS : S w = some (k, w₁)) :
    ∃ ρ₃, c.Reaches H answer bound index t.steps ρ ρ₃ ∧ c.Agrees w₁ ρ₃ ∧ Q ρ₃ k := by
  by_cases ha : a = []
  · -- Nothing is added: the pending statements stay pending.
    subst ha
    obtain ⟨hsteps, hpending⟩ := hem.same rfl
    obtain ⟨ρ₁, hrun, hpos, hexec, hfr⟩ := h
    have hpos₂ : Positioned index s.steps.steps.length ρ₂ :=
      hpos.of_keepsIndex (hfr.keepsIndex hc hfit)
    have hfit' : Fits index [] := ⟨hfit.named, by simp⟩
    obtain ⟨ρ₃, hrun₃, -, hag₃, -, hQ⟩ := hcarry index hfit' _ w ρ₂ hag hpos₂ trivial k w₁ hS
    rw [runFrom_nil] at hrun₃
    cases hrun₃
    refine ⟨ρ₂, ⟨ρ₁, ?_, ?_, ?_, hfr⟩, hag₃, hQ⟩
    · rw [hsteps, hrun]
    · rw [hsteps]
      exact hpos
    · rw [hpending, hexec]
  · obtain ⟨hsteps, hpending⟩ := hem.append ha
    rw [hsteps] at hfit
    have hfit' : Fits index s.steps.steps := ⟨hfit.named, fun hi step hs =>
      hfit.plain hi step (mem_append_left _ (StepList.mem_flush_steps hs))⟩
    obtain ⟨ρ₁, hrun, hpos, hag₁⟩ := h.flush hc hfit' hag
    obtain ⟨ρ₃, hrun₃, hpos₃, hag₃, -, hQ⟩ :=
      hcarry index hfit.right _ w ρ₁ hag₁ hpos trivial k w₁ hS
    refine ⟨ρ₃, ⟨ρ₃, ?_, ?_, ?_, .refl c ρ₃⟩, hag₃, hQ⟩
    · rw [hsteps, runFrom_append hrun, Nat.zero_add, hrun₃]
    · rw [hsteps, length_append]
      exact hpos₃
    · rw [hpending, execList]

end Reaches

/-- Staging leads from what was reached to what `T` makes of it. -/
structure Progress (c : LowerContext) (H : Runtime) (answer : Answer) (bound : Nat)
    (s t : StageState) (T : World StoreId → Option (World StoreId)) : Prop where
  steps : ∀ step ∈ s.steps.steps, step ∈ t.steps.steps
  counter : s.lower.counter ≤ t.lower.counter
  errors : t.lower.errors.errors = [] → s.lower.errors.errors = []
  generated : s.steps.Generated → t.steps.Generated
  reaches : ∀ index, Fits index t.steps.steps → ∀ ρ ρ₂ w w₁,
    c.Reaches H answer bound index s.steps ρ ρ₂ → c.Agrees w ρ₂ → T w = some w₁ →
    ∃ ρ₃, c.Reaches H answer bound index t.steps ρ ρ₃ ∧ c.Agrees w₁ ρ₃

namespace Progress

variable {s t u : StageState} {T T' : World StoreId → Option (World StoreId)}

theorem refl (s : StageState) : c.Progress H answer bound s s some where
  steps _ h := h
  counter := Nat.le_refl _
  errors h := h
  generated h := h
  reaches _ _ _ ρ₂ _ _ h hag hT := by
    cases hT
    exact ⟨ρ₂, h, hag⟩

theorem trans (h : c.Progress H answer bound s t T) (h' : c.Progress H answer bound t u T') :
    c.Progress H answer bound s u (fun w => (T w).bind T') where
  steps step hs := h'.steps step (h.steps step hs)
  counter := Nat.le_trans h.counter h'.counter
  errors hu := h.errors (h'.errors hu)
  generated hs := h'.generated (h.generated hs)
  reaches index hfit ρ ρ₂ w w₂ hreach hag hT := by
    obtain ⟨w₁, hw₁, hw₂⟩ := bind_eq_some_iff.1 hT
    have hfit' : Fits index t.steps.steps :=
      ⟨hfit.named, fun hi step hs => hfit.plain hi step (h'.steps step hs)⟩
    obtain ⟨ρ₃, hreach₃, hag₃⟩ := h.reaches index hfit' ρ ρ₂ w w₁ hreach hag hw₁
    exact h'.reaches index hfit ρ ρ₃ w₁ w₂ hreach₃ hag₃ hw₂

theorem of_le (h : c.Progress H answer bound s t T)
    (hle : ∀ w w₁, T' w = some w₁ → T w = some w₁) : c.Progress H answer bound s t T' where
  steps := h.steps
  counter := h.counter
  errors := h.errors
  generated := h.generated
  reaches index hfit ρ ρ₂ w w₁ hreach hag hT :=
    h.reaches index hfit ρ ρ₂ w w₁ hreach hag (hle w w₁ hT)

theorem of_uses (h : c.Progress H answer bound { s with uses := uses } t T) :
    c.Progress H answer bound s t T :=
  ⟨h.steps, h.counter, h.errors, h.generated, h.reaches⟩

theorem of_carries (hc : c.HandlesApart) {κ : Type}
    {S : World StoreId → Option (κ × World StoreId)} {Q : World String → κ → Prop}
    (hem : Emits s t a) (hcarry : c.Carries H answer bound n (fun _ => True) S a Q) :
    c.Progress H answer bound s t (fun w => (S w).map (·.2)) where
  steps := hem.mem_steps
  counter := hem.counter
  errors := hem.errors
  generated := hem.generated
  reaches index hfit ρ ρ₂ w w₁ hreach hag hT := by
    obtain ⟨⟨k, w'⟩, hS, rfl⟩ := map_eq_some_iff.1 hT
    obtain ⟨ρ₃, hreach₃, hag₃, -⟩ := hreach.emits hc hem hcarry hfit hag hS
    exact ⟨ρ₃, hreach₃, hag₃⟩

theorem of_yields (hc : c.HandlesApart) {n m : Nat} {α : Type}
    {S : World StoreId → Option (Rest α × World StoreId)}
    {E : World String → Option (α × World String)} {stmt : CodeStmt} (hem : Emits s t a)
    (hcarry : c.Carries H answer bound n (fun _ => True) S a fun ρ k => c.Yields m ρ E k)
    (hstmt : ∀ ρ v ρ', E ρ = some (v, ρ') → exec H bound stmt ρ = some ρ') :
    c.Progress H answer bound s { t with steps := t.steps.pushPlain stmt }
      (fun w => (atOnce S w).map (·.2)) where
  steps := hem.mem_steps
  counter := hem.counter
  errors := hem.errors
  generated hs := (hem.generated hs).pushPlain stmt
  reaches index hfit ρ ρ₂ w w₁ hreach hag hT := by
    obtain ⟨⟨v, w'⟩, hS, rfl⟩ := map_eq_some_iff.1 hT
    obtain ⟨⟨k, w''⟩, hS, hk⟩ := bind_eq_some_iff.1 hS
    obtain ⟨ρ₃, hreach₃, hag₃, hy⟩ := hreach.emits hc hem hcarry hfit hag hS
    obtain ⟨ρ₄, hE, hag₄, hfr⟩ := hy w'' ρ₃ hag₃ (.refl m ρ₃) v w' hk
    exact ⟨ρ₄, hreach₃.pushPlain (hstmt ρ₃ v ρ₄ hE) hfr, hag₄⟩

end Progress

section Statements

variable {writes : Bool} {e : Expr} {site : Site} {s t : StageState} {u : Unit}

theorem scheduleInto_progress (hc : c.HandlesApart) {o : Origin} {attr : SchedulingAttribute}
    {store : Store} {f : Expr} {args : List Argument} {read : Option Expr} {id : StoreId} {x : String}
    (hattr : c.semantics.scheduling? o.id = some attr)
    (hresult : attr.result.isSome = true) (hargs : c.argsOnStores writes args = true)
    (hx : c.Handle id x) (hname : store.handle.asName = some x) (hsite : site.context = c)
    (h : Staging site (.send attr (.into store) o f args read) a s t) :
    c.Progress H answer bound s t fun w =>
      (callsFirst H answer c (.call o f args) w).map fun q => q.2.set id q.1 := by
  have hem := h.emits
  cases h with
  | send _ _ hcan has hlocation =>
    have hwell : c.ArgsStageWell H answer bound args := argsStageWell hc (of_argsOnStores hargs)
    obtain ⟨loc, rfl, hhandle⟩ := resultLocation_into hresult hlocation
    rw [← hhandle] at hname
    refine (Progress.of_carries hc hem ((hwell has hsite hcan).seq
      (fun ks => Carries.callInto hc hx hname) has.emits.counter fun w => rfl)).of_le
      fun w w₁ hw => ?_
    rw [callsFirst_call hattr] at hw
    simpa [atOnce, map_eq_bind, bind_assoc, Function.comp_def] using hw

theorem sends_progress (hc : c.HandlesApart) (he : c.stmtOnStores writes (.eval e) = true)
    (hsite : site.context = c) (h : Sends site e s t) :
    c.Progress H answer bound s t fun w => (callsFirst H answer c e w).map (·.2) := by
  cases h with
  | discard hattr h =>
    -- A scheduled call without use of its answer.
    rw [hsite] at hattr
    have hem := h.emits
    cases h with
    | send _ _ hcan has hlocation =>
      have hwell : c.ArgsStageWell H answer bound _ :=
        argsStageWell hc (of_stmtOnStores_call he)
      obtain ⟨hpair, -⟩ := resultLocation_discard hlocation
      cases hpair
      refine (Progress.of_carries hc hem ((hwell has hsite hcan).seq
        (fun ks => Carries.callDiscard hc) has.emits.counter fun w => rfl)).of_le fun w w₁ hw => ?_
      rw [callsFirst_call hattr] at hw
      simpa [atOnce, map_eq_bind, bind_assoc, Function.comp_def] using hw
  | into f hattr hstore h =>
    -- The answer of a scheduled call is assigned to a store.
    rw [hsite] at hattr hstore
    rw [stmtOnStores, Bool.and_eq_true, onStores, Bool.and_eq_true, hattr] at he
    obtain ⟨id, x, hid, hx, hname⟩ := hc.of_storeFor? hstore
    refine (scheduleInto_progress hc hattr he.2.1 he.2.2 hx hname hsite h).of_le
      fun w w₁ hw => ?_
    rw [callsFirst_assign hid] at hw
    simpa [Function.comp_def] using hw

theorem evalStmt_progress (hc : c.HandlesApart) (he : c.stmtOnStores writes (.eval e) = true)
    (hsite : site.context = c) (hcan : site.canSchedule = true) (h : evalStmt site e s = .ok u t) :
    c.Progress H answer bound s t fun w => (callsFirst H answer c e w).map (·.2) := by
  rcases evalStmt_ok h with hsends | ⟨v, a, s₁, hstmt, rfl⟩
  · exact sends_progress hc he hsite hsends
  · cases hstmt with
    | evalCall h =>
      cases h with
      | call hnone =>
        rw [stmtOnStores, ← hsite, hnone] at he
        cases he
    | eval hne h =>
      have hwell : c.StagesWell H answer bound e := stagesWell hc (.of_stmt he hne)
      refine Progress.of_yields hc h.emits (hwell h hsite fun hs => by simp [hcan] at hs)
        fun ρ a ρ' hE => ?_
      rw [exec, hE, map_some]

variable {ev : Evaluator}

theorem body_progress (hc : c.HandlesApart) (hsite : site.context = c)
    (hcan : site.canSchedule = true) (hstmts : stmts.all (c.stmtOnStores writes) = true)
    (hev : ∀ e, .eval e ∈ stmts → Faithful H answer c ev e) (h : body site stmts s = .ok u t) :
    c.Progress H answer bound s t (body ev stmts) := by
  induction stmts generalizing s with
  | nil =>
    rw [Stage.body] at h
    obtain ⟨-, rfl⟩ := pure_eq_ok.1 h
    exact .refl s
  | cons stmt rest ih =>
    simp only [all_cons, Bool.and_eq_true] at hstmts
    obtain ⟨s₁, hstmt, -, hrest⟩ := body_cons h
    cases stmt
    case eval e =>
      have hfirst : c.Progress H answer bound s s₁
          (fun w => (callsFirst H answer c e w).map (·.2)) :=
        evalStmt_progress hc hstmts.1 hsite hcan hstmt
      have hothers := ih hstmts.2 (fun e he => hev e (mem_cons_of_mem _ he)) hrest
      refine (Progress.trans hfirst hothers.of_uses).of_le fun w w₂ hw => ?_
      obtain ⟨⟨v, w₁⟩, hv, hw⟩ := bind_eq_some_iff.1 hw
      rw [hev e mem_cons_self w _ hv]
      exact hw
    all_goals cases hstmts.1

theorem initializer_progress (hc : c.HandlesApart) {id : StoreId} {store : Store}
    (hstore : c.activity.stores[id]? = some store) (he : c.onStores writes e = true)
    (hsite : site.context = c) (hcan : site.canSchedule = true)
    (h : initializer site store e s = .ok u t) : c.Progress H answer bound s t fun w =>
      (callsFirst H answer c e w).map fun q => q.2.set id q.1 := by
  obtain ⟨x, hname⟩ := hc.named id store hstore
  have hx : c.Handle id x := ⟨store, hstore, hname⟩
  rcases initializer_ok (hsite ▸ Array.mem_of_getElem? hstore) h with
    ⟨o, f, args, attr, read, a, rfl, hattr, h⟩ | ⟨v, a, s₁, hv, rfl⟩
  · rw [hsite] at hattr
    rw [onStores, Bool.and_eq_true, hattr] at he
    exact scheduleInto_progress hc hattr he.1 he.2 hx hname hsite h
  · have hwell : c.StagesWell H answer bound e := stagesWell hc (.of_onStores he)
    have hwrite := (hwell hv hsite fun hs => by simp [hcan] at hs).map _
      (fun ρ k hk => Yields.write H bound hc hx hname {} hk) fun w => rfl
    refine (Progress.of_yields hc hv.emits hwrite fun ρ a ρ' hE => ?_).of_le fun w w₁ hw => ?_
    · exact (congrArg (Option.map (·.2)) hE).trans rfl
    · simpa [callsFirst, atOnce, Option.map_eq_bind, Option.bind_assoc,
        Function.comp_def] using hw

theorem code_progress (hc : c.HandlesApart) (hsite : site.context = c)
    (hcan : site.canSchedule = true) (hstores : c.fragmentOnStores writes stmts declared = true)
    (hev : ∀ e ∈ fragmentExprs stmts declared, Faithful H answer c ev e)
    (h : code site stmts (declared.bind fun id => c.activity.stores[id]?) s = .ok u t) :
    c.Progress H answer bound s t (fragment ev stmts declared) := by
  unfold fragmentOnStores at hstores
  split at hstores
  case h_1 id o op target e =>
    -- The fragment gives a store its first value.
    rw [Bool.and_eq_true] at hstores
    obtain ⟨store, hstore⟩ := isSome_iff_exists.1 hstores.1
    rw [bind_some, hstore, code] at h
    have hinit : c.Progress H answer bound s t _ :=
      initializer_progress hc hstore hstores.2 hsite hcan h
    refine hinit.of_le fun w w₁ hw => ?_
    obtain ⟨⟨v, w'⟩, hv, hw⟩ := bind_eq_some_iff.1 hw
    rw [hev e (mem_singleton.2 rfl) w _ hv]
    exact hw
  case h_2 hother =>
    have hexprs : ∀ e, .eval e ∈ stmts → Faithful H answer c ev e := by
      intro e he
      refine hev e ?_
      unfold fragmentExprs
      split
      · exact absurd rfl (hother _ _ _ _ _ rfl)
      · exact mem_filterMap.2 ⟨_, he, rfl⟩
    have hbody : body site stmts s = .ok u t := by
      generalize hstore : (declared.bind fun id => c.activity.stores[id]?) = store at h
      unfold code at h
      split at h
      · obtain ⟨id, rfl, -⟩ := bind_eq_some_iff.1 hstore
        exact absurd rfl (hother _ _ _ _ _ rfl)
      · exact h
    refine (body_progress hc hsite hcan hstores hexprs hbody).of_le fun w w₁ hw => ?_
    unfold fragment at hw
    split at hw
    · exact absurd rfl (hother _ _ _ _ _ rfl)
    · exact hw

theorem fragments_progress (hc : c.HandlesApart) (hsite : site.context = c)
    (hcan : site.canSchedule = true) {fragments : List (List CodeStmt × Option StoreId)}
    (hstores : ∀ f ∈ fragments, c.fragmentOnStores writes f.1 f.2 = true)
    (hev : ∀ f ∈ fragments, ∀ e ∈ fragmentExprs f.1 f.2, Faithful H answer c ev e)
    (h : Stage.fragments site fragments s = .ok u t) :
    c.Progress H answer bound s t (Source.fragments ev fragments) := by
  induction fragments generalizing s with
  | nil =>
    obtain ⟨-, rfl⟩ := Stage.pure_eq_ok.1 h
    exact .refl s
  | cons f rest ih =>
    obtain ⟨_, s₁, hcode, hrest⟩ := Stage.bind_eq_ok.1 h
    rw [hsite] at hcode
    have hfirst : c.Progress H answer bound s s₁ (fragment ev f.1 f.2) :=
      code_progress hc hsite hcan (hstores f mem_cons_self) (hev f mem_cons_self) hcode
    have hothers := ih (fun f hf => hstores f (mem_cons_of_mem _ hf))
      (fun f hf => hev f (mem_cons_of_mem _ hf)) hrest
    exact hfirst.trans hothers

end Statements

end LowerContext

end Workflow
