import Workflow.Proofs.Run.Effects

/-!
# When calls may be made first

An orderly expression has the same value and the same effect with its calls made first. What is left
of a left operand when the calls of a right operand are made is apart from these calls, so the two
may change places.
-/

namespace Workflow

open LowerContext Option Bool

variable {e : Expr} {o : Origin} {writes : Bool}
variable {op : BinaryOp} {w : World StoreId} {stmts : List CodeStmt} {declared : Option StoreId}

namespace Source

variable {α β : Type} {H : Runtime} {answer : Answer} {c : LowerContext}

theorem operate_mono {a : Value} {f g : Rest Value} (h : ∀ w q, f w = some q → g w = some q)
    {q : Value × World StoreId} (hf : H.operate op a f w = some q) :
    H.operate op a g w = some q := by
  unfold Runtime.operate at hf ⊢
  cases hd : op.decided? a with
  | some v => rwa [hd] at hf
  | none =>
    rw [hd] at hf
    obtain ⟨r, hr, hq⟩ := bind_eq_some_iff.1 hf
    exact bind_eq_some_iff.2 ⟨r, h w r hr, hq⟩

theorem operate_eq_some (hop : op.isShortCircuit = false) {a : Value} {f : Rest Value}
    {q : Value × World StoreId} (h : H.operate op a f w = some q) :
    ∃ b, f w = some (b, q.2) ∧ H.binary op a b = some q.1 := by
  rw [Runtime.operate_of_strict H hop] at h
  obtain ⟨⟨b, w₁⟩, hb, h⟩ := bind_eq_some_iff.1 h
  obtain ⟨v, hv, rfl⟩ := map_eq_some_iff.1 h
  exact ⟨b, hb, hv⟩

/-- If what is left of an operand is apart from the calls of a later one, then the calls of both may
be made before the rest of either. -/
theorem both_in_order {S : World StoreId → Option (Rest α × World StoreId)}
    {T : World StoreId → Option (Rest β × World StoreId)} (hS : LocalIn a S) (hT : LocalIn b T)
    (hap : a.rest.apart b.steps = true) {x : α} {y : β}
    (hx : atOnce S w = some (x, w₁)) (hy : atOnce T w₁ = some (y, w₂)) :
    ∃ k u l v, S w = some (k, u) ∧ T u = some (l, v) ∧
      ∃ v', k v = some (x, v') ∧ l v' = some (y, w₂) := by
  obtain ⟨k, u, hk, hx⟩ := atOnce_eq_some.1 hx
  obtain ⟨l, u', hl, hy⟩ := atOnce_eq_some.1 hy
  obtain ⟨v, hv, hkv⟩ := (hS.2 w k u hk).swap hT.1 hap hx hl
  exact ⟨k, u, l, v, hk, hv, u', hkv, hy⟩

theorem settle_of_not_schedules (he : c.OnStores e) (hs : c.schedules e = false)
    (w : World StoreId) : settle H answer c e w = some (eval H answer c e, w) := by
  induction he generalizing w with
  | literal | name => rw [settle]
  | step hop => rw [settle, if_pos hop]
  | @unary _ _ op hop _ ih =>
    rw [schedules_unary] at hs
    rw [settle, if_neg (by simp [hop]), ih hs w]
    have hstep : op.stepOp = none := by simpa [UnaryOp.isStep] using hop
    refine congrArg (fun k => some (k, w)) (funext fun w => ?_)
    rw [eval, hstep]
    rfl
  | binary _ _ ihl ihr =>
    simp only [schedules_binary, Bool.or_eq_false_iff] at hs
    rw [settle, ihl hs.1 w]
    simp only [bind_eq_bind, bind_some, hs.2, Bool.and_false, Bool.false_eq_true,
      if_false, ihr hs.2, pure_def]
    refine congrArg (fun k => some (k, w)) (funext fun w => ?_)
    rw [eval]
    rfl
  | conditional _ _ _ iht ihy ihn =>
    simp only [schedules_conditional, Bool.or_eq_false_iff] at hs
    rw [settle, iht hs.1 w]
    simp only [bind_eq_bind, bind_some, hs.2.1, hs.2.2, Bool.or_false,
      Bool.false_eq_true, if_false, ihy hs.2.1, ihn hs.2.2, pure_def]
    refine congrArg (fun k => some (k, w)) (funext fun w => ?_)
    rw [eval]
    rfl
  | assign ht _ ih =>
    simp only [schedules_assign, Bool.or_eq_false_iff] at hs
    obtain ⟨store, hstore⟩ := storeFor?_of_isStore ht
    obtain ⟨id, hid, -⟩ := bind_eq_some_iff.1 (c.storeFor?_eq _ ▸ hstore)
    rw [settle, hid]
    simp only [bind_eq_bind, bind_some, ih hs.2, pure_def]
    refine congrArg (fun k => some (k, w)) (funext fun w => ?_)
    rw [eval, hid]
    rfl
  | cast _ ih =>
    rw [schedules_cast] at hs
    rw [settle, ih hs w]
    refine congrArg (fun k => some (k, w)) (funext fun w => ?_)
    rw [eval]
  | call hattr =>
    rw [schedules_call c _ hattr] at hs
    cases hs

namespace Faithful

theorem of_left (hS : ∀ w, settle H answer c e w = some (eval H answer c e, w)) :
    Faithful H answer c (eval H answer c) e := by
  intro w q hq
  exact atOnce_eq_some.2 ⟨_, w, hS w, hq⟩

theorem unary {op : UnaryOp} (hop : op.isStep = false)
    (h : Faithful H answer c (eval H answer c) e) :
    Faithful H answer c (eval H answer c) (.unary o op e) := by
  intro w q hq
  have hstep : op.stepOp = none := by simpa [UnaryOp.isStep] using hop
  rw [eval, hstep] at hq
  obtain ⟨⟨v, w₁⟩, hv, hq⟩ := bind_eq_some_iff.1 hq
  obtain ⟨k, u, hk, hkv⟩ := atOnce_eq_some.1 (h w _ hv)
  refine atOnce_eq_some.2 ⟨.unary H op k, u, ?_, bind_eq_some_iff.2 ⟨_, hkv, hq⟩⟩
  rw [settle, if_neg (by simp [hop]), hk]
  rfl

/-- An operator that is evaluated as a whole among the calls. -/
theorem shortCircuit (hskip : (op.isShortCircuit && c.schedules r) = true)
    (hl : Faithful H answer c (eval H answer c) l) (hr : Faithful H answer c (eval H answer c) r) :
    Faithful H answer c (eval H answer c) (.binary o op l r) := by
  intro w q hq
  rw [eval] at hq
  obtain ⟨⟨a, w₁⟩, ha, hq⟩ := bind_eq_some_iff.1 hq
  obtain ⟨k, u, hk, hka⟩ := atOnce_eq_some.1 (hl w _ ha)
  have hop : H.operate op a (atOnce fun w => settle H answer c r w) w₁ = some q :=
    operate_mono hr hq
  refine atOnce_eq_some.2 ⟨.done q.1, q.2, ?_, rfl⟩
  rw [settle, hk]
  simp only [bind_eq_bind, bind_some, hskip, if_true, hka, hop, pure_def]

theorem binary_left (hskip : (op.isShortCircuit && c.schedules r) = false)
    (hl : Faithful H answer c (eval H answer c) l)
    (hr : ∀ w, settle H answer c r w = some (eval H answer c r, w)) :
    Faithful H answer c (eval H answer c) (.binary o op l r) := by
  intro w q hq
  rw [eval] at hq
  obtain ⟨⟨a, w₁⟩, ha, hq⟩ := bind_eq_some_iff.1 hq
  obtain ⟨k, u, hk, hka⟩ := atOnce_eq_some.1 (hl w _ ha)
  refine atOnce_eq_some.2
    ⟨.operate H op k (eval H answer c r), u, ?_, bind_eq_some_iff.2 ⟨_, hka, hq⟩⟩
  rw [settle, hk]
  simp only [bind_eq_bind, bind_some, hskip, false_eq_true, if_false, hr,
    pure_def]

/-- An operator that needs both sides. -/
theorem strict (hop : op.isShortCircuit = false)
    (hap : (c.effects l).rest.apart (c.effects r).steps = true)
    (hl : Faithful H answer c (eval H answer c) l) (hr : Faithful H answer c (eval H answer c) r) :
    Faithful H answer c (eval H answer c) (.binary o op l r) := by
  intro w q hq
  rw [eval] at hq
  obtain ⟨⟨a, w₁⟩, ha, hq⟩ := bind_eq_some_iff.1 hq
  obtain ⟨b, hb, hq⟩ := operate_eq_some hop hq
  obtain ⟨k, u, l', v, hk, hl', v', hkv, hlv⟩ :=
    both_in_order (localIn_expr l) (localIn_expr r) hap (hl w _ ha) (hr w₁ _ hb)
  refine atOnce_eq_some.2 ⟨.operate H op k l', v, ?_, bind_eq_some_iff.2 ⟨_, hkv, ?_⟩⟩
  · rw [settle, hk]
    simp only [bind_eq_bind, bind_some, hop, Bool.false_and, Bool.false_eq_true,
      if_false, hl', pure_def]
  · dsimp only
    rw [Runtime.operate_of_strict H hop, hlv, bind_some, hq]
    rfl

/-- A choice that is made among the calls. -/
theorem choice (hskip : (c.schedules y || c.schedules n) = true)
    (ht : Faithful H answer c (eval H answer c) t) (hy : Faithful H answer c (eval H answer c) y)
    (hn : Faithful H answer c (eval H answer c) n) :
    Faithful H answer c (eval H answer c) (.conditional o t y n) := by
  intro w q hq
  rw [eval] at hq
  obtain ⟨⟨a, w₁⟩, ha, hq⟩ := bind_eq_some_iff.1 hq
  obtain ⟨b, hb, hq⟩ := bind_eq_some_iff.1 hq
  obtain ⟨k, u, hk, hka⟩ := atOnce_eq_some.1 (ht w _ ha)
  have hside : (if b then atOnce (fun w => settle H answer c y w) w₁
      else atOnce (fun w => settle H answer c n w) w₁) = some q := by
    cases b with
    | true => exact hy w₁ q hq
    | false => exact hn w₁ q hq
  refine atOnce_eq_some.2 ⟨.done q.1, q.2, ?_, rfl⟩
  rw [settle, hk]
  simp only [bind_eq_bind, bind_some, hskip, if_true, hka, hb, hside, pure_def]

theorem choice_left (hskip : (c.schedules y || c.schedules n) = false)
    (ht : Faithful H answer c (eval H answer c) t)
    (hy : ∀ w, settle H answer c y w = some (eval H answer c y, w))
    (hn : ∀ w, settle H answer c n w = some (eval H answer c n, w)) :
    Faithful H answer c (eval H answer c) (.conditional o t y n) := by
  intro w q hq
  rw [eval] at hq
  obtain ⟨⟨a, w₁⟩, ha, hq⟩ := bind_eq_some_iff.1 hq
  obtain ⟨k, u, hk, hka⟩ := atOnce_eq_some.1 (ht w _ ha)
  refine atOnce_eq_some.2
    ⟨.choose k (eval H answer c y) (eval H answer c n), u, ?_,
      bind_eq_some_iff.2 ⟨_, hka, hq⟩⟩
  rw [settle, hk]
  simp only [bind_eq_bind, bind_some, hskip, false_eq_true, if_false, hy, hn,
    pure_def]

/-- An assignment whose calls do not write the old value. -/
theorem assign {o : Origin} {op : AssignOp} {t e : Expr}
    (hap : op.binary.isSome → Footprint.apart { reads := (c.storeIdFor? t).toList }
      (c.effects e).steps = true) (h : Faithful H answer c (eval H answer c) e) :
    Faithful H answer c (eval H answer c) (.assign o op t e) := by
  intro w q hq
  rw [eval] at hq
  obtain ⟨id, hid, hq⟩ := bind_eq_some_iff.1 hq
  have hS : ∀ k u, settle H answer c e w = some (k, u) →
      settle H answer c (.assign o op t e) w = some (.assign H op id k, u) := by
    intro k u hk
    rw [settle, hid, bind_eq_bind, bind_some, hk]
    rfl
  cases hbin : op.binary with
  | none =>
    rw [hbin] at hq
    obtain ⟨⟨v, w₁⟩, hv, hq⟩ := bind_eq_some_iff.1 hq
    obtain ⟨k, u, hk, hkv⟩ := atOnce_eq_some.1 (h w _ hv)
    refine atOnce_eq_some.2 ⟨_, u, hS k u hk, ?_⟩
    simp only [Rest.assign, hbin]
    exact bind_eq_some_iff.2 ⟨_, hkv, hq⟩
  | some bin =>
    rw [hbin] at hq
    obtain ⟨old, hold, hq⟩ := bind_eq_some_iff.1 hq
    obtain ⟨⟨v, w₁⟩, hv, hq⟩ := bind_eq_some_iff.1 hq
    obtain ⟨k, u, hk, hkv⟩ := atOnce_eq_some.1 (h w _ hv)
    have hap' : Footprint.apart { reads := [id] } (c.effects e).steps = true := by
      simpa [hid] using hap (by simp [hbin])
    -- The calls do not change the old value, so it may be read after them.
    have hu : u.vars id = some old := by
      rw [(localIn_expr e).1.vars_of_not_mem hk
        fun hw => (Footprint.not_mem_of_apart_right hap' hw).1 List.mem_cons_self]
      exact hold
    refine atOnce_eq_some.2 ⟨_, u, hS k u hk, ?_⟩
    simp only [Rest.assign, hbin]
    exact bind_eq_some_iff.2 ⟨old, hu, bind_eq_some_iff.2 ⟨_, hkv, hq⟩⟩

theorem cast (h : Faithful H answer c (eval H answer c) e) :
    Faithful H answer c (eval H answer c) (.cast o ty e) := by
  intro w q hq
  rw [eval] at hq
  obtain ⟨k, u, hk, hkv⟩ := atOnce_eq_some.1 (h w q hq)
  refine atOnce_eq_some.2 ⟨k, u, ?_, hkv⟩
  rw [settle, hk]

theorem call {o : Origin} {callee : Expr} {args : List Argument}
    (h : ∀ w q, evalArgs H answer c args w = some q →
      atOnce (settleArgs H answer c args) w = some q) :
    Faithful H answer c (eval H answer c) (.call o callee args) := by
  intro w q hq
  rw [eval] at hq
  obtain ⟨attr, hattr, hq⟩ := bind_eq_some_iff.1 hq
  obtain ⟨⟨vs, w₁⟩, hvs, hq⟩ := bind_eq_some_iff.1 hq
  rw [callsFirst_call hattr, h w _ hvs]
  exact hq

end Faithful

theorem args_in_order (hap : (c.effects e).rest.apart (c.argsEffects args).steps = true)
    (he : Faithful H answer c (eval H answer c) e) (h : ∀ w q, evalArgs H answer c args w = some q →
      atOnce (settleArgs H answer c args) w = some q)
    (hq : evalArgs H answer c (.mk .input e :: args) w = some q) :
    atOnce (settleArgs H answer c (.mk .input e :: args)) w = some q := by
  rw [evalArgs, if_pos rfl] at hq
  obtain ⟨⟨v, w₁⟩, hv, hq⟩ := bind_eq_some_iff.1 hq
  obtain ⟨⟨vs, w₂⟩, hvs, hq⟩ := bind_eq_some_iff.1 hq
  obtain ⟨k, u, l, u₁, hk, hl, u', hkv, hlv⟩ :=
    both_in_order (localIn_expr e) (localIn_args args) hap (he w _ hv) (h w₁ _ hvs)
  refine atOnce_eq_some.2 ⟨.cons k l, u₁, ?_, bind_eq_some_iff.2
    ⟨_, hkv, bind_eq_some_iff.2 ⟨_, hlv, hq⟩⟩⟩
  rw [settleArgs, if_pos rfl, hk]
  simp only [bind_eq_bind, bind_some, hl, pure_def]

theorem args_faithful (hin : ∀ a ∈ args, a.direction = .input)
    (hargs : ∀ a ∈ args, c.orderly a.value = true → Faithful H answer c (eval H answer c) a.value)
    (ho : (c.argsEffects args).orderly = true) (w : World StoreId)
    (q : List Value × World StoreId) (hq : evalArgs H answer c args w = some q) :
    atOnce (settleArgs H answer c args) w = some q := by
  induction args generalizing w q with
  | nil =>
    rw [evalArgs] at hq
    refine atOnce_eq_some.2 ⟨.done [], w, ?_, hq⟩
    rw [settleArgs]
  | cons a rest ih =>
    obtain ⟨d, e⟩ := a
    obtain ⟨hd, hin'⟩ := List.forall_mem_cons.1 hin
    obtain ⟨he, hargs'⟩ := List.forall_mem_cons.1 hargs
    cases hd
    simp only [argsEffects, Effects.both, and_eq_true] at ho
    exact args_in_order ho.2 (he ho.1.1) (ih hin' hargs' ho.1.2) hq

/-- An orderly expression may make its calls first. -/
theorem faithful_of_orderly (he : c.OnStores e) (ho : c.orderly e = true) :
    Faithful H answer c (eval H answer c) e := by
  induction he with
  | literal | name => exact .of_left fun w => by rw [settle]
  | step hop =>
    refine .of_left fun w => ?_
    rw [settle, if_pos hop]
  | unary hop _ ih =>
    rw [orderly, effects, if_neg (by simp [hop])] at ho
    exact .unary hop (ih ho)
  | @binary l r o op hl hr ihl ihr =>
    rw [orderly, effects] at ho
    cases hskip : op.isShortCircuit && c.schedules r with
    | true =>
      simp only [hskip, if_true, Effects.inTurn, and_eq_true] at ho
      exact .shortCircuit hskip (ihl ho.1) (ihr ho.2)
    | false =>
      simp only [hskip, false_eq_true, if_false, Effects.both, and_eq_true] at ho
      cases hop : op.isShortCircuit with
      | true =>
        have hs : c.schedules r = false := by simpa [hop] using hskip
        exact .binary_left hskip (ihl ho.1.1) (settle_of_not_schedules hr hs)
      | false => exact .strict hop ho.2 (ihl ho.1.1) (ihr ho.1.2)
  | @conditional e y n o _ hy hn iht ihy ihn =>
    rw [orderly, effects] at ho
    cases hskip : c.schedules y || c.schedules n with
    | true =>
      simp only [hskip, if_true, Effects.inTurn, and_eq_true] at ho
      exact .choice hskip (iht ho.1) (ihy ho.2.1) (ihn ho.2.2)
    | false =>
      simp only [hskip, false_eq_true, if_false, Effects.both, and_eq_true] at ho
      have hs := or_eq_false_iff.1 hskip
      exact .choice_left hskip (iht ho.1.1) (settle_of_not_schedules hy hs.1)
        (settle_of_not_schedules hn hs.2)
  | assign _ _ ih =>
    simp only [orderly, effects, Effects.assign, and_eq_true] at ho
    refine .assign (fun hbin => ?_) (ih ho.1)
    simpa [hbin] using ho.2
  | cast _ ih =>
    rw [orderly, effects] at ho
    exact .cast (ih ho)
  | call _ _ hin _ ih =>
    rw [orderly, effects] at ho
    exact .call (args_faithful hin ih ho)

theorem faithful_of_stmt (he : c.stmtOnStores writes (.eval e) = true) (ho : c.orderly e = true) :
    Faithful H answer c (eval H answer c) e := by
  by_cases hcall : ∃ o f args, e = .call o f args
  · obtain ⟨o, f, args, rfl⟩ := hcall
    obtain ⟨hin, hargs⟩ := of_stmtOnStores_call he
    rw [orderly, effects] at ho
    exact .call (args_faithful hin (fun a ha => faithful_of_orderly (hargs a ha)) ho)
  · exact faithful_of_orderly (.of_stmt he fun o f args h => hcall ⟨o, f, args, h⟩) ho

theorem onStores_of_mem_fragmentExprs (hstores : c.fragmentOnStores writes stmts declared = true)
    (he : e ∈ fragmentExprs stmts declared) :
    c.onStores writes e = true ∨ c.stmtOnStores writes (.eval e) = true := by
  unfold fragmentExprs at he
  unfold fragmentOnStores at hstores
  split at hstores
  · rw [and_eq_true] at hstores
    rw [List.mem_singleton.1 he]
    exact .inl hstores.2
  case h_2 hother =>
    split at he
    · exact absurd rfl (hother _ _ _ _ _ rfl)
    obtain ⟨stmt, hstmt, he⟩ := List.mem_filterMap.1 he
    cases stmt
    case eval e' =>
      cases he
      exact .inr (List.all_eq_true.1 hstores _ hstmt)
    all_goals cases he

theorem faithful_of_fragment (hstores : c.fragmentOnStores writes stmts declared = true)
    (ho : ∀ e ∈ fragmentExprs stmts declared, c.orderly e = true) :
    ∀ e ∈ fragmentExprs stmts declared, Faithful H answer c (eval H answer c) e := by
  intro e he
  rcases onStores_of_mem_fragmentExprs hstores he with h | h
  · exact faithful_of_orderly (.of_onStores h) (ho e he)
  · exact faithful_of_stmt h (ho e he)

end Source

/-- Effects without a write. -/
structure Effects.ReadOnly (a : Effects) : Prop where
  steps : a.steps.writes = []
  rest : a.rest.writes = []
  calls : a.rest.calls = false
  orderly : a.orderly = true

namespace Effects.ReadOnly

variable {a b : Effects}

theorem inTurn (ha : a.ReadOnly) (hb : b.ReadOnly) : (a.inTurn b).ReadOnly where
  steps := by simp [Effects.inTurn, ha.steps, ha.rest, hb.steps, hb.rest]
  rest := rfl
  calls := rfl
  orderly := by simp [Effects.inTurn, ha.orderly, hb.orderly]

theorem both (ha : a.ReadOnly) (hb : b.ReadOnly) : (a.both b).ReadOnly where
  steps := by simp [Effects.both, ha.steps, hb.steps]
  rest := by simp [Effects.both, ha.rest, hb.rest]
  calls := by simp [Effects.both, ha.calls, hb.calls]
  orderly := by
    simp [Effects.both, ha.orderly, hb.orderly, Footprint.apart, ha.rest, ha.calls, hb.steps]

end Effects.ReadOnly

namespace LowerContext

variable {c : LowerContext}

mutual
/-- An expression that may not write has no writes among its effects, and so is orderly. -/
theorem readOnly : ∀ {e : Expr}, c.onStores false e = true → (c.effects e).ReadOnly
  | .literal .., _ => ⟨rfl, rfl, rfl, rfl⟩
  | .name .., _ => ⟨rfl, rfl, rfl, rfl⟩
  | .unary o op e, he => by
    rw [onStores] at he
    rw [effects]
    cases hop : op.isStep with
    | true => simp [hop] at he
    | false => exact readOnly (by simpa [hop] using he)
  | .binary o op l r, he => by
    simp only [onStores, and_eq_true] at he
    rw [effects]
    split
    · exact (readOnly he.1).inTurn (readOnly he.2)
    · exact (readOnly he.1).both (readOnly he.2)
  | .conditional o t y n, he => by
    simp only [onStores, and_eq_true] at he
    rw [effects]
    split
    · exact (readOnly he.1.1).inTurn ((readOnly he.1.2).inTurn (readOnly he.2))
    · exact (readOnly he.1.1).both ((readOnly he.1.2).both (readOnly he.2))
  | .assign .., he => by simp [onStores] at he
  | .cast o ty e, he => by
    rw [onStores] at he
    rw [effects]
    exact readOnly he
  | .call o callee args, he => by
    simp only [onStores, and_eq_true] at he
    have hargs := argsReadOnly he.2
    rw [effects]
    exact ⟨by simp [Effects.atOnce, hargs.steps, hargs.rest], rfl, rfl, hargs.orderly⟩
  | .member .., he | .create .., he | .lambda .., he | .index .., he | .block .., he => by
    simp [onStores] at he

theorem argsReadOnly : ∀ {args : List Argument}, c.argsOnStores false args = true →
    (c.argsEffects args).ReadOnly
  | [], _ => ⟨rfl, rfl, rfl, rfl⟩
  | .mk d e :: rest, he => by
    simp only [argsOnStores, and_eq_true] at he
    rw [argsEffects]
    exact (readOnly he.1.2).both (argsReadOnly he.2)
end

/-- A statement that writes at most one store as a whole is orderly. -/
theorem orderly_of_stmt (he : c.stmtOnStores false (.eval e) = true) : c.orderly e = true := by
  cases e
  case call o f args =>
    rw [stmtOnStores, and_eq_true] at he
    rw [orderly, effects]
    exact (argsReadOnly he.2).orderly
  case assign o op target e =>
    rw [stmtOnStores, and_eq_true] at he
    have h := readOnly he.2
    simp [orderly, effects, Effects.assign, Footprint.apart, h.orderly, h.steps]
  case unary o op e =>
    rw [stmtOnStores] at he
    rw [orderly, effects]
    cases hop : op.isStep with
    | true => rfl
    | false => exact (readOnly (by simpa [hop] using he)).orderly
  all_goals exact (readOnly (show c.onStores false _ = true from he)).orderly

/-- The expressions of a fragment without nested writes are orderly. -/
theorem orderly_of_fragment (hstores : c.fragmentOnStores false stmts declared = true) :
    ∀ e ∈ Source.fragmentExprs stmts declared, c.orderly e = true := by
  intro e he
  rcases Source.onStores_of_mem_fragmentExprs hstores he with h | h
  · exact (readOnly h).orderly
  · exact orderly_of_stmt h

end LowerContext

end Workflow
