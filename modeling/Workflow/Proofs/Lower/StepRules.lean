import Workflow.Proofs.Lower.Carry

/-!
# Rules for the steps that staging adds

A scheduled call is a single step. An operator whose right side may be skipped is a skip over the
steps of that side, and a choice is a pair of skips, of which one is passed over.
-/

namespace Workflow

open Engine Lower Stage Option

open Source (Rest)
open StepList (Positioned KeepsIndex moved)

variable {attr : SchedulingAttribute} {as : List NodeArgument}
variable {ks : Rest (List Value)} {ρ : World String} {index : Option String} {r : Nat} {x : String}

namespace LowerContext

variable {c : LowerContext} {H : Runtime} {answer : Answer} {bound n m : Nat}

/-- What a node that schedules a call does up to the answer. -/
theorem run_invoke {location : Option Location} {w w' : World StoreId} {vs : List Value}
    (hy : c.Yields m ρ (arguments H bound as) ks) (hag : c.Agrees w ρ) (hk : ks w = some (vs, w')) :
    ∃ ρ', c.Frame ρ ρ' ∧ c.Agrees (w'.schedule answer attr.nodeType vs).2 ρ' ∧
      run H answer bound (invokeNode attr as location) ρ =
        store location (w'.schedule answer attr.nodeType vs).1 ρ' := by
  obtain ⟨ρ₁, hargs, hag₁, hfr⟩ := hy w ρ hag (.refl m ρ) vs w' hk
  obtain ⟨hanswer, hag₂⟩ := hag₁.schedule answer attr.nodeType vs
  refine ⟨(ρ₁.schedule answer attr.nodeType vs).2, hfr, hag₂, ?_⟩
  rw [invokeNode, Node.ofKind, Node.named, run, runKind, hargs, ← hanswer]
  rfl

/-- A scheduled call, by what is done with the answer. -/
theorem Carries.invoke (hc : c.HandlesApart) {κ : Type}
    {location : Option Location} {ks : Rest (List Value)}
    {T : Value → World StoreId → Option (κ × World StoreId)} {Q : World String → κ → Prop}
    (hT : ∀ index steps, Fits index steps → ∀ w ρ v k w₁, c.Agrees w ρ → T v w = some (k, w₁) →
      ∃ ρ', store location v ρ = some ρ' ∧ c.Agrees w₁ ρ' ∧ Stable n ρ ρ' ∧
        KeepsIndex index ρ ρ' ∧ ∀ position, Q (moved index position ρ') k) :
    c.Carries H answer bound n (fun ρ => c.Yields m ρ (arguments H bound as) ks)
      (fun w => (ks w).bind fun r =>
        T (r.2.schedule answer attr.nodeType r.1).1 (r.2.schedule answer attr.nodeType r.1).2)
      [.node (invokeNode attr as location)] Q := by
  intro index hfit position w ρ hag hpos hy k w₁ hS
  obtain ⟨⟨vs, w'⟩, hk, hS⟩ := bind_eq_some_iff.1 hS
  obtain ⟨ρ₁, hfr, hag₁, hrun⟩ := run_invoke (m := m) hy hag hk
  obtain ⟨ρ₂, hstore, hag₂, hst, hidx, hQ⟩ := hT index _ hfit _ ρ₁ _ k w₁ hag₁ hS
  have hkeeps : KeepsIndex index ρ ρ₂ := fun x hx =>
    (hidx x hx).trans (hfr.keepsIndex hc hfit x hx)
  refine ⟨_, runFrom_node hpos (hrun.trans hstore) hkeeps,
    StepList.positioned_moved index _ ρ₂, hag₂.moved hc hfit _, ?_, hQ _⟩
  exact ((hfr.stable hc n).trans hst (Nat.le_refl n)).trans (stable_moved hfit n _ ρ₂)
    (Nat.le_refl n)

theorem yields_result_moved (hfit : Fits index steps)
    (hv : ρ.vars (resultName r) = some v) (hr : r ≤ m) :
    c.Yields m (moved index position ρ) (eval H bound (getVar (resultName r))) (Rest.done v) :=
  Yields.result H bound r hr ((stable_moved hfit r position ρ r (Nat.le_refl r)).trans hv)

/-- A scheduled call whose answer goes into a result variable. -/
theorem Carries.call (hc : c.HandlesApart) {ty : Option TypeName} (hlt : n < r) :
    c.Carries H answer bound n (fun ρ => c.Yields m ρ (arguments H bound as) ks)
      (fun w => (ks w).bind fun q =>
        some (Rest.done (q.2.schedule answer attr.nodeType q.1).1,
          (q.2.schedule answer attr.nodeType q.1).2))
      [.node (invokeNode attr as (some { ty := ty, handle := .ident (resultName r) }))]
      (fun ρ k => c.Yields r ρ (eval H bound (getVar (resultName r))) k) := by
  refine Carries.invoke hc (T := fun v w => some (Rest.done v, w)) ?_
  intro index steps hfit w ρ v k w₁ hag hT
  cases hT
  have hq := quiet_set_result hc hfit ρ v hlt
  refine ⟨ρ.set (resultName r) v, rfl, hq.agrees hag, hq.stable, hq.index, fun position => ?_⟩
  exact yields_result_moved hfit (World.vars_set_self ρ _ v) (Nat.le_refl r)

theorem Carries.callDiscard (hc : c.HandlesApart) :
    c.Carries H answer bound n (fun ρ => c.Yields m ρ (arguments H bound as) ks)
      (fun w => (ks w).bind fun q => some (q.2.schedule answer attr.nodeType q.1))
      [.node (invokeNode attr as none)] (fun _ _ => True) := by
  refine Carries.invoke hc (T := fun v w => some (v, w)) ?_
  intro index steps hfit w ρ v k w₁ hag hT
  cases hT
  exact ⟨ρ, rfl, hag, .refl n ρ, fun _ _ => rfl, fun _ => trivial⟩

theorem Carries.callInto (hc : c.HandlesApart) {loc : Location} {id : StoreId}
    (hx : c.Handle id x) (hname : loc.handle.asName = some x) :
    c.Carries H answer bound n (fun ρ => c.Yields m ρ (arguments H bound as) ks)
      (fun w => (ks w).bind fun q =>
        some ((q.2.schedule answer attr.nodeType q.1).1,
          (q.2.schedule answer attr.nodeType q.1).2.set id
            (q.2.schedule answer attr.nodeType q.1).1))
      [.node (invokeNode attr as (some loc))] (fun _ _ => True) := by
  refine Carries.invoke hc (T := fun v w => some (v, w.set id v)) ?_
  intro index steps hfit w ρ v k w₁ hag hT
  cases hT
  have hfr := frame_set ρ hx v
  refine ⟨ρ.set x v, ?_, hag.set hc hx v, hfr.stable hc n, hfr.keepsIndex hc hfit,
    fun _ => trivial⟩
  simp [store, Location.name?, hname]

section Operator

variable {index : Option String} {steps : List Step} {op : BinaryOp} {left : Expr} {r : Nat}
variable {ρ ρ' : World String} {a b v : Value}

theorem exec_setVar (h : eval H bound e ρ = some (v, ρ')) :
    exec H bound (setVar x e) ρ = some (ρ'.set x v) := by
  rw [setVar, exec, eval_storeSet H bound rfl, h]
  rfl

theorem eval_getVar (h : ρ.vars x = some v) : eval H bound (getVar x) ρ = some (v, ρ) := by
  rw [getVar, eval_storeGet H bound rfl, h, map_some]

theorem eval_not {e : Expr} {b : Bool} (h : eval H bound e ρ = some (.bool b, ρ')) :
    eval H bound (.not e) ρ = some (.bool (!b), ρ') := by
  simp [Expr.not, eval, h, UnaryOp.isStep, UnaryOp.stepOp, H.not_bool]

theorem eval_ne_null (h : ρ.vars x = some v) :
    eval H bound (.apply .ne (.ident x) .null) ρ = some (.bool (!v.isNull), ρ) := by
  have hstrict : BinaryOp.ne.isShortCircuit = false := rfl
  simp [Expr.apply, Expr.ident, Expr.null, eval, h, Runtime.operate_of_strict H hstrict,
    Value.ofLiteral, H.ne_null]

theorem skip_decided (hc : c.HandlesApart) (hfit : Fits index steps)
    (hop : op.isShortCircuit = true) (hl : eval H bound left ρ = some (a, ρ'))
    (hd : op.decided? a = some v) (hlt : n < r) (i : Nat) (ty heldType : TypeName) :
    let parts := skipParts op left (resultName r) (heldName i) ty heldType
    ∃ ρ₁ ρ₂ ρ₃, execList H bound parts.1 ρ = some ρ₁ ∧
      eval H bound parts.2.1 ρ₁ = some (.bool true, ρ₂) ∧
      execList H bound parts.2.2 ρ₂ = some ρ₃ ∧
      ρ₃.vars (resultName r) = some v ∧ c.Quiet index n ρ' ρ₃ := by
  have hquiet := quiet_set_result hc hfit ρ' a hlt
  have hset := exec_setVar (x := resultName r) hl
  have hread := World.vars_set_self ρ' (resultName r) a
  cases op
  case andAlso =>
    obtain ⟨rfl, rfl⟩ := BinaryOp.decided?_andAlso hd
    exact ⟨_, _, _, (execList_singleton H bound _ ρ).trans hset,
      eval_not (eval_getVar hread), rfl, hread, hquiet⟩
  case orElse =>
    obtain ⟨rfl, rfl⟩ := BinaryOp.decided?_orElse hd
    exact ⟨_, _, _, (execList_singleton H bound _ ρ).trans hset,
      eval_getVar hread, rfl, hread, hquiet⟩
  case coalesce =>
    obtain ⟨hnull, rfl⟩ := BinaryOp.decided?_coalesce hd
    have hheld := World.vars_set_self ρ' (heldName i) v
    refine ⟨ρ'.set (heldName i) v, _, (ρ'.set (heldName i) v).set _ v, ?_,
      (eval_ne_null hheld).trans (by rw [hnull]; rfl), ?_, World.vars_set_self _ _ v, ?_⟩
    · simp [skipParts, execList, CodeStmt.localVar, exec, evalOption, hl]
    · refine (execList_singleton H bound _ _).trans (exec_setVar ?_)
      simp [Expr.ident, eval]
    · exact (quiet_set_held hc hfit ρ' v).trans (quiet_set_result hc hfit _ v hlt)
  all_goals cases hop

/-- The skip of an operator that needs its right side. -/
theorem skip_undecided (hc : c.HandlesApart) (hfit : Fits index steps)
    (hop : op.isShortCircuit = true) (hl : eval H bound left ρ = some (a, ρ'))
    (hd : op.decided? a = none) (hv : H.combine op a b = some v) (hlt : n < r) (i : Nat)
    (ty heldType : TypeName) : let parts := skipParts op left (resultName r) (heldName i) ty heldType
    ∃ ρ₁, execList H bound parts.1 ρ = some ρ₁ ∧
      eval H bound parts.2.1 ρ₁ = some (.bool false, ρ₁) ∧ c.Quiet index n ρ' ρ₁ := by
  have hquiet := quiet_set_result hc hfit ρ' a hlt
  have hset := exec_setVar (x := resultName r) hl
  have hread := World.vars_set_self ρ' (resultName r) a
  cases op
  case andAlso =>
    obtain ⟨x, hx, -⟩ := bind_eq_some_iff.1 hv
    obtain rfl := Value.eq_bool_of_asBool hx
    cases x
    case false => cases hd
    exact ⟨_, (execList_singleton H bound _ ρ).trans hset,
      eval_not (eval_getVar hread), hquiet⟩
  case orElse =>
    obtain ⟨x, hx, -⟩ := bind_eq_some_iff.1 hv
    obtain rfl := Value.eq_bool_of_asBool hx
    cases x
    case true => cases hd
    exact ⟨_, (execList_singleton H bound _ ρ).trans hset, eval_getVar hread, hquiet⟩
  case coalesce =>
    have hnull : a.isNull = true := by
      cases ha : a.isNull <;> simp_all [BinaryOp.decided?]
    have hheld := World.vars_set_self ρ' (heldName i) a
    refine ⟨ρ'.set (heldName i) a, ?_, (eval_ne_null hheld).trans (by rw [hnull]; rfl),
      quiet_set_held hc hfit ρ' a⟩
    simp [skipParts, execList, CodeStmt.localVar, exec, evalOption, hl]
  all_goals cases hop

end Operator

theorem reach_result (hc : c.HandlesApart) (hfit : Fits index steps)
    (hrun : runFrom H answer bound index position steps ρ = some (moved index q ρ₁))
    (hq : q = position + steps.length) (hag : c.Agrees w ρ₁) (hst : Stable n ρ ρ₁)
    (hv : ρ₁.vars (resultName r) = some v) (hr : r ≤ m) :
    ∃ ρ', runFrom H answer bound index position steps ρ = some ρ' ∧
      Positioned index (position + steps.length) ρ' ∧ c.Agrees w ρ' ∧ Stable n ρ ρ' ∧
      c.Yields m ρ' (eval H bound (getVar (resultName r))) (Rest.done v) := by
  refine ⟨_, hrun, ?_, hag.moved hc hfit q, ?_, yields_result_moved hfit hv hr⟩
  · rw [← hq]
    exact StepList.positioned_moved index q ρ₁
  · exact hst.trans (stable_moved hfit n q ρ₁) (Nat.le_refl n)

/-- The steps of a side of an operator, and the step that writes its value to the result
variable. -/
theorem run_side (hc : c.HandlesApart) {T : World StoreId → Option (Rest Value × World StoreId)}
    (hside : c.Carries H answer bound j (fun _ => True) T a
      fun ρ k => c.Yields m ρ (eval H bound side) k)
    (hfit : Fits index a) (hag : c.Agrees w ρ) (hpos : Positioned index position ρ)
    (hv : Source.atOnce T w = some (v, w')) (hlt : n < r) (hle : n ≤ j) :
    ∃ ρ₁ ρ₂, runFrom H answer bound index position a ρ = some ρ₁ ∧
      Positioned index (position + a.length) ρ₁ ∧
      execList H bound [setVar (resultName r) side] ρ₁ = some ρ₂ ∧
      KeepsIndex index ρ₁ ρ₂ ∧ c.Agrees w' ρ₂ ∧ Stable n ρ ρ₂ ∧
      ρ₂.vars (resultName r) = some v := by
  obtain ⟨⟨k, w₁⟩, hT, hk⟩ := bind_eq_some_iff.1 hv
  obtain ⟨ρ₁, hrun, hpos₁, hag₁, hst₁, hy⟩ :=
    hside index hfit position w ρ hag hpos trivial k w₁ hT
  obtain ⟨ρ₂, heval, hag₂, hfr⟩ := hy w₁ ρ₁ hag₁ (.refl m ρ₁) v w' hk
  have hq := quiet_set_result hc hfit ρ₂ v hlt
  refine ⟨ρ₁, ρ₂.set (resultName r) v, hrun, hpos₁, ?_, ?_, hq.agrees hag₂, ?_,
    World.vars_set_self ρ₂ _ v⟩
  · rw [execList_singleton, exec_setVar heval]
  · exact fun y hy => (hq.index y hy).trans (hfr.keepsIndex hc hfit y hy)
  · have hst : Stable j ρ ρ₂ := hst₁.trans (hfr.stable hc j) (Nat.le_refl j)
    exact (hst.mono hle).trans hq.stable (Nat.le_refl n)

/-- An operator whose right side may be skipped, after its left side was staged. -/
theorem Carries.operator (hc : c.HandlesApart) (hop : op.isShortCircuit = true)
    {T : World StoreId → Option (Rest Value × World StoreId)}
    (held : Nat) (ty heldType : TypeName) (hlt : n < r) (hnj : n ≤ j) (hrm : r ≤ m)
    (hright : c.Carries H answer bound j (fun _ => True) T b
      fun ρ k => c.Yields m ρ (eval H bound right') k) :
    c.Carries H answer bound n (fun ρ => c.Yields i ρ (eval H bound left') left)
      (fun w => (left w).bind fun q => (H.operate op q.1 (Source.atOnce T) q.2).bind fun q =>
        some (Rest.done q.1, q.2))
      (operatorSteps op left' (resultName r) (heldName held) ty heldType b right')
      (fun ρ k => c.Yields m ρ (eval H bound (getVar (resultName r))) k) := by
  intro index hfit position w ρ hag hpos hy k w₁ hS
  obtain ⟨x, rfl⟩ := hfit.exists_of_skip
  have hx : ρ.vars (indexName x) = some (.int position) := hpos _ rfl
  obtain ⟨⟨a, wa⟩, ha, hS⟩ := bind_eq_some_iff.1 hS
  obtain ⟨⟨v, wv⟩, hv, hS⟩ := bind_eq_some_iff.1 hS
  cases hS
  obtain ⟨ρa, heval, haga, hfr⟩ := hy w ρ hag (.refl i ρ) a wa ha
  unfold Runtime.operate at hv
  cases hd : op.decided? a with
  | some d =>
    -- The left side decides: the skip passes over all other steps.
    simp only [hd, some.injEq, Prod.mk.injEq] at hv
    obtain ⟨rfl, rfl⟩ := hv
    obtain ⟨ρ₁, ρ₂, ρ₃, hbefore, htest, honSkip, hresult, hquiet⟩ :=
      skip_decided hc hfit hop heval hd hlt held ty heldType
    have hkeeps : ρ₃.vars (indexName x) = ρ.vars (indexName x) :=
      (hquiet.index _ rfl).trans (hfr.keepsIndex hc hfit _ rfl)
    have hst : Stable n ρ ρ₃ := (hfr.stable hc n).trans hquiet.stable (Nat.le_refl n)
    refine reach_result hc hfit (runFrom_taken hx (by simp) hbefore htest honSkip hkeeps)
      (by simp [operatorSteps]) (hquiet.agrees haga) hst hresult hrm
  | none =>
    -- The position moves into the steps of the right side.
    simp only [hd] at hv
    obtain ⟨⟨u, wu⟩, hu, hv⟩ := bind_eq_some_iff.1 hv
    obtain ⟨v', hcombine, hv⟩ := bind_eq_some_iff.1 hv
    cases hv
    obtain rfl := H.eq_of_combine hop hcombine
    obtain ⟨ρ₁, hbefore, htest, hquiet⟩ :=
      skip_undecided hc hfit hop heval hd hcombine hlt held ty heldType
    have hkeeps : ρ₁.vars (indexName x) = ρ.vars (indexName x) :=
      (hquiet.index _ rfl).trans (hfr.keepsIndex hc hfit _ rfl)
    have hst : Stable n ρ ρ₁ := (hfr.stable hc n).trans hquiet.stable (Nat.le_refl n)
    obtain ⟨ρ₂, ρ₃, hrun, hpos₂, hset, hkeeps₃, hag₃, hst₃, hresult⟩ :=
      run_side hc hright hfit.tail.left ((hquiet.agrees haga).moved hc hfit (position + 1))
        (StepList.positioned_moved _ _ ρ₁) hu hlt hnj
    have hsteps : runFrom H answer bound (some (indexName x)) position
        (operatorSteps op left' (resultName r) (heldName held) ty heldType b
          right') ρ = some (moved _ (position + 1 + b.length + 1) ρ₃) :=
      (runFrom_cons_append (runFrom_untaken hx hbefore htest hkeeps) hrun).trans
        (runFrom_code hpos₂ hset hkeeps₃)
    have hmoved : Stable n ρ (moved (some (indexName x)) (position + 1) ρ₁) :=
      hst.trans (stable_moved hfit n _ ρ₁) (Nat.le_refl n)
    refine reach_result hc hfit hsteps ?_ hag₃ (hmoved.trans hst₃ (Nat.le_refl n)) hresult hrm
    simp only [operatorSteps, List.length_cons, List.length_append, List.length_nil]
    omega

/-- A choice of which one side is skipped, after its condition was staged. -/
theorem Carries.choice (hc : c.HandlesApart)
    {Y N : World StoreId → Option (Rest Value × World StoreId)}
    (hlt : n < r) (hnj : n ≤ j) (hnj' : n ≤ j') (hrm : r ≤ m)
    (hyes : c.Carries H answer bound j (fun _ => True) Y b
      fun ρ k => c.Yields m₁ ρ (eval H bound yes') k)
    (hno : c.Carries H answer bound j' (fun _ => True) N d
      fun ρ k => c.Yields m₂ ρ (eval H bound no') k) :
    c.Carries H answer bound n (fun ρ => c.Yields i ρ (eval H bound test') test)
      (fun w => (test w).bind fun q => q.1.asBool.bind fun t =>
        (if t then Source.atOnce Y q.2 else Source.atOnce N q.2).bind fun q =>
          some (Rest.done q.1, q.2))
      (choiceSteps test' (resultName r) b yes' d no')
      (fun ρ k => c.Yields m ρ (eval H bound (getVar (resultName r))) k) := by
  intro index hfit position w ρ hag hpos hy k w₁ hS
  obtain ⟨x, rfl⟩ := hfit.exists_of_skip
  have hx : ρ.vars (indexName x) = some (.int position) := hpos _ rfl
  obtain ⟨⟨a, wa⟩, ha, hS⟩ := bind_eq_some_iff.1 hS
  obtain ⟨t, ht, hS⟩ := bind_eq_some_iff.1 hS
  obtain ⟨⟨v, wv⟩, hv, hS⟩ := bind_eq_some_iff.1 hS
  cases hS
  obtain ⟨ρa, heval, haga, hfr⟩ := hy w ρ hag (.refl i ρ) a wa ha
  obtain rfl : a = .bool t := Value.eq_bool_of_asBool ht
  have hkeeps : ρa.vars (indexName x) = ρ.vars (indexName x) :=
    hfr.keepsIndex hc hfit _ rfl
  have hst : ∀ q, Stable n ρ (moved (some (indexName x)) q ρa) := fun q =>
    (hfr.stable hc n).trans (stable_moved hfit n q ρa) (Nat.le_refl n)
  cases t with
  | true =>
    -- The first skip is not taken, and the second one passes over the steps of the other side.
    obtain ⟨ρ₂, ρ₃, hrun, hpos₂, hset, hkeeps₃, hag₃, hst₃, hresult⟩ :=
      run_side hc hyes hfit.tail.left (haga.moved hc hfit (position + 1))
        (StepList.positioned_moved _ _ ρa) hv hlt hnj
    have hsteps : runFrom H answer bound (some (indexName x)) position
        (choiceSteps test' (resultName r) b yes' d no') ρ =
          some (moved _ (position + 1 + b.length + (d.length + 1 + 1)) ρ₃) :=
      (runFrom_cons_append (runFrom_untaken hx rfl (eval_not heval) hkeeps)
        hrun).trans (runFrom_always (hpos₂ _ rfl) (by simp) hset (hkeeps₃ _ rfl))
    refine reach_result hc hfit hsteps ?_ hag₃ ((hst _).trans hst₃ (Nat.le_refl n)) hresult hrm
    simp only [choiceSteps, List.length_cons, List.length_append, List.length_nil]
    omega
  | false =>
    -- The first skip passes over the steps of the first side and over the second skip.
    let second : Step :=
      .skip [setVar (resultName r) yes'] none [] (d.length + 1)
    have hover : runFrom H answer bound (some (indexName x)) position
        (.skip [] (some (.not test')) [] (b.length + 1) :: (b ++ [second])) ρ =
          some (moved _ (position + (b.length + 1 + 1)) ρa) :=
      runFrom_taken hx (by simp) rfl (eval_not heval) rfl hkeeps
    have hsplit : choiceSteps test' (resultName r) b yes' d no' =
        (.skip [] (some (.not test')) [] (b.length + 1) :: (b ++ [second])) ++
          (d ++ [.node (.code [setVar (resultName r) no'])]) := by
      simp [choiceSteps, second]
    have hfit' : Fits (some (indexName x))
        (d ++ [.node (.code [setVar (resultName r) no'])]) := by
      rw [hsplit] at hfit
      exact hfit.right
    obtain ⟨ρ₂, ρ₃, hrun, hpos₂, hset, hkeeps₃, hag₃, hst₃, hresult⟩ :=
      run_side hc hno hfit'.left (haga.moved hc hfit (position + (b.length + 1 + 1)))
        (StepList.positioned_moved _ _ ρa) hv hlt hnj'
    have hlength : position + (.skip [] (some (.not test')) [] (b.length + 1) ::
        (b ++ [second])).length = position + (b.length + 1 + 1) := by simp
    have hsteps : runFrom H answer bound (some (indexName x)) position
        (choiceSteps test' (resultName r) b yes' d no') ρ =
          some (moved (some (indexName x)) (position + (b.length + 1 + 1) + d.length + 1)
            ρ₃) := by
      rw [hsplit, runFrom_append hover, hlength, runFrom_append hrun]
      exact runFrom_code hpos₂ hset hkeeps₃
    refine reach_result hc hfit hsteps ?_ hag₃ ((hst _).trans hst₃ (Nat.le_refl n)) hresult hrm
    simp only [choiceSteps, List.length_cons, List.length_append, List.length_nil]
    omega

end LowerContext

end Workflow
