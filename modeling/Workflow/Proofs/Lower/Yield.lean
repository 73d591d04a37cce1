import Workflow.Proofs.Lower.Agreement

/-!
# Produced expressions

One lemma for each form of expression: if the parts yield what is left of the parts of the source,
then the produced expression yields what is left of the whole.
-/

namespace Workflow

open Engine Option

open Source (Rest)

variable {store : Store}

def Stable (n : Nat) (ρ₁ ρ : World String) : Prop :=
  ∀ i ≤ n, ρ.vars (Lower.resultName i) = ρ₁.vars (Lower.resultName i)

theorem Stable.refl (n : Nat) (ρ : World String) : Stable n ρ ρ := fun _ _ => rfl

theorem Stable.trans (h : Stable n ρ ρ₁) (h' : Stable m ρ₁ ρ₂) (hle : n ≤ m) : Stable n ρ ρ₂ :=
  fun i hi => (h' i (Nat.le_trans hi hle)).trans (h i hi)

theorem Stable.mono (h : Stable m ρ ρ') (hle : n ≤ m) : Stable n ρ ρ' :=
  fun i hi => h i (Nat.le_trans hi hle)

namespace LowerContext

variable {c : LowerContext}

theorem Frame.stable (hc : c.HandlesApart) (h : c.Frame ρ ρ') (n : Nat) : Stable n ρ ρ' :=
  fun i _ => h _ (hc.not_resultName i)

/-- Produced code does what is left in every world that agrees and has the result variables of `ρ₁`
up to a number, and changes variables of stores only. -/
def Yields (c : LowerContext) {α : Type} (n : Nat) (ρ₁ : World String)
    (E : World String → Option (α × World String)) (k : Rest α) : Prop :=
  ∀ w ρ, c.Agrees w ρ → Stable n ρ₁ ρ → ∀ a w', k w = some (a, w') →
    ∃ ρ', E ρ = some (a, ρ') ∧ c.Agrees w' ρ' ∧ c.Frame ρ ρ'

namespace Yields

variable {α β : Type} {n m : Nat} {ρ₁ ρ₂ : World String}
variable {E : World String → Option (α × World String)} {k : Rest α}

theorem mono (h : c.Yields n ρ₁ E k) (hs : Stable n ρ₁ ρ₂) (hle : n ≤ m) : c.Yields m ρ₂ E k := by
  intro w ρ hag hst
  exact h w ρ hag (hs.trans hst hle)

theorem of_agrees (h : ∀ w ρ, c.Agrees w ρ → ∀ a w', k w = some (a, w') →
      ∃ ρ', E ρ = some (a, ρ') ∧ c.Agrees w' ρ' ∧ c.Frame ρ ρ') : c.Yields n ρ₁ E k :=
  fun w ρ hag _ => h w ρ hag

theorem bind (hc : c.HandlesApart) {F : α → World String → Option (β × World String)}
    {f : α → Rest β} (h : c.Yields n ρ₁ E k) (h' : ∀ a, c.Yields n ρ₁ (F a) (f a)) :
    c.Yields n ρ₁ (fun ρ => (E ρ).bind fun r => F r.1 r.2)
      (fun w => (k w).bind fun r => f r.1 r.2) := by
  intro w ρ hag hst b w' hk
  obtain ⟨⟨a, w₁⟩, hk₁, hf⟩ := bind_eq_some_iff.1 hk
  obtain ⟨ρ', hE, hag', hfr⟩ := h w ρ hag hst a w₁ hk₁
  obtain ⟨ρ'', hF, hag'', hfr'⟩ :=
    h' a w₁ ρ' hag' (hst.trans (hfr.stable hc n) (Nat.le_refl n)) b w' hf
  exact ⟨ρ'', by simp [hE, hF], hag'', hfr.trans hfr'⟩

theorem ofOption (v : Option α) :
    c.Yields n ρ₁ (fun ρ => v.bind fun a => some (a, ρ)) (fun w => v.bind fun a => some (a, w)) := by
  intro w ρ hag _ a w' hk
  obtain ⟨b, hv, hb⟩ := bind_eq_some_iff.1 hk
  cases hb
  exact ⟨ρ, by simp [hv], hag, .refl c ρ⟩

theorem none : c.Yields n ρ₁ E (fun _ => none) := by
  intro w ρ _ _ a w' hk
  cases hk

variable (H : Runtime) (answer : Answer) (bound : Nat)

theorem literal (o : Origin) (v : Literal) :
    c.Yields n ρ₁ (eval H bound (.literal o v)) (Source.eval H answer c (.literal o v)) := by
  refine of_agrees fun w ρ hag a w' hk => ?_
  simp only [Source.eval, some.injEq, Prod.mk.injEq] at hk
  obtain ⟨rfl, rfl⟩ := hk
  exact ⟨ρ, rfl, hag, .refl c ρ⟩

theorem read (hc : c.HandlesApart) (h : c.storeFor? (.name o x) = some store) (span : Span) :
    c.Yields n ρ₁ (eval H bound ((Expr.storeGet store.handle).withSpan span))
      (Source.eval H answer c (.name o x)) := by
  obtain ⟨id, y, hid, hy, hname⟩ := hc.of_storeFor? h
  refine of_agrees fun w ρ hag a w' hk => ?_
  simp only [Source.eval, hid, bind_eq_bind, bind_some, bind_eq_some_iff,
    pure_def, some.injEq, Prod.mk.injEq] at hk
  obtain ⟨v, hv, rfl, rfl⟩ := hk
  have hvar : ρ.vars y = some v := (hag.vars id y hy).trans hv
  exact ⟨ρ, by simp [eval_storeGet_withSpan H bound hname, hvar], hag, .refl c ρ⟩

theorem operate (hc : c.HandlesApart) (op : BinaryOp) (a : Value)
    {E : World String → Option (Value × World String)} {k : Rest Value}
    (h : c.Yields n ρ₁ E k) : c.Yields n ρ₁ (H.operate op a E) (H.operate op a k) := by
  intro w ρ hag hst v w' hk
  unfold Runtime.operate at hk ⊢
  cases hd : op.decided? a with
  | some b =>
    simp only [hd, some.injEq, Prod.mk.injEq] at hk
    obtain ⟨rfl, rfl⟩ := hk
    exact ⟨ρ, rfl, hag, .refl c ρ⟩
  | none =>
    simp only [hd] at hk
    exact (h.bind hc fun b => ofOption (H.combine op a b)) w ρ hag hst v w' hk

theorem binary (hc : c.HandlesApart) (o : Origin) (op : BinaryOp) {l r : Expr}
    {left right : Rest Value} (hl : c.Yields n ρ₁ (eval H bound l) left)
    (hr : c.Yields n ρ₁ (eval H bound r) right) :
    c.Yields n ρ₁ (eval H bound (.binary o op l r)) (.operate H op left right) := by
  intro w ρ hag hst v w' hk
  rw [eval]
  exact hl.bind hc (fun a => operate H hc op a hr) w ρ hag hst v w' hk

theorem unary (hc : c.HandlesApart) (o : Origin) {op : UnaryOp} (hop : op.isStep = false)
    {e : Expr} {k : Rest Value} (h : c.Yields n ρ₁ (eval H bound e) k) :
    c.Yields n ρ₁ (eval H bound (.unary o op e)) (.unary H op k) := by
  intro w ρ hag hst v w' hk
  rw [eval]
  simp only [hop, Bool.false_eq_true, if_false]
  exact h.bind hc (fun a => ofOption (H.unary op a)) w ρ hag hst v w' hk

theorem pick {yes no : Rest α} {E F : World String → Option (α × World String)}
    (hy : c.Yields n ρ₁ E yes) (hn : c.Yields n ρ₁ F no) (a : Value) :
    c.Yields n ρ₁ (fun ρ => do if ← a.asBool then E ρ else F ρ)
      (fun w => do if ← a.asBool then yes w else no w) := by
  cases ha : a.asBool with
  | none => exact Yields.none
  | some b => cases b <;> simpa using by assumption

theorem conditional (hc : c.HandlesApart) (o : Origin) {t y n' : Expr}
    {test yes no : Rest Value} (ht : c.Yields n ρ₁ (eval H bound t) test)
    (hy : c.Yields n ρ₁ (eval H bound y) yes) (hn : c.Yields n ρ₁ (eval H bound n') no) :
    c.Yields n ρ₁ (eval H bound (.conditional o t y n')) (.choose test yes no) := by
  intro w ρ hag hst v w' hk
  rw [eval]
  exact ht.bind hc (pick hy hn) w ρ hag hst v w' hk

/-- A step of a store counts its variable on. After the operand it takes the change back from the
value that it has. -/
theorem step (hc : c.HandlesApart) (hop : op.stepOp = some by') (h : c.storeFor? e = some store) :
    c.Yields n ρ₁ (eval H bound (Stage.storeStep op by' store))
      (Source.eval H answer c (.unary o op e)) := by
  obtain ⟨id, x, hid, hx, hname⟩ := hc.of_storeFor? h
  refine of_agrees fun w ρ hag a w' hk => ?_
  simp only [Source.eval, hop, hid, bind_eq_bind, bind_some,
    bind_eq_some_iff, pure_def, some.injEq, Prod.mk.injEq] at hk
  obtain ⟨v, hv, i, hi, rfl, rfl⟩ := hk
  rw [Value.eq_int_of_asInt hi] at hv
  have hvar : ρ.vars x = some (.int i) := (hag.vars id x hx).trans hv
  exact ⟨_, eval_storeStep H bound hop hname hvar, hag.set hc hx _, frame_set ρ hx _⟩

theorem write (hc : c.HandlesApart) {id : StoreId} {x : String} (hx : c.Handle id x)
    {handle : Expr} (hname : handle.asName = some x) {e : Expr} {k : Rest Value} (span : Span)
    (h : c.Yields n ρ₁ (eval H bound e) k) :
    c.Yields n ρ₁ (eval H bound ((Expr.storeSet handle e).withSpan span)) (fun w => do
        let (v, w) ← k w
        return (v, w.set id v)) := by
  intro w ρ hag hst v w' hk
  obtain ⟨⟨a, w₁⟩, hk₁, hset⟩ := bind_eq_some_iff.1 hk
  simp only [pure_def, some.injEq, Prod.mk.injEq] at hset
  obtain ⟨rfl, rfl⟩ := hset
  obtain ⟨ρ', hE, hag', hfr⟩ := h w ρ hag hst a w₁ hk₁
  refine ⟨ρ'.set x a, ?_, hag'.set hc hx a, hfr.trans (frame_set ρ' hx a)⟩
  rw [eval_storeSet_withSpan H bound hname, hE]
  rfl

/-- The assignment of a store. A compound one reads the store before it evaluates its right side. -/
theorem assign (hc : c.HandlesApart) (o : Origin) (op : AssignOp) {id : StoreId} {store : Store}
    {x : String} (hx : c.Handle id x) (hname : store.handle.asName = some x) {e : Expr}
    {k : Rest Value} (h : c.Yields n ρ₁ (eval H bound e) k) :
    c.Yields n ρ₁ (eval H bound (Stage.storeAssign o op store e)) (.assign H op id k) := by
  unfold Stage.storeAssign Source.Rest.assign
  cases hop : op.binary with
  | none => exact write H bound hc hx hname o.span h
  | some bin =>
    have hstrict : bin.isShortCircuit = false := AssignOp.strict_of_binary hop
    have hread : c.Yields n ρ₁ (eval H bound (.storeGet store.handle))
        (fun w => (w.vars id).bind fun v => some (v, w)) := by
      refine of_agrees fun w ρ hag v w' hk => ?_
      obtain ⟨a, ha, hb⟩ := bind_eq_some_iff.1 hk
      cases hb
      have hvar : ρ.vars x = some v := (hag.vars id x hx).trans ha
      exact ⟨ρ, by simp [eval_storeGet H bound hname, hvar], hag, .refl c ρ⟩
    have hboth := write H bound hc hx hname o.span (binary H bound hc {} bin hread h)
    intro w ρ hag hst v w' hk
    refine hboth w ρ hag hst v w' ?_
    obtain ⟨old, hold, hk⟩ := bind_eq_some_iff.1 hk
    obtain ⟨⟨a, w₁⟩, hk₁, hk⟩ := bind_eq_some_iff.1 hk
    obtain ⟨b, hb, hk⟩ := bind_eq_some_iff.1 hk
    simp only [pure_def, some.injEq, Prod.mk.injEq] at hk
    obtain ⟨rfl, rfl⟩ := hk
    simp [Source.Rest.operate, hold, hk₁, Runtime.operate_of_strict H hstrict, hb]

theorem result (i : Nat) (hi : i ≤ n) (hv : ρ₁.vars (Lower.resultName i) = some v) :
    c.Yields n ρ₁ (eval H bound (Stage.getVar (Lower.resultName i))) (Rest.done v) := by
  intro w ρ hag hst a w' hk
  cases hk
  have hvar : ρ.vars (Lower.resultName i) = some v := (hst i hi).trans hv
  exact ⟨ρ, by simp [Stage.getVar, eval_storeGet H bound (rfl : (Expr.ident _).asName = _),
    hvar], hag, .refl c ρ⟩

theorem arguments_nil : c.Yields n ρ₁ (arguments H bound []) (Rest.done []) := by
  intro w ρ hag _ a w' hk
  cases hk
  exact ⟨ρ, rfl, hag, .refl c ρ⟩

theorem arguments_cons (hc : c.HandlesApart) (name : String) (d : Direction)
    (ty : Option TypeName) {e : Expr} {rest : List NodeArgument} {k : Rest Value}
    {ks : Rest (List Value)} (h : c.Yields n ρ₁ (eval H bound e) k)
    (h' : c.Yields n ρ₁ (arguments H bound rest) ks) : c.Yields n ρ₁ (arguments H bound
        ({ name := name, direction := d, value := .value { ty := ty, expr := e } } :: rest))
      (.cons k ks) := by
  intro w ρ hag hst vs w' hk
  rw [arguments, argument]
  exact h.bind hc (fun v => h'.bind hc fun vs => ofOption (some (v :: vs))) w ρ hag hst vs w' hk

end Yields

end LowerContext

end Workflow
