import Mathlib.Data.List.Forall2
import Workflow.Lower.Unit
import Workflow.Proofs.Lower.Staging

/-!
# Lowering without errors

Errors are collected and never taken back, so if there is none in the end there was none on the way.
`Clean x Q` says this of a step of lowering, and that a run without errors gives a value with the
property `Q`. Its rules follow the composition of steps.
-/

namespace Workflow.Lower

variable {α β : Type}

/-- A step whose errors stay, and which gives a value with a property if there are none. -/
def Clean (x : Lower α) (Q : α → Prop) : Prop :=
  ∀ l, (x.run l).2.errors.errors = [] → l.errors.errors = [] ∧ Q (x.run l).1

namespace Clean

variable {x : Lower α} {f : α → Lower β} {P Q : α → Prop} {R : β → Prop}

theorem pure {a : α} (h : Q a) : Clean (Pure.pure a) Q := fun _ hl => ⟨hl, h⟩

theorem bind (hx : Clean x Q) (hf : ∀ a, Clean (f a) fun b => Q a → R b) : Clean (x >>= f) R := by
  intro l hl
  obtain ⟨hmid, hR⟩ := hf (x.run l).1 (x.run l).2 hl
  obtain ⟨hl, hQ⟩ := hx l hmid
  exact ⟨hl, hR hQ⟩

theorem mono (hx : Clean x P) (h : ∀ a, P a → Q a) : Clean x Q :=
  fun l hl => (hx l hl).imp_right (h _)

theorem map {g : α → β} (hx : Clean x Q) (h : ∀ a, Q a → R (g a)) : Clean (g <$> x) R :=
  fun l hl => (hx l hl).imp_right (h _)

theorem mapM {xs : List α} {T : α → β → Prop} (h : ∀ a ∈ xs, Clean (f a) (T a)) :
    Clean (xs.mapM f) (List.Forall₂ T xs) := by
  induction xs with
  | nil => exact pure .nil
  | cons a xs ih =>
    rw [List.mapM_cons]
    refine (h a List.mem_cons_self).bind fun b => ?_
    refine (ih fun a ha => h a (List.mem_cons_of_mem _ ha)).bind fun bs => ?_
    exact pure fun hbs hb => .cons hb hbs

theorem reportError (e : CompileError) {Q : Unit → Prop} : Clean (Lower.reportError e) Q := by
  intro l hl
  exact absurd hl (List.append_ne_nil_of_right_ne_nil _ (List.cons_ne_nil _ _))

theorem tempVar (stem : String) :
    Clean (Lower.tempVar stem) fun x => ∃ n, x = Lower.tempName stem n :=
  fun l hl => ⟨hl, l.counter + 1, rfl⟩

theorem run_stage (x : Stage α) (l : LowerState) : (Lower.stage x).run l =
      match x { lower := l } with
      | .ok a r => ((.ok a, r.steps), r.lower)
      | .error e r => ((.error e, r.steps), r.lower) := rfl

theorem stage {x : Stage α} {T : α → StepList → Prop}
    {f : Except CompileError α × StepList → Lower β}
    (hx : ∀ l a r, x { lower := l } = .ok a r → r.lower.errors.errors = [] →
      l.errors.errors = [] ∧ T a r.steps)
    (hok : ∀ a steps, Clean (f (.ok a, steps)) fun b => T a steps → R b)
    (herror : ∀ e steps, Clean (f (.error e, steps)) fun _ => False) :
    Clean (Lower.stage x >>= f) R := by
  intro l hl
  have hbind : (Lower.stage x >>= f).run l =
      (f ((Lower.stage x).run l).1).run ((Lower.stage x).run l).2 := rfl
  cases h : x { lower := l } with
  | ok a r =>
    rw [hbind, run_stage, h] at hl ⊢
    obtain ⟨hmid, hR⟩ := hok a r.steps r.lower hl
    obtain ⟨hl, hT⟩ := hx l a r h hmid
    exact ⟨hl, hR hT⟩
  | error e r =>
    rw [hbind, run_stage, h] at hl
    exact (herror e r.steps r.lower hl).2.elim

theorem storeType (c : LowerContext) (store : Store) :
    Clean (Lower.storeType c store) fun _ => True :=
  fun _ hl => ⟨Stage.storeType_errors.2 hl, trivial⟩

theorem variablesOf (c : LowerContext) (ids : List StoreId) :
    Clean (Lower.variablesOf c ids) (List.Forall₂ (fun store v => v.name = store.name ∧
      v.default = none) (ids.filterMap fun id => c.activity.stores[id]?)) :=
  .mapM fun store _ => (storeType c store).bind fun _ => .pure fun _ => ⟨rfl, rfl⟩

theorem arguments (c : LowerContext) : Clean (Lower.arguments c) fun _ => True :=
  mono (.mapM (T := fun _ _ => True) fun store _ =>
    (storeType c store).bind fun _ => .pure fun _ => trivial) fun _ _ => trivial

end Clean

/-! ### With or without errors -/

def Gives (x : Lower α) (Q : α → Prop) : Prop := ∀ l, Q (x.run l).1

namespace Gives

variable {x : Lower α} {f : α → Lower β} {P Q : α → Prop} {R : β → Prop}

theorem any (x : Lower α) : Gives x fun _ => True := fun _ => trivial

theorem pure {a : α} (h : Q a) : Gives (Pure.pure a) Q := fun _ => h

theorem bind (hx : Gives x Q) (hf : ∀ a, Q a → Gives (f a) R) : Gives (x >>= f) R :=
  fun l => hf _ (hx l) (x.run l).2

theorem mono (hx : Gives x P) (h : ∀ a, P a → Q a) : Gives x Q := fun l => h _ (hx l)

end Gives

end Workflow.Lower
