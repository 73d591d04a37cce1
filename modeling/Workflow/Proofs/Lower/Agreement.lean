import Workflow.Lower.Stage
import Workflow.Proofs.Lower.Names
import Workflow.Proofs.Run.CallsFirst
import Workflow.Proofs.Run.Engine

/-!
# When a running graph agrees with the code it comes from

Code as it is written works on stores, produced code works on named variables. Two worlds agree if
the variable of every store holds what the store holds, and if the same calls were scheduled. For
this the handles of the stores have to be names, all different, and no generated ones.
-/

namespace Workflow

open Option

variable {x : String} {handle : Expr}
variable {store : Store} {ρ : World String}

theorem Expr.asName_eq_some {e : Expr} : e.asName = some x ↔ ∃ o, e = .name o x := by
  cases e <;> simp [asName]

namespace LowerContext

def Handle (c : LowerContext) (id : StoreId) (x : String) : Prop :=
  ∃ store, c.activity.stores[id]? = some store ∧ store.handle.asName = some x

/-- The handles of the stores are names, all different, and none of them is a name that code runs
generate. -/
structure HandlesApart (c : LowerContext) : Prop where
  named : ∀ (id : StoreId) (store : Store), c.activity.stores[id]? = some store →
    ∃ x, store.handle.asName = some x
  distinct : ∀ id id' x, c.Handle id x → c.Handle id' x → id = id'
  notGenerated : ∀ id x, c.Handle id x →
    ∀ n, x ≠ Lower.indexName n ∧ x ≠ Lower.resultName n ∧ x ≠ Lower.heldName n

variable {c : LowerContext}

theorem HandlesApart.of_storeFor? (hc : c.HandlesApart) (h : c.storeFor? e = some store) :
    ∃ id x, c.storeIdFor? e = some id ∧ c.Handle id x ∧ store.handle.asName = some x := by
  rw [storeFor?_eq, bind_eq_some_iff] at h
  obtain ⟨id, hid, hstore⟩ := h
  obtain ⟨x, hx⟩ := hc.named id store hstore
  exact ⟨id, x, hid, ⟨store, hstore, hx⟩, hx⟩

def IsHandle (c : LowerContext) (x : String) : Prop := ∃ id, c.Handle id x

theorem HandlesApart.not_indexName (hc : c.HandlesApart) (n : Nat) :
    ¬ c.IsHandle (Lower.indexName n) :=
  fun ⟨id, h⟩ => (hc.notGenerated id _ h n).1 rfl

theorem HandlesApart.not_resultName (hc : c.HandlesApart) (n : Nat) :
    ¬ c.IsHandle (Lower.resultName n) :=
  fun ⟨id, h⟩ => (hc.notGenerated id _ h n).2.1 rfl

theorem HandlesApart.not_heldName (hc : c.HandlesApart) (n : Nat) :
    ¬ c.IsHandle (Lower.heldName n) :=
  fun ⟨id, h⟩ => (hc.notGenerated id _ h n).2.2 rfl

/-- Stores are not redirected, and have different names that do not start with two underscores. -/
structure PlainNames (c : LowerContext) : Prop where
  direct : ∀ s ∈ c.activity.stores.toList, s.redirect = none
  distinct : (c.activity.stores.toList.map (·.name)).Nodup
  plain : ∀ s ∈ c.activity.stores.toList, ¬ ['_', '_'] <+: s.name.toList

namespace PlainNames

variable {id : StoreId} {x : String}

theorem asName_handle (hc : c.PlainNames) (h : c.activity.stores[id]? = some store) :
    store.handle.asName = some store.name := by
  rw [← Array.getElem?_toList] at h
  rw [Store.handle, hc.direct store (List.mem_of_getElem? h)]
  rfl

theorem of_handle (hc : c.PlainNames) (h : c.Handle id x) :
    ∃ store, c.activity.stores[id]? = some store ∧ store.name = x := by
  obtain ⟨store, hstore, hx⟩ := h
  rw [hc.asName_handle hstore] at hx
  exact ⟨store, hstore, some.inj hx⟩

theorem ne_tempName (hc : c.PlainNames) (h : c.Handle id x) (stem : String) (n : Nat) :
    x ≠ Lower.tempName stem n := by
  obtain ⟨store, hstore, rfl⟩ := hc.of_handle h
  rw [← Array.getElem?_toList] at hstore
  intro heq
  refine hc.plain store (List.mem_of_getElem? hstore) ?_
  rw [heq, Lower.toList_tempName]
  exact ⟨_, rfl⟩

theorem handlesApart (hc : c.PlainNames) : c.HandlesApart where
  named id store h := ⟨store.name, hc.asName_handle h⟩
  distinct id id' x h h' := by
    obtain ⟨store, hstore, rfl⟩ := hc.of_handle h
    obtain ⟨store', hstore', hname⟩ := hc.of_handle h'
    rw [← Array.getElem?_toList] at hstore hstore'
    have hlt : id < (c.activity.stores.toList.map (·.name)).length := by
      rw [List.length_map]
      exact (List.getElem?_eq_some_iff.1 hstore).1
    refine (List.getElem?_inj hlt hc.distinct).1 ?_
    rw [List.getElem?_map, List.getElem?_map, hstore, hstore', map_some, map_some,
      hname]
  notGenerated id x h n := ⟨hc.ne_tempName h _ n, hc.ne_tempName h _ n, hc.ne_tempName h _ n⟩

end PlainNames

/-- The variables hold what the stores hold, and the same calls were scheduled. -/
structure Agrees (c : LowerContext) (w : World StoreId) (ρ : World String) : Prop where
  vars : ∀ id x, c.Handle id x → ρ.vars x = w.vars id
  trace : ρ.trace = w.trace

/-- Two worlds hold the same in every store of the activity, and the same calls were scheduled. -/
def Same (c : LowerContext) (w w' : World StoreId) : Prop :=
  (∀ id < c.activity.stores.size, w'.vars id = w.vars id) ∧ w'.trace = w.trace

theorem Agrees.iff_same (hc : c.HandlesApart) (h : c.Agrees w ρ) : c.Agrees w' ρ ↔ c.Same w w' := by
  constructor
  · intro h'
    refine ⟨fun id hid => ?_, h'.trace.symm.trans h.trace⟩
    have hstore := Array.getElem?_eq_getElem hid
    obtain ⟨x, hx⟩ := hc.named id _ hstore
    rw [← h.vars id x ⟨_, hstore, hx⟩, ← h'.vars id x ⟨_, hstore, hx⟩]
  · intro hsame
    refine ⟨fun id x hx => ?_, h.trace.trans hsame.2.symm⟩
    obtain ⟨store, hstore, hname⟩ := hx
    rw [h.vars id x ⟨store, hstore, hname⟩, hsame.1 id (Array.getElem?_eq_some_iff.1 hstore).1]

/-- Nothing but variables of stores was changed. -/
def Frame (c : LowerContext) (ρ ρ' : World String) : Prop :=
  ∀ x, ¬ c.IsHandle x → ρ'.vars x = ρ.vars x

theorem Frame.refl (c : LowerContext) (ρ : World String) : c.Frame ρ ρ := fun _ _ => rfl

theorem Frame.trans (h : c.Frame ρ ρ') (h' : c.Frame ρ' ρ'') : c.Frame ρ ρ'' :=
  fun x hx => (h' x hx).trans (h x hx)

namespace Agrees

variable {w : World StoreId} {ρ : World String}

theorem set_of_not_isHandle (h : c.Agrees w ρ) (hx : ¬ c.IsHandle x) (v : Value) :
    c.Agrees w (ρ.set x v) where
  vars id y hy := by
    have hne : y ≠ x := fun heq => hx ⟨id, heq ▸ hy⟩
    rw [World.vars_set_of_ne ρ v hne]
    exact h.vars id y hy
  trace := h.trace

theorem set (hc : c.HandlesApart) (h : c.Agrees w ρ) {id : StoreId} {x : String}
    (hx : c.Handle id x) (v : Value) : c.Agrees (w.set id v) (ρ.set x v) where
  vars id' y hy := by
    by_cases heq : id' = id
    · subst heq
      obtain ⟨store, hs, hname⟩ := hx
      obtain ⟨store', hs', hname'⟩ := hy
      have : y = x := by
        rw [hs] at hs'
        cases hs'
        rw [hname] at hname'
        exact (some.inj hname').symm
      subst this
      simp
    · have hne : y ≠ x := fun hxy => heq (hc.distinct id' id x (hxy ▸ hy) hx)
      rw [World.vars_set_of_ne ρ v hne, World.vars_set_of_ne w v heq]
      exact h.vars id' y hy
  trace := h.trace

theorem schedule (h : c.Agrees w ρ) (answer : Answer) (nodeType : String) (vs : List Value) :
    (ρ.schedule answer nodeType vs).1 = (w.schedule answer nodeType vs).1 ∧
      c.Agrees (w.schedule answer nodeType vs).2 (ρ.schedule answer nodeType vs).2 := by
  refine ⟨?_, ⟨?_, ?_⟩⟩
  · simp only [World.schedule, h.trace]
  · intro id x hx
    exact h.vars id x hx
  · simp only [World.schedule, h.trace]

end Agrees

theorem frame_set (ρ : World String) {id : StoreId} (hx : c.Handle id x)
    (v : Value) : c.Frame ρ (ρ.set x v) := by
  intro y hy
  have hne : y ≠ x := fun heq => hy (heq ▸ ⟨id, hx⟩)
  exact World.vars_set_of_ne ρ v hne

end LowerContext

namespace Engine

variable (H : Runtime) (bound : Nat)

theorem eval_get (h : handle.asName = some x) (o o' : Origin)
    (args : List Argument) (ρ : World String) :
    eval H bound (.call o (.member o' handle "Get") args) ρ = (ρ.vars x).map fun v => (v, ρ) := by
  obtain ⟨origin, rfl⟩ := Expr.asName_eq_some.1 h
  simp [eval]

theorem eval_storeGet (h : handle.asName = some x) (ρ : World String) :
    eval H bound (.storeGet handle) ρ = (ρ.vars x).map fun v => (v, ρ) :=
  eval_get H bound h _ _ _ ρ

theorem eval_storeGet_withSpan (h : handle.asName = some x) (span : Span) (ρ : World String) :
    eval H bound ((Expr.storeGet handle).withSpan span) ρ = (ρ.vars x).map fun v => (v, ρ) :=
  eval_get H bound h _ _ _ ρ

theorem eval_set (h : handle.asName = some x) (o o' : Origin)
    (a : Argument) (d : Direction) (e : Expr) (ρ : World String) :
    eval H bound (.call o (.member o' handle "Set") [a, .mk d e]) ρ =
      (eval H bound e ρ).map fun r => (r.1, r.2.set x r.1) := by
  obtain ⟨origin, rfl⟩ := Expr.asName_eq_some.1 h
  simp only [eval, evalSecond]
  cases eval H bound e ρ <;> simp

theorem eval_storeSet (h : handle.asName = some x) (e : Expr) (ρ : World String) :
    eval H bound (.storeSet handle e) ρ = (eval H bound e ρ).map fun r => (r.1, r.2.set x r.1) :=
  eval_set H bound h _ _ _ _ e ρ

theorem eval_storeSet_withSpan (h : handle.asName = some x)
    (e : Expr) (span : Span) (ρ : World String) :
    eval H bound ((Expr.storeSet handle e).withSpan span) ρ =
      (eval H bound e ρ).map fun r => (r.1, r.2.set x r.1) :=
  eval_set H bound h _ _ _ _ e ρ

theorem eval_apply_int (hop : op.isShortCircuit = false) (hl : eval H bound l ρ = some (a, ρ'))
    (hv : H.binary op a (.int i) = some v) :
    eval H bound (.apply op l (.int i)) ρ = some (v, ρ') := by
  rw [Expr.apply, eval, hl]
  simp only [bind_eq_bind, bind_some, Runtime.operate_of_strict H hop, Expr.int, eval,
    Value.ofLiteral, hv, map_some]

theorem eval_storeStep (hop : op.stepOp = some step)
    (h : store.handle.asName = some x) (hn : ρ.vars x = some (.int n)) :
    eval H bound (Stage.storeStep op step store) ρ =
      some (.int (if op.isPost then n else Source.stepped step n),
        ρ.set x (.int (Source.stepped step n))) := by
  have hget : eval H bound (.storeGet store.handle) ρ = some (.int n, ρ) := by
    rw [eval_storeGet H bound h, hn, map_some]
  have hwrite : ∀ m, eval H bound (.apply step (.storeGet store.handle) (.int 1)) ρ =
      some (.int m, ρ) → eval H bound
        (.storeSet store.handle (.apply step (.storeGet store.handle) (.int 1))) ρ =
          some (.int m, ρ.set x (.int m)) := by
    intro m hm
    rw [eval_storeSet H bound h, hm, map_some]
  cases op <;> cases hop
  case preIncrement =>
    exact hwrite _ (eval_apply_int H bound rfl hget (H.add_int n 1))
  case preDecrement =>
    exact hwrite _ (eval_apply_int H bound rfl hget (H.sub_int n 1))
  case postIncrement =>
    have := hwrite _ (eval_apply_int H bound rfl hget (H.add_int n 1))
    refine eval_apply_int H bound rfl this ?_
    simp [H.sub_int, UnaryOp.isPost]
  case postDecrement =>
    have := hwrite _ (eval_apply_int H bound rfl hget (H.sub_int n 1))
    refine eval_apply_int H bound rfl this ?_
    simp [H.add_int, UnaryOp.isPost]

end Engine

end Workflow
