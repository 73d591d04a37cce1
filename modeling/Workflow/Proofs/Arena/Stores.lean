import Workflow.Activity.Build.Control
import Workflow.Proofs.Arena.Chain

/-!
# Stores in an arena

A store is listed by its host and by no other. A declaration looks at the stores that are visible
from the host at that time, so no store has the name of an earlier one that its host sees.
-/

namespace Workflow

open List

variable {st : Store}

/-- What a store may become: it keeps its place, and a redirection is final. -/
structure Store.Extends (st st' : Store) : Prop where
  name : st'.name = st.name
  marker : st'.marker = st.marker
  host : st'.host = st.host
  kind : st'.kind = st.kind
  span : st'.span = st.span
  redirect : ∀ e, st.redirect = some e → st'.redirect = some e

theorem Store.Extends.refl (st : Store) : st.Extends st :=
  ⟨rfl, rfl, rfl, rfl, rfl, fun _ h => h⟩

theorem Store.Extends.trans (h : st.Extends st') (h' : st'.Extends st'') : st.Extends st'' where
  name := h'.name.trans h.name
  marker := h'.marker.trans h.marker
  host := h'.host.trans h.host
  kind := h'.kind.trans h.kind
  span := h'.span.trans h.span
  redirect e he := h'.redirect e (h.redirect e he)

namespace Activity

variable {a b : Activity} {i j k : Nat}

/-- The arena and the table of stores fit together. -/
structure Sound (a : Activity) : Prop where
  parentsFirst : a.ParentsFirst
  /-- A host lists its stores and no others. -/
  listed : ∀ h k, k ∈ a.storesAt h ↔ ∃ st, a.stores[k]? = some st ∧ st.host = h
  /-- A host lists its stores in the order in which they are declared. -/
  sorted : ∀ h, (a.storesAt h).Pairwise (· < ·)
  /-- A statement that hosts a store is there. -/
  hosted : ∀ (k i : Nat) st, a.stores[k]? = some st → st.host = .statement i → i < a.stmts.size
  /-- A statement that hosts a store is of a kind that may. -/
  hosts : ∀ (k i : Nat) st, a.stores[k]? = some st → st.host = .statement i →
    (a.tag i).isStoreHost = true
  /-- No store has the name of an earlier one that its host sees. -/
  distinct : ∀ (i j : Nat) si sj, a.stores[i]? = some si → a.stores[j]? = some sj → i < j →
    a.Sees sj.host si.host → si.name ≠ sj.name
  /-- Accesses are redirected to the delegate argument of the store's name, if at all. -/
  handles : ∀ (k : Nat) st, a.stores[k]? = some st →
    st.redirect = none ∨ st.redirect = some (.ident (Build.argumentName st.name))
  /-- Only variables are declared together with their first value, and only plain ones. -/
  first : ∀ (k : Nat) st, a.stores[k]? = some st → st.initialized = true →
    st.kind = .var ∧ st.redirect = none
  /-- The parameters are arguments of the activity, each once. -/
  distinctParameters : a.parameters.Nodup
  parameters : ∀ k ∈ a.parameters, ∃ st, a.stores[k]? = some st ∧ st.host = .activity ∧
    st.kind.isArgument = true

theorem sound_empty (name : String) (span : Span) : Sound { name := name, span := span } where
  parentsFirst i j h := by simp [parent] at h
  listed h k := by
    cases h <;> simp [storesAt, storesOf]
  sorted h := by
    cases h <;> simp [storesAt, storesOf]
  hosted := by simp
  hosts := by simp
  distinct := by simp
  handles := by simp
  first := by simp
  distinctParameters := .nil
  parameters := by simp

def header (a : Activity) : String × Span := (a.name, a.span)

/-- Two activities with the same statements up to their parts, and with the same stores. -/
structure SameShape (a b : Activity) : Prop where
  size : b.stmts.size = a.stmts.size
  parent : ∀ i, b.parent i = a.parent i
  tag : ∀ i, b.tag i = a.tag i
  span : ∀ i, b.stmtSpan i = a.stmtSpan i
  storesAt : ∀ h, b.storesAt h = a.storesAt h
  stores : b.stores = a.stores
  parameters : b.parameters = a.parameters

theorem SameShape.sees (h : SameShape a b) : b.Sees x y ↔ a.Sees x y := by
  have hw : ∀ i j : Nat, b.Within i j ↔ a.Within i j := by
    intro i j
    have : (fun i j => b.parent i = some j) = fun i j => a.parent i = some j := by
      funext i j
      rw [h.parent]
    rw [Within, Within, this]
  cases x <;> cases y <;> simp [Sees, hw]

theorem SameShape.sound (h : SameShape a b) (ha : a.Sound) : b.Sound where
  parentsFirst i j hp := ha.parentsFirst ((h.parent i).symm.trans hp)
  listed x k := by rw [h.storesAt, h.stores, ha.listed]
  sorted x := by
    rw [h.storesAt]
    exact ha.sorted x
  hosted k i st hk hh := by
    rw [h.size]
    exact ha.hosted k i st (h.stores ▸ hk) hh
  hosts k i st hk hh := by
    rw [h.tag]
    exact ha.hosts k i st (h.stores ▸ hk) hh
  distinct i j si sj hi hj hij hs :=
    ha.distinct i j si sj (h.stores ▸ hi) (h.stores ▸ hj) hij (h.sees.1 hs)
  handles k st hk := ha.handles k st (h.stores ▸ hk)
  first k st hk := ha.first k st (h.stores ▸ hk)
  distinctParameters := h.parameters ▸ ha.distinctParameters
  parameters k hk := by
    rw [h.stores]
    exact ha.parameters k (h.parameters ▸ hk)

theorem SameShape.trans (h : SameShape a b) (h' : SameShape b c) : SameShape a c where
  size := h'.size.trans h.size
  parent i := (h'.parent i).trans (h.parent i)
  tag i := (h'.tag i).trans (h.tag i)
  span i := (h'.span i).trans (h.span i)
  storesAt x := (h'.storesAt x).trans (h.storesAt x)
  stores := h'.stores.trans h.stores
  parameters := h'.parameters.trans h.parameters

theorem SameShape.refl (a : Activity) : SameShape a a :=
  ⟨rfl, fun _ => rfl, fun _ => rfl, fun _ => rfl, fun _ => rfl, rfl, rfl⟩

theorem sameShape_setKind (a : Activity) (id : StmtId) (kind : StmtKind) :
    SameShape a (a.setKind id kind) where
  size := by simp
  parent := by simp
  tag := by simp
  span := by simp
  storesAt h := by cases h <;> simp [Activity.storesAt]
  stores := rfl
  parameters := rfl

theorem Sound.of_arena (ha : a.Sound) (hstmts : b.stmts = a.stmts) (hstores : b.stores = a.stores)
    (hown : b.activityStores = a.activityStores) (hparameters : b.parameters = a.parameters) :
    b.Sound := by
  refine SameShape.sound ⟨?_, fun i => ?_, fun i => ?_, fun i => ?_, fun h => ?_, hstores,
    hparameters⟩ ha
  · rw [hstmts]
  · rw [parent, parent, hstmts]
  · rw [tag, tag, hstmts]
  · rw [stmtSpan, stmtSpan, hstmts]
  · cases h with
    | activity => exact hown
    | statement i => rw [storesAt, storesAt, storesOf, storesOf, hstmts]

theorem Sound.addParameter (ha : a.Sound) (hnew : k ∉ a.parameters)
    (hk : a.stores[k]? = some st) (hhost : st.host = .activity)
    (harg : st.kind.isArgument = true) : { a with parameters := a.parameters ++ [k] }.Sound where
  parentsFirst := ha.parentsFirst
  listed h := by
    have := ha.listed h
    cases h <;> exact this
  sorted h := by
    have := ha.sorted h
    cases h <;> exact this
  hosted := ha.hosted
  hosts := ha.hosts
  distinct i j si sj hi hj hij hs := by
    refine ha.distinct i j si sj hi hj hij ?_
    cases hx : sj.host <;> cases hy : si.host <;> rw [hx, hy] at hs <;> exact hs
  handles := ha.handles
  first := ha.first
  distinctParameters := by
    refine nodup_append.2 ⟨ha.distinctParameters, pairwise_singleton _ k, fun m hm n hn => ?_⟩
    rw [mem_singleton.1 hn]
    exact fun heq => hnew (heq ▸ hm)
  parameters m hm := by
    rcases mem_append.1 hm with hm | hm
    · exact ha.parameters m hm
    · rw [mem_singleton.1 hm]
      exact ⟨st, hk, hhost, harg⟩

section Lookup

variable {h : StoreHost} {name : String}

theorem findNamed_eq_none :
    a.findNamed name ids = none ↔ ∀ k ∈ ids, ∀ st, a.stores[k]? = some st → st.name ≠ name := by
  rw [findNamed, find?_eq_none]
  refine forall₂_congr fun k _ => ?_
  cases a.stores[k]? <;> simp

theorem lookup_eq_none (ha : a.ParentsFirst) : a.lookup h name = none ↔
      ∀ h', a.Sees h h' → ∀ k ∈ a.storesAt h', ∀ st, a.stores[k]? = some st → st.name ≠ name := by
  rw [lookup, visible_eq, findSome?_eq_none_iff, forall_mem_map]
  refine forall_congr' fun h' => ?_
  rw [mem_hosts ha, findNamed_eq_none]

theorem declare_eq_ok {store : Store} {k : StoreId} (hd : a.declare store = .ok (k, b)) :
    a.lookup store.host store.name = none ∧ k = a.stores.size ∧ b = a.addStore store := by
  unfold declare at hd
  split at hd
  case h_1 => cases hd
  case h_2 hnone =>
    cases hd
    exact ⟨hnone, rfl, rfl⟩

end Lookup

section AddStore

variable (a) (store : Store)

@[simp]
theorem stores_addStore : (a.addStore store).stores = a.stores.push store := by
  unfold addStore
  cases store.host <;> rfl

@[simp]
theorem parameters_addStore : (a.addStore store).parameters = a.parameters := by
  unfold addStore
  cases store.host <;> rfl

@[simp]
theorem name_addStore : (a.addStore store).name = a.name := by
  unfold addStore
  cases store.host <;> rfl

theorem header_addStore : (a.addStore store).header = a.header := by
  unfold addStore
  cases store.host <;> rfl

@[simp]
theorem result_addStore : (a.addStore store).result = a.result := by
  unfold addStore
  cases store.host <;> rfl

@[simp]
theorem size_addStore : (a.addStore store).stmts.size = a.stmts.size := by
  unfold addStore
  cases store.host with
  | activity => rfl
  | statement s => exact size_modifyStmt _ s _

@[simp]
theorem parent_addStore (i : StmtId) : (a.addStore store).parent i = a.parent i := by
  unfold addStore
  cases store.host with
  | activity => rfl
  | statement s => exact parent_modifyStmt _ s (by simp) i

@[simp]
theorem tag_addStore (i : StmtId) : (a.addStore store).tag i = a.tag i := by
  unfold addStore
  cases store.host with
  | activity => rfl
  | statement s => exact tag_modifyStmt _ s (by simp) i

@[simp]
theorem stmtSpan_addStore (i : StmtId) : (a.addStore store).stmtSpan i = a.stmtSpan i := by
  unfold addStore
  cases store.host with
  | activity => rfl
  | statement s => exact stmtSpan_modifyStmt _ s (by simp) i

@[simp]
theorem serviceOperations_addStore : (a.addStore store).serviceOperations = a.serviceOperations := by
  unfold addStore
  cases store.host <;> rfl

@[simp]
theorem kind_addStore (i : StmtId) : (a.addStore store).kind i = a.kind i := by
  unfold addStore
  cases store.host with
  | activity => rfl
  | statement s => exact kind_modifyStmt _ s (by simp) i

theorem storesAt_addStore (hh : ∀ i, store.host = .statement i → i < a.stmts.size)
    (h : StoreHost) : (a.addStore store).storesAt h =
      if h = store.host then a.storesAt h ++ [a.stores.size] else a.storesAt h := by
  unfold addStore
  cases hs : store.host with
  | activity => cases h <;> simp [storesAt, storesOf]
  | statement s =>
    cases h with
    | activity => simp [storesAt, modifyStmt]
    | statement i =>
      obtain ⟨stmt, hget⟩ : ∃ stmt, a.stmts[s]? = some stmt :=
        ⟨_, Array.getElem?_eq_getElem (hh s hs)⟩
      simp only [storesAt, storesOf, getElem?_modifyStmt, StoreHost.statement.injEq]
      by_cases hsi : s = i
      · subst hsi
        simp [hget]
      · simp [hsi, Ne.symm hsi]

end AddStore

theorem Sound.addStore (ha : a.Sound) {store : Store}
    (hfree : a.lookup store.host store.name = none)
    (hh : ∀ i, store.host = .statement i → i < a.stmts.size ∧ (a.tag i).isStoreHost = true)
    (hr : store.redirect = none) (hinit : store.initialized = false) : (a.addStore store).Sound := by
  have hin := fun i hi => (hh i hi).1
  have hsees : ∀ x y, (a.addStore store).Sees x y ↔ a.Sees x y := by
    intro x y
    cases x <;> cases y <;> simp [Sees, Within]
  have hget : ∀ (k : Nat) st, (a.stores.push store)[k]? = some st →
      (k < a.stores.size ∧ a.stores[k]? = some st) ∨ (k = a.stores.size ∧ st = store) := by
    intro k st hk
    rw [Array.getElem?_push] at hk
    split at hk
    case isTrue heq =>
      cases hk
      exact .inr ⟨heq, rfl⟩
    case isFalse =>
      exact .inl ⟨(Array.getElem?_eq_some_iff.1 hk).1, hk⟩
  have hold : ∀ (k : Nat), k < a.stores.size → (a.stores.push store)[k]? = a.stores[k]? := by
    intro k hk
    rw [Array.getElem?_push, if_neg (Nat.ne_of_lt hk)]
  constructor
  case parentsFirst =>
    intro i j hp
    rw [parent_addStore] at hp
    exact ha.parentsFirst hp
  case sorted =>
    intro h
    rw [storesAt_addStore a store hin]
    split
    case isTrue =>
      refine pairwise_append.2 ⟨ha.sorted h, pairwise_singleton _ _, fun k hk m hm => ?_⟩
      obtain ⟨st, hst, -⟩ := (ha.listed h k).1 hk
      rw [mem_singleton.1 hm]
      exact (Array.getElem?_eq_some_iff.1 hst).1
    case isFalse => exact ha.sorted h
  case listed =>
    intro h k
    rw [storesAt_addStore a store hin, stores_addStore]
    constructor
    · intro hk
      split at hk
      case isTrue heq =>
        rcases mem_append.1 hk with hk | hk
        · obtain ⟨st, hst, hsth⟩ := (ha.listed h k).1 hk
          exact ⟨st, (hold k (Array.getElem?_eq_some_iff.1 hst).1).trans hst, hsth⟩
        · rw [mem_singleton.1 hk]
          exact ⟨store, Array.getElem?_push_size, heq.symm⟩
      case isFalse =>
        obtain ⟨st, hst, hsth⟩ := (ha.listed h k).1 hk
        exact ⟨st, (hold k (Array.getElem?_eq_some_iff.1 hst).1).trans hst, hsth⟩
    · rintro ⟨st, hst, rfl⟩
      rcases hget k st hst with ⟨-, hst⟩ | ⟨rfl, rfl⟩
      · have hk := (ha.listed st.host k).2 ⟨st, hst, rfl⟩
        split
        · exact mem_append_left _ hk
        · exact hk
      · simp
  case hosted =>
    intro k i st hk hhost
    rw [stores_addStore] at hk
    rw [size_addStore]
    rcases hget k st hk with ⟨-, hk⟩ | ⟨-, rfl⟩
    · exact ha.hosted k i st hk hhost
    · exact hin i hhost
  case hosts =>
    intro k i st hk hhost
    rw [stores_addStore] at hk
    rw [tag_addStore]
    rcases hget k st hk with ⟨-, hk⟩ | ⟨-, rfl⟩
    · exact ha.hosts k i st hk hhost
    · exact (hh i hhost).2
  case distinct =>
    intro i j si sj hi hj hij hs
    rw [stores_addStore] at hi hj
    rw [hsees] at hs
    rcases hget i si hi with ⟨hlt, hi'⟩ | ⟨rfl, rfl⟩
    · rcases hget j sj hj with ⟨-, hj'⟩ | ⟨rfl, rfl⟩
      · exact ha.distinct i j si sj hi' hj' hij hs
      · exact (lookup_eq_none ha.parentsFirst).1 hfree si.host hs i
          ((ha.listed si.host i).2 ⟨si, hi', rfl⟩) si hi'
    · rcases hget j sj hj with ⟨hlt, -⟩ | ⟨rfl, -⟩
      · exact absurd (Nat.lt_trans hij hlt) (Nat.lt_irrefl _)
      · exact absurd hij (Nat.lt_irrefl _)
  case handles =>
    intro k st hk
    rw [stores_addStore] at hk
    rcases hget k st hk with ⟨-, hk⟩ | ⟨-, rfl⟩
    · exact ha.handles k st hk
    · exact .inl hr
  case first =>
    intro k st hk hst
    rw [stores_addStore] at hk
    rcases hget k st hk with ⟨-, hk⟩ | ⟨-, rfl⟩
    · exact ha.first k st hk hst
    · rw [hinit] at hst
      cases hst
  case distinctParameters =>
    rw [parameters_addStore]
    exact ha.distinctParameters
  case parameters =>
    intro k hk
    rw [parameters_addStore] at hk
    obtain ⟨st, hst, hrest⟩ := ha.parameters k hk
    rw [stores_addStore, hold k (Array.getElem?_eq_some_iff.1 hst).1]
    exact ⟨st, hst, hrest⟩

/-- A store may be changed if it keeps its place and its redirection fits its first value. -/
theorem Sound.modifyStore (ha : a.Sound) {f : Store → Store} (hk : a.stores[k]? = some st)
    (hext : st.Extends (f st))
    (hr : (f st).redirect = none ∨ (f st).redirect = some (.ident (Build.argumentName (f st).name)))
    (hfirst : (f st).initialized = true → st.kind = .var ∧ (f st).redirect = none) :
    (a.modifyStore k f).Sound := by
  have hget : ∀ (m : Nat) s', (a.modifyStore k f).stores[m]? = some s' →
      ∃ s, a.stores[m]? = some s ∧ s'.name = s.name ∧ s'.host = s.host ∧
        (s'.redirect = none ∨ s'.redirect = some (.ident (Build.argumentName s'.name))) ∧
        (s'.initialized = true → s'.kind = .var ∧ s'.redirect = none) := by
    intro m s' hm
    rw [Activity.modifyStore, Array.getElem?_modify] at hm
    split at hm
    case isTrue heq =>
      subst heq
      rw [hk] at hm
      cases hm
      refine ⟨st, hk, hext.name, hext.host, hr, fun hinit => ?_⟩
      rw [hext.kind]
      exact hfirst hinit
    case isFalse => exact ⟨s', hm, rfl, rfl, ha.handles m s' hm, ha.first m s' hm⟩
  have hput : ∀ (m : Nat) s, a.stores[m]? = some s →
      ∃ s', (a.modifyStore k f).stores[m]? = some s' ∧ s'.host = s.host ∧ s'.kind = s.kind := by
    intro m s hm
    rw [Activity.modifyStore, Array.getElem?_modify]
    split
    case isTrue heq =>
      subst heq
      rw [hk] at hm
      cases hm
      exact ⟨f st, by rw [hk]; rfl, hext.host, hext.kind⟩
    case isFalse => exact ⟨s, hm, rfl, rfl⟩
  have hsees : ∀ x y, (a.modifyStore k f).Sees x y ↔ a.Sees x y := fun x y => by
    cases x <;> cases y <;> exact Iff.rfl
  constructor
  case parentsFirst => exact ha.parentsFirst
  case listed =>
    intro h m
    refine (ha.listed h m).trans ⟨?_, ?_⟩
    · rintro ⟨s, hs, rfl⟩
      obtain ⟨s', hs', hhost, -⟩ := hput m s hs
      exact ⟨s', hs', hhost⟩
    · rintro ⟨s', hs', rfl⟩
      obtain ⟨s, hs, -, hsh, -⟩ := hget m s' hs'
      exact ⟨s, hs, hsh.symm⟩
  case sorted => exact ha.sorted
  case hosted =>
    intro m i s' hm hh
    obtain ⟨s, hs, -, hsh, -⟩ := hget m s' hm
    exact ha.hosted m i s hs (hsh.symm.trans hh)
  case hosts =>
    intro m i s' hm hh
    obtain ⟨s, hs, -, hsh, -⟩ := hget m s' hm
    exact ha.hosts m i s hs (hsh.symm.trans hh)
  case distinct =>
    intro i j si sj hi hj hij hs
    obtain ⟨si', hi', hni, hhi, -⟩ := hget i si hi
    obtain ⟨sj', hj', hnj, hhj, -⟩ := hget j sj hj
    rw [hni, hnj]
    rw [hsees, hhi, hhj] at hs
    exact ha.distinct i j si' sj' hi' hj' hij hs
  case handles =>
    intro m s' hm
    obtain ⟨-, -, -, -, hr', -⟩ := hget m s' hm
    exact hr'
  case first =>
    intro m s' hm
    obtain ⟨-, -, -, -, -, hfirst'⟩ := hget m s' hm
    exact hfirst'
  case distinctParameters => exact ha.distinctParameters
  case parameters =>
    intro m hm
    obtain ⟨s, hs, hhost, harg⟩ := ha.parameters m hm
    obtain ⟨s', hs', hhost', hkind⟩ := hput m s hs
    exact ⟨s', hs', hhost'.trans hhost, by rw [hkind, harg]⟩

theorem Sound.alloc (ha : a.Sound) (tag : StmtTag) (span : Span)
    (hp : ∀ i ∈ p, i < a.stmts.size) : (a.alloc tag p span).2.Sound := by
  have hget : ∀ i : Nat, (a.alloc tag p span).2.stmts[i]? =
      if i = a.stmts.size then some { parent := p, span := span, tag := tag }
      else a.stmts[i]? := fun i => by simp [Activity.alloc, Array.getElem?_push]
  have hpar : ∀ i < a.stmts.size, (a.alloc tag p span).2.parent i = a.parent i := by
    intro i hi
    rw [parent, parent, hget, if_neg (Nat.ne_of_lt hi)]
  have hfirst : (a.alloc tag p span).2.ParentsFirst := by
    intro i j hij
    rw [parent, hget] at hij
    split at hij
    case isTrue heq => exact heq ▸ hp j hij
    case isFalse => exact ha.parentsFirst hij
  have hstores : ∀ h, (a.alloc tag p span).2.storesAt h = a.storesAt h := by
    intro h
    cases h with
    | activity => rfl
    | statement i =>
      rw [storesAt, storesAt, storesOf, storesOf, hget]
      by_cases hi : i = a.stmts.size
      · subst hi
        simp
      · rw [if_neg hi]
  constructor
  case parentsFirst => exact hfirst
  case listed =>
    intro h k
    rw [hstores]
    exact ha.listed h k
  case sorted =>
    intro h
    rw [hstores]
    exact ha.sorted h
  case hosted =>
    intro k i st hk hh
    rw [size_alloc]
    exact Nat.lt_succ_of_lt (ha.hosted k i st hk hh)
  case hosts =>
    intro k i st hk hh
    rw [Activity.tag, hget, if_neg (Nat.ne_of_lt (ha.hosted k i st hk hh))]
    exact ha.hosts k i st hk hh
  case handles => exact ha.handles
  case first => exact ha.first
  case distinctParameters => exact ha.distinctParameters
  case parameters => exact ha.parameters
  case distinct =>
    intro i j si sj hi hj hij hs
    refine ha.distinct i j si sj hi hj hij ?_
    cases hy : si.host with
    | activity => cases sj.host <;> trivial
    | statement y =>
      cases hx : sj.host with
      | activity =>
        rw [hx, hy] at hs
        exact hs.elim
      | statement x =>
        rw [hx, hy] at hs
        exact (Within.congr ha.parentsFirst hpar (ha.hosted j x sj hj hx)).1 hs

/-! ### Stores that stay -/

/-- Every store of the first activity is there in the second. -/
def StoresStay (a b : Activity) : Prop :=
  ∀ (k : Nat) st, a.stores[k]? = some st → ∃ st', b.stores[k]? = some st' ∧ st.Extends st'

namespace StoresStay

theorem of_eq (h : b.stores = a.stores) : StoresStay a b :=
  fun _ st hst => ⟨st, h ▸ hst, .refl st⟩

theorem trans (h : StoresStay a b) (h' : StoresStay b c) : StoresStay a c := by
  intro k st hst
  obtain ⟨st', hst', hext⟩ := h k st hst
  obtain ⟨st'', hst'', hext'⟩ := h' k st' hst'
  exact ⟨st'', hst'', hext.trans hext'⟩

theorem addStore (a : Activity) (store : Store) : StoresStay a (a.addStore store) := by
  intro k st hst
  refine ⟨st, ?_, .refl st⟩
  have hlt := (Array.getElem?_eq_some_iff.1 hst).1
  rw [stores_addStore, Array.getElem?_push, if_neg (Nat.ne_of_lt hlt)]
  exact hst

theorem modifyStore {f : Store → Store} (hk : a.stores[k]? = some st) (hext : st.Extends (f st)) :
    StoresStay a (a.modifyStore k f) := by
  intro m s hm
  rw [Activity.modifyStore, Array.getElem?_modify]
  split
  case isTrue heq =>
    subst heq
    rw [hk] at hm
    cases hm
    exact ⟨f st, by rw [hk]; rfl, hext⟩
  case isFalse => exact ⟨s, hm, .refl s⟩

end StoresStay

/-- The store is hosted by the statement and reached through its delegate argument. -/
def IsItem (a : Activity) (id : StmtId) (k : StoreId) : Prop :=
  ∃ st, a.stores[k]? = some st ∧ st.host = .statement id ∧ st.redirect.isSome = true

theorem IsItem.stay {id : StmtId} (h : a.IsItem id k) (hstay : a.StoresStay b) : b.IsItem id k := by
  obtain ⟨st, hst, hhost, hr⟩ := h
  obtain ⟨st', hst', hext⟩ := hstay k st hst
  obtain ⟨e, he⟩ := Option.isSome_iff_exists.1 hr
  exact ⟨st', hst', hext.host.trans hhost, by rw [hext.redirect e he, Option.isSome_some]⟩

theorem IsItem.lt_size {id : StmtId} (h : a.IsItem id k) : k < a.stores.size := by
  obtain ⟨st, hst, -⟩ := h
  exact (Array.getElem?_eq_some_iff.1 hst).1

end Activity

end Workflow
