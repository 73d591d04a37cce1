import Workflow.Proofs.Build.Program
import Workflow.Proofs.Model.Emission

/-!
# A model program covers its activities

Every store of an activity has one host, which declares it unless a code statement declares it
together with its first value. So the body method of an activity declares every store once, as a
parameter or in its body, and it shows the code of every statement once.
-/

namespace Workflow

open List Activity Store

variable {k : StoreId}

def Activity.fragments (a : Activity) : List MarkedCode :=
  (range a.stmts.size).flatMap fun i => (a.kind i).fragments

theorem MarkedCode.sum_holding (codes : List MarkedCode) :
    (codes.map MarkedCode.holding).sum = (↑codes, 0, 0) := by
  induction codes with
  | nil => rfl
  | cons code codes ih =>
    rw [map_cons, sum_cons, ih, MarkedCode.holding]
    rfl

namespace Activity

open scoped List

variable {a : Activity}

def storesIn (a : Activity) (ids : List StoreId) : List Store :=
  ids.filterMap fun id => a.stores[id]?

def variableIds (a : Activity) : List StoreId :=
  (range a.stores.size).filter fun id => !a.parameters.contains id

def held (a : Activity) : Holding :=
  (↑a.fragments, ↑(a.storesIn a.variableIds), ↑(a.storesIn a.parameters))

theorem heldAt_of_size_le (a : Activity) {i : StmtId} (hi : a.stmts.size ≤ i) : a.heldAt i = 0 := by
  rw [heldAt, declaredAt, kind_eq_empty hi]
  rfl

/-! ### Stores and their hosts -/

theorem mem_plain : k ∈ a.plain ids ↔ k ∈ ids ∧ (a.stores[k]?).any (·.initialized) = false := by
  simp [plain]

theorem storesIn_range (a : Activity) : a.storesIn (range a.stores.size) = a.stores.toList := by
  have hlist : ∀ l : List Store, (range l.length).filterMap (fun k => l[k]?) = l := by
    intro l
    induction l with
    | nil => rfl
    | cons st l ih =>
      rw [length_cons, range_succ_eq_map, filterMap_cons, filterMap_map]
      simp [ih]
  simpa [storesIn] using hlist a.stores.toList

theorem plain_filter (a : Activity) (p : StoreId → Bool) (ids : List StoreId) :
    a.plain (ids.filter p) = (a.plain ids).filter p := filter_comm _ _ _

theorem sum_holdingOf (a : Activity) (ids : List StoreId) :
    (ids.map a.holdingOf).sum = (0, ↑(a.storesIn ids), 0) := by
  induction ids with
  | nil => rfl
  | cons id ids ih =>
    rw [map_cons, sum_cons, ih, holdingOf]
    cases hst : a.stores[id]? <;> simp [holding, storesIn, hst]

namespace Sound

variable (ha : a.Sound)

include ha

theorem nodup_storesAt (h : StoreHost) : (a.storesAt h).Nodup := (ha.sorted h).imp Nat.ne_of_lt

theorem mem_storesOf : k ∈ a.storesOf i ↔ ∃ st, a.stores[k]? = some st ∧ st.host = .statement i :=
  ha.listed (.statement i) k

theorem hosts_partition : (a.activityStores ++ (range a.stmts.size).flatMap a.storesOf).Perm
    (range a.stores.size) := by
  have hnodup : ((range a.stmts.size).flatMap a.storesOf).Nodup := by
    refine nodup_flatMap.2 ⟨fun i _ => ha.nodup_storesAt (.statement i), ?_⟩
    refine nodup_range.imp fun {i j} hij k hi hj => hij ?_
    obtain ⟨st, hst, hhost⟩ := ha.mem_storesOf.1 hi
    obtain ⟨st', hst', hhost'⟩ := ha.mem_storesOf.1 hj
    cases hst.symm.trans hst'
    exact StoreHost.statement.inj (hhost.symm.trans hhost')
  refine (perm_ext_iff_of_nodup (nodup_append'.2
    ⟨ha.nodup_storesAt .activity, hnodup, ?_⟩) nodup_range).2 fun k => ?_
  · intro k hown hinner
    obtain ⟨i, -, hi⟩ := mem_flatMap.1 hinner
    obtain ⟨st, hst, hhost⟩ := (ha.listed .activity k).1 hown
    obtain ⟨st', hst', hhost'⟩ := ha.mem_storesOf.1 hi
    cases hst.symm.trans hst'
    cases hhost.symm.trans hhost'
  · rw [mem_append, mem_flatMap, mem_range]
    constructor
    · rintro (hown | ⟨i, -, hi⟩)
      · obtain ⟨st, hst, -⟩ := (ha.listed .activity k).1 hown
        exact (Array.getElem?_eq_some_iff.1 hst).1
      · obtain ⟨st, hst, -⟩ := ha.mem_storesOf.1 hi
        exact (Array.getElem?_eq_some_iff.1 hst).1
    · intro hk
      have hst : a.stores[k]? = some a.stores[k] := Array.getElem?_eq_getElem hk
      cases hhost : a.stores[k].host with
      | activity => exact .inl ((ha.listed .activity k).2 ⟨_, hst, hhost⟩)
      | statement i =>
        exact .inr ⟨i, mem_range.2 (ha.hosted k i _ hst hhost),
          ha.mem_storesOf.2 ⟨_, hst, hhost⟩⟩

theorem parameters_plain (hk : k ∈ a.parameters) : k ∈ a.plain a.activityStores := by
  obtain ⟨st, hst, hhost, harg⟩ := ha.parameters k hk
  refine mem_plain.2 ⟨(ha.listed .activity k).2 ⟨st, hst, hhost⟩, ?_⟩
  rw [hst, Option.any_some, Bool.eq_false_iff]
  intro hinit
  rw [(ha.first k st hst hinit).1] at harg
  cases harg

theorem plain_activityStores : (a.plain a.activityStores).Perm (a.parameters ++
    a.plain (a.activityStores.filter fun id => !a.parameters.contains id)) := by
  have hnodup : (a.plain a.activityStores).Nodup := (ha.nodup_storesAt .activity).filter _
  have hparameters : a.parameters.Perm
      ((a.plain a.activityStores).filter fun id => a.parameters.contains id) := by
    refine (perm_ext_iff_of_nodup ha.distinctParameters (hnodup.filter _)).2 fun k => ?_
    rw [mem_filter, contains_iff_mem]
    exact ⟨fun hk => ⟨ha.parameters_plain hk, hk⟩, And.right⟩
  rw [plain_filter]
  exact .trans (filter_append_perm (fun id => a.parameters.contains id) _).symm
    (hparameters.symm.append_right _)

theorem parameters_append : a.parameters ++ a.variableIds ~ range a.stores.size := by
  have hparameters : a.parameters ~
      (range a.stores.size).filter fun id => a.parameters.contains id := by
    refine (perm_ext_iff_of_nodup ha.distinctParameters (nodup_range.filter _)).2
      fun k => ?_
    rw [mem_filter, contains_iff_mem, mem_range]
    refine ⟨fun hk => ⟨?_, hk⟩, And.right⟩
    obtain ⟨st, hst, -⟩ := ha.parameters k hk
    exact (Array.getElem?_eq_some_iff.1 hst).1
  exact .trans (hparameters.append_right _) (filter_append_perm _ _)

theorem stores_perm : a.storesIn a.parameters ++ a.storesIn a.variableIds ~ a.stores.toList := by
  rw [← storesIn_range, storesIn, storesIn, ← filterMap_append]
  exact ha.parameters_append.filterMap _

end Sound

/-- A statement declares the stores that it hosts, and the store that it gives its first value. -/
theorem WellBuilt.declaredAt_perm (ha : a.WellBuilt) (i : StmtId) :
    (a.declaredAt i).Perm ((a.kind i).declares.toList ++ a.plain (a.storesOf i)) := by
  have htag := ha.ordered.tag i
  have hlinked := ha.ordered.linked i
  unfold declaredAt
  split
  case h_1 item values body isParallel completion hk =>
    obtain ⟨st, hst, hhost, hredirect⟩ := hlinked.item item (by rw [hk]; rfl)
    have hmem : item ∈ a.plain (a.storesOf i) := by
      refine mem_plain.2 ⟨ha.sound.mem_storesOf.2 ⟨st, hst, hhost⟩, ?_⟩
      rw [hst, Option.any_some, Bool.eq_false_iff]
      intro hinit
      rw [(ha.sound.first item st hst hinit).2] at hredirect
      cases hredirect
    have hnodup : (a.plain (a.storesOf i)).Nodup :=
      (ha.sound.nodup_storesAt (.statement i)).filter _
    rw [hk, plain_filter, ← hnodup.erase_eq_filter]
    exact (perm_cons_erase hmem).symm
  case h_2 =>
    split
    case isTrue => exact .refl _
    case isFalse hhost =>
      have hnone : a.storesOf i = [] := by
        refine eq_nil_iff_forall_not_mem.2 fun k hk => hhost ?_
        obtain ⟨st, hst, hsthost⟩ := ha.sound.mem_storesOf.1 hk
        rw [← htag]
        exact ha.sound.hosts k i st hst hsthost
      rw [hnone]
      exact .refl _

/-- The statements of an activity declare together with their first values the stores that have
one. -/
theorem WellBuilt.firsts_perm (ha : a.WellBuilt) :
    ((range a.stmts.size).flatMap fun i => (a.kind i).declares.toList).Perm
      ((range a.stores.size).filter fun k => (a.stores[k]?).any (·.initialized)) := by
  have hfirsts := ha.firsts
  rw [tokens_eq, initialized, ← Multiset.coe_range, Multiset.filter_coe] at hfirsts
  simpa using Multiset.coe_eq_coe.1 hfirsts

theorem WellBuilt.declares_lt (ha : a.WellBuilt) (hk : k ∈ (a.kind i).declares) :
    k < a.stores.size := by
  by_cases hi : i < a.stmts.size
  · have hmem := ha.firsts_perm.subset
      (mem_flatMap.2 ⟨i, mem_range.2 hi, Option.mem_toList.2 hk⟩)
    exact mem_range.1 (mem_filter.1 hmem).1
  · rw [kind_eq_empty (Nat.le_of_not_lt hi)] at hk
    cases hk

/-- The stores that are declared in the body of the body method are those that are no
parameters. -/
theorem WellBuilt.declared_perm (ha : a.WellBuilt) :
    (a.plain (a.activityStores.filter fun id => !a.parameters.contains id) ++
      (range a.stmts.size).flatMap a.declaredAt).Perm a.variableIds := by
  have hinner : ((range a.stmts.size).flatMap a.declaredAt).Perm
      ((range a.stmts.size).flatMap (fun i => (a.kind i).declares.toList) ++
        a.plain ((range a.stmts.size).flatMap a.storesOf)) := by
    rw [plain, filter_flatMap]
    exact .trans (Perm.flatMap_left _ fun i _ => ha.declaredAt_perm i)
      (flatMap_append_perm _ _ _).symm
  refine (perm_append_left_iff a.parameters).1 ?_
  rw [← append_assoc]
  calc a.parameters ++ a.plain (a.activityStores.filter fun id => !a.parameters.contains id) ++
        (range a.stmts.size).flatMap a.declaredAt
    _ ~ a.plain a.activityStores ++
          ((range a.stmts.size).flatMap (fun i => (a.kind i).declares.toList) ++
            a.plain ((range a.stmts.size).flatMap a.storesOf)) :=
        ha.sound.plain_activityStores.symm.append hinner
    _ ~ (range a.stmts.size).flatMap (fun i => (a.kind i).declares.toList) ++
          a.plain (a.activityStores ++ (range a.stmts.size).flatMap a.storesOf) := by
        rw [plain, plain, plain, filter_append]
        exact perm_append_comm_assoc _ _ _
    _ ~ (range a.stores.size).filter (fun k => (a.stores[k]?).any (·.initialized)) ++
          a.plain (range a.stores.size) :=
        ha.firsts_perm.append (ha.sound.hosts_partition.filter _)
    _ ~ range a.stores.size := filter_append_perm _ _
    _ ~ a.parameters ++ a.variableIds := ha.sound.parameters_append.symm

theorem sum_range_flatMap {α : Type} (f : Nat → List α) (g : α → Holding) (n : Nat) :
    ∑ i ∈ Finset.range n, ((f i).map g).sum = (((range n).flatMap f).map g).sum := by
  induction n with
  | zero => rfl
  | succ n ih => simp [Finset.sum_range_succ, range_succ, ih]

/-- What the activity declares itself and what its statements hold is what its body method holds. -/
theorem WellBuilt.held_eq (ha : a.WellBuilt) :
    ((a.plain (a.activityStores.filter fun id => !a.parameters.contains id)).map a.holdingOf).sum +
      a.total a.heldAt a.root = (a.held.1, a.held.2.1, 0) := by
  have hroot : a.total a.heldAt a.root = ∑ i ∈ Finset.range a.stmts.size, a.heldAt i := by
    have hsum := ha.fills.sum_total (fun i hi => a.heldAt_of_size_le hi) ha.ordered
    rwa [map_singleton, sum_singleton, Nat.Ico_zero_eq_range] at hsum
  have hlist : ∑ i ∈ Finset.range a.stmts.size, a.heldAt i =
      (a.fragments.map MarkedCode.holding).sum +
        (((range a.stmts.size).flatMap a.declaredAt).map a.holdingOf).sum := by
    unfold heldAt
    rw [Finset.sum_add_distrib, sum_range_flatMap, sum_range_flatMap, fragments]
  have hperm := (ha.declared_perm.map a.holdingOf).sum_eq
  rw [map_append, sum_append] at hperm
  rw [hroot, hlist, add_left_comm, hperm, sum_holdingOf, MarkedCode.sum_holding]
  simp [held]

end Activity

namespace Emit

variable {a : Activity}

namespace Invariant

variable {Q : StoreHost → List ModelStmt → Prop} (hQ : Invariant a Q) (ha : a.WellBuilt)

include hQ ha

/-- A statement holds what it has itself and what is inside it. -/
theorem emits_stmt {n : Nat} {id : StmtId} (hn : a.stmts.size - id ≤ n) :
    Emits (Q (a.outer id)) (stmt a n id) (a.total a.heldAt id) := by
  induction n generalizing id with
  | zero =>
    rw [total, upTo_of_size_le (fun i hi => a.heldAt_of_size_le hi) (by omega)]
    exact hQ.emits_nil
  | succ n ih =>
    rw [total_eq (fun i hi => a.heldAt_of_size_le hi) ha.ordered]
    refine hQ.emits_stmtWith (ha.ordered.linked id) (fun k hk => ha.declares_lt hk) fun m hm => ?_
    have hlt : @LT.lt Nat _ id m := ha.ordered.after id m hm
    have hinner := @ih m (by omega)
    exact fun s => { hinner s with keeps := hQ.child hm (hinner s).keeps }

/-- The body of an activity declares its stores, and holds its statements. -/
theorem emits_body : Emits (Q .activity)
    (do return (← declareStores a (a.activityStores.filter fun id => !a.parameters.contains id)) ++
      (← stmt a a.stmts.size a.root)) (a.held.1, a.held.2.1, 0) := by
  have hroot := hQ.emits_stmt ha (Nat.sub_le a.stmts.size a.root)
  refine (hQ.emits_append (hQ.emits_declareStores fun k hk => (mem_filter.1 hk).1)
    fun s => ?_).cast ha.held_eq
  exact { hroot s with keeps := hQ.root (hroot s).keeps }

end Invariant

theorem invariant_true (a : Activity) : Invariant a fun _ _ => True := by
  constructor <;> intros <;> trivial

def Yields {α : Type} (x : Emit α) (R : α → Prop) (held : Holding) : Prop :=
  ∀ s, R (x.run s).1 ∧ s.marking.Notes (x.run s).2.marking held

theorem Yields.mapM {α β : Type} {f : α → Emit β} {R : α → β → Prop} {g : α → Holding}
    {xs : List α} (h : ∀ v ∈ xs, Yields (f v) (R v) (g v)) :
    Yields (xs.mapM f) (Forall₂ R xs) (xs.map g).sum := by
  induction xs with
  | nil => exact fun s => ⟨.nil, .refl _⟩
  | cons v xs ih =>
    intro s
    obtain ⟨hv, hnotes⟩ := h v mem_cons_self s
    obtain ⟨hxs, hnotes'⟩ := ih (fun w hw => h w (mem_cons_of_mem v hw)) ((f v).run s).2
    rw [mapM_cons, map_cons, sum_cons]
    exact ⟨.cons hv hxs, hnotes.trans hnotes'⟩

/-- The parameters of a body method are marked by their stores. -/
theorem yields_parameters (a : Activity) : Yields (parameters a)
    (fun ps => ps.filterMap (·.marker) = (a.storesIn a.parameters).map marker)
    (0, 0, ↑(a.storesIn a.parameters)) := by
  have heach : Yields (parameters a)
      (Forall₂ (fun st p => p.marker = some st.marker) (a.storesIn a.parameters))
      ((a.storesIn a.parameters).map fun st => (0, 0, {st})).sum :=
    .mapM fun st _ s => ⟨rfl, Marking.notes_addStorePlace _ st⟩
  intro s
  obtain ⟨hall, hnotes⟩ := heach s
  have hsum : ∀ sts : List Store,
      (sts.map fun st => ((0, 0, {st}) : Holding)).sum = (0, 0, ↑sts) := by
    intro sts
    induction sts with
    | nil => rfl
    | cons st sts ih =>
      rw [map_cons, sum_cons, ih]
      rfl
  have hmarkers : ∀ {sts : List Store} {ps : List ModelParameter},
      Forall₂ (fun st (p : ModelParameter) => p.marker = some st.marker) sts ps →
        ps.filterMap (·.marker) = sts.map marker := by
    intro sts ps h
    induction h with
    | nil => rfl
    | cons hp _ ih => rw [filterMap_cons_some hp, ih, map_cons]
  rw [hsum] at hnotes
  exact ⟨hmarkers hall, hnotes⟩

end Emit

/-! ### Activities and units -/

/-- The method holds the code of an activity, and it declares the stores of the activity. -/
structure ModelMethod.Holds (m : ModelMethod) (a : Activity) : Prop where
  fragments : m.fragments.Perm a.fragments
  declared : m.declared.Perm ((a.storesIn a.variableIds).map marker)
  parameters : m.parameters.filterMap (·.marker) = (a.storesIn a.parameters).map marker

/-- The type is that of an activity: its body method holds the activity. -/
def ModelType.Holds (t : ModelType) (a : Activity) : Prop :=
  t.name = a.name ∧ ∃ m, t.method? ModelMethod.bodyName = some m ∧ m.Holds a

namespace Emit

variable {a : Activity}

theorem yields_activityType (ns : Option String) (ha : a.WellBuilt) :
    Yields (activityType ns a) (·.Holds a) a.held := by
  intro s
  obtain ⟨hparameters, hnotes⟩ := yields_parameters a s
  have hb := (invariant_true a).emits_body ha ((parameters a).run s).2
  have hheld : a.held =
      ((0, 0, ↑(a.storesIn a.parameters)) : Holding) + (a.held.1, a.held.2.1, 0) := by
    simp [held]
  rw [hheld]
  refine ⟨⟨rfl, _, rfl, ?_, ?_, hparameters⟩, hnotes.trans hb.notes⟩
  · change (_ ++ []).Perm _
    rw [append_nil]
    exact Multiset.coe_eq_coe.1 hb.fragments
  · change (_ ++ []).Perm _
    rw [append_nil]
    exact Multiset.coe_eq_coe.1 hb.declared

/-- A unit has a type for each of its activities, in their order. -/
theorem yields_unit (external : List ModelType)
    (hu : ∀ a ∈ u.activities, a.WellBuilt) : Yields (unit external u)
    (fun mu => ∃ types, mu.types = types ++ (if u.index == 0 then external else []) ∧
      Forall₂ (fun a t => t.Holds a) u.activities types) (u.activities.map held).sum := by
  intro s
  have heach : Yields (u.activities.mapM fun a => do
        modify fun s : EmitState => { s with temps := 0 }
        activityType u.ns a)
      (Forall₂ (fun a t => t.Holds a) u.activities) (u.activities.map held).sum :=
    .mapM fun a ha s => yields_activityType u.ns (hu a ha) { s with temps := 0 }
  obtain ⟨htypes, hnotes⟩ := heach s
  exact ⟨⟨_, rfl, htypes⟩, hnotes⟩

end Emit

theorem ModelProgram.notes_emit {units : List CompilationUnit} (external : List ModelType)
    (h : ∀ u ∈ units, ∀ a ∈ u.activities, a.WellBuilt) : Forall₂ (fun u mu => ∃ types,
      mu.types = types ++ (if u.index == 0 then external else []) ∧
        Forall₂ (fun a t => t.Holds a) u.activities types)
      units (emit units external).units ∧ Marking.Notes {} (emit units external).marking
      ((units.flatMap (·.activities)).map held).sum := by
  obtain ⟨hall, hnotes⟩ := Emit.Yields.mapM (fun u hu => Emit.yields_unit external (h u hu)) {}
  refine ⟨hall, ?_⟩
  have hsum : (units.map fun u => (u.activities.map held).sum).sum =
      ((units.flatMap (·.activities)).map held).sum := by
    clear h hall hnotes
    induction units with
    | nil => rfl
    | cons u units ih => simp [ih]
  exact hsum ▸ hnotes

/-! ### Prepared activities -/

theorem StmtKind.fragments_sublist (k : StmtKind) : (k.fragments.map (·.marker)).Sublist
    (k.codeMarker.toList ++ k.slots.map Fragment.marker) := by
  cases k with
  | service op =>
    simp only [fragments, codeMarker, slots, ServiceOperation.slots, map_map,
      Option.toList_none, nil_append]
    refine .map Fragment.marker (.append (.refl _) ?_)
    split
    · exact .refl _
    · exact nil_sublist _
  | _ => simp [fragments, codeMarker, slots, Fragment.marked, Function.comp_def]

namespace Activity

variable {a : Activity}

theorem markers_le (a : Activity) :
    (↑(a.fragments.map (·.marker) ++ a.stores.toList.map marker) : Multiset Marker) ≤
      a.tokens.2.1 := by
  rw [tokens_eq, ← Multiset.coe_add, fragments, map_flatMap]
  refine add_le_add_left (Multiset.coe_le.2 (Sublist.subperm ?_)) _
  exact .flatMap_right _ fun i _ => (a.kind i).fragments_sublist

theorem Prepared.wellBuilt (h : a.Prepared) : a.WellBuilt := by
  obtain ⟨ids, ids', last, unit, node, built, errors, hbuild, -, rfl⟩ := h
  exact (keeps_resolve last errors built).wellBuilt (build_ids hbuild).1

theorem Prepared.distinct (h : a.Prepared) :
    (a.fragments.map (·.marker) ++ a.stores.toList.map marker).Nodup := by
  obtain ⟨ids, ids', last, unit, node, built, errors, hbuild, hlast, rfl⟩ := h
  obtain ⟨-, -, hmarkers, htokens⟩ := build_tokens hbuild
  obtain ⟨hnext, hle⟩ := markers_resolve last errors built
  refine Multiset.coe_nodup.1 (Multiset.nodup_of_le ((markers_le _).trans hle) ?_)
  rw [htokens]
  refine Multiset.nodup_add.2 ⟨Finset.nodup _, Finset.nodup _, Finset.disjoint_val.2 ?_⟩
  exact Finset.Ioc_disjoint_Ioc_of_le hlast

/-- What the body methods of activities hold together. -/
theorem sum_held (as : List Activity) : (as.map held).sum = (↑(as.flatMap fragments),
    ↑(as.flatMap fun a => a.storesIn a.variableIds),
    ↑(as.flatMap fun a => a.storesIn a.parameters)) := by
  induction as with
  | nil => rfl
  | cons a as ih =>
    rw [map_cons, sum_cons, ih, held]
    simp

end Activity

/-- The method shows an activity: it has all code of the activity and declares all its stores, each
once. -/
structure ModelMethod.Covers (m : ModelMethod) (a : Activity) : Prop extends m.Holds a where
  stores : (m.parameters.filterMap (·.marker) ++ m.declared).Perm (a.stores.toList.map marker)
  distinct : (m.fragments.map (·.marker) ++
    (m.parameters.filterMap (·.marker) ++ m.declared)).Nodup

theorem ModelMethod.Holds.covers {m : ModelMethod} {a : Activity} (h : m.Holds a)
    (ha : a.Prepared) : m.Covers a := by
  have hstores : (m.parameters.filterMap (·.marker) ++ m.declared).Perm
      (a.stores.toList.map marker) := by
    rw [h.parameters]
    refine (h.declared.append_left _).trans ?_
    rw [← map_append]
    exact ha.wellBuilt.sound.stores_perm.map _
  refine { h with stores := hstores, distinct := ?_ }
  exact ((h.fragments.map _).append hstores).nodup_iff.2 ha.distinct

theorem exists_mem_flatMap {α β : Type} {f : α → List β} {xs : List α} {p : β → Prop} :
    (∃ y ∈ xs.flatMap f, p y) ↔ ∃ x ∈ xs, ∃ y ∈ f x, p y := by
  simp only [mem_flatMap]
  exact ⟨fun ⟨y, ⟨x, hx, hy⟩, hp⟩ => ⟨x, hx, y, hy, hp⟩,
    fun ⟨x, hx, y, hy, hp⟩ => ⟨y, ⟨x, hx, hy⟩, hp⟩⟩

namespace ModelProgram

/-- Every activity has a type whose body method shows it, and the noted markers are those of shown
code and of stores. -/
structure Covers (model : ModelProgram) (units : List CompilationUnit)
    (external : List ModelType) : Prop where
  types : Forall₂ (fun u mu => ∃ types,
    mu.types = types ++ (if u.index == 0 then external else []) ∧
      Forall₂ (fun a t => t.name = a.name ∧
        ∃ m, t.method? ModelMethod.bodyName = some m ∧ m.Covers a) u.activities types)
    units model.units
  fragments : ∀ k, k ∈ model.marking.fragments ↔
    ∃ a ∈ units.flatMap (·.activities), ∃ code ∈ a.fragments, code.marker = k
  inferred : ∀ k, k ∈ model.marking.inferred ↔
    ∃ a ∈ units.flatMap (·.activities), ∃ st ∈ a.storesIn a.variableIds,
      st.ty.isInferred = true ∧ st.marker = k
  places : ∀ k, (model.marking.span? k).isSome = true ↔
    ∃ a ∈ units.flatMap (·.activities),
      (∃ code ∈ a.fragments, code.marker = k) ∨ ∃ st ∈ a.stores.toList, st.marker = k

/-- The model program of activities that are built and resolved shows all of them. -/
theorem emit_covers {units : List CompilationUnit} (external : List ModelType)
    (h : ∀ u ∈ units, ∀ a ∈ u.activities, a.Prepared) :
    (emit units external).Covers units external := by
  obtain ⟨htypes, hnotes⟩ := notes_emit external fun u hu a ha => (h u hu a ha).wellBuilt
  rw [sum_held] at hnotes
  refine ⟨?_, fun k => ?_, fun k => ?_, fun k => ?_⟩
  · refine ((forall₂_and_left _ _).2 ⟨h, htypes⟩).imp fun u mu => ?_
    rintro ⟨hu, types, heq, hall⟩
    refine ⟨types, heq, ((forall₂_and_left _ _).2 ⟨hu, hall⟩).imp fun a t => ?_⟩
    rintro ⟨ha, hname, m, hm, hholds⟩
    exact ⟨hname, m, hm, hholds.covers ha⟩
  · rw [hnotes.fragments]
    simp only [not_mem_nil, false_or, Multiset.mem_coe, exists_mem_flatMap]
  · rw [hnotes.inferred]
    simp only [not_mem_nil, false_or, Multiset.mem_coe, exists_mem_flatMap]
  · have hstores : ∀ a ∈ units.flatMap (·.activities), ∀ st, st ∈ a.stores.toList ↔
        st ∈ a.storesIn a.parameters ∨ st ∈ a.storesIn a.variableIds := by
      intro a ha st
      obtain ⟨u, hu, ha⟩ := mem_flatMap.1 ha
      rw [← (h u hu a ha).wellBuilt.sound.stores_perm.mem_iff, mem_append]
    have hnone : (({} : Marking).span? k).isSome = true ↔ False := by simp [Marking.span?]
    rw [hnotes.places]
    generalize units.flatMap (·.activities) = as at hstores
    simp only [hnone, false_or, Multiset.mem_coe, exists_mem_flatMap]
    constructor
    · rintro (⟨a, ha, hcode⟩ | ⟨a, ha, st, hst, hk⟩ | ⟨a, ha, st, hst, hk⟩)
      · exact ⟨a, ha, .inl hcode⟩
      · exact ⟨a, ha, .inr ⟨st, (hstores a ha st).2 (.inr hst), hk⟩⟩
      · exact ⟨a, ha, .inr ⟨st, (hstores a ha st).2 (.inl hst), hk⟩⟩
    · rintro ⟨a, ha, hcode | ⟨st, hst, hk⟩⟩
      · exact .inl ⟨a, ha, hcode⟩
      · rcases (hstores a ha st).1 hst with hst | hst
        · exact .inr (.inr ⟨a, ha, st, hst, hk⟩)
        · exact .inr (.inl ⟨a, ha, st, hst, hk⟩)

/-- An iteration, and two operations with an endpoint, of which only the second one sends. -/
def messagingProgram : { p : ParseProgram // p.anyActivity (fun _ a =>
    decide (a.fragments.map (·.marker) = [3, 4, 6, 8])) = true } where
  val.units := [{
    activities := [.counting
      (.codeBlock [.eval (.assign {} .assign (.ident "count") (.ident "order"))])
      (["receive", "send"].map fun label =>
        { label := label
          members := [("contract", .typeName "IOrders"),
            ("operation", { label := "name", text := some "Next" }),
            ("endpoint", .expression (.ident "count"))] })] }]
  property := by decide +kernel

theorem emit_covers_messagingProgram :
    ∃ units, CompilationUnit.prepare messagingProgram.val = .ok units ∧
      (∃ u ∈ units, ∃ a ∈ u.activities, a.fragments.map (·.marker) = [3, 4, 6, 8]) ∧
      (emit units []).Covers units [] := by
  obtain ⟨units, answer, h, -, u, hu, a, ha, htest⟩ :=
    messagingProgram.val.exists_of_anyActivity messagingProgram.property
  refine ⟨units, h, ⟨u, hu, a, ha, htest⟩, emit_covers [] fun u hu a ha => ?_⟩
  exact CompilationUnit.prepared_prepare h a (mem_flatMap.2 ⟨u, hu, ha⟩)

end ModelProgram

end Workflow
