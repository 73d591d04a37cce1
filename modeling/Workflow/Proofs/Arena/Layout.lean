import Mathlib.Algebra.BigOperators.Pi
import Mathlib.Tactic.Abel
import Workflow.Proofs.Arena.Fragments
import Workflow.Proofs.Arena.Stores
import Workflow.Proofs.Lower.Chain

/-!
# How statements lie in an arena

Statements are numbered in source order: a statement comes first, then everything inside it. So the
statements of a part of the program fill an interval of the arena, and each of them is reached from
its parent. Code is chained to the code right after it in a sequence, and to nothing else.
-/

namespace Workflow

open Finset

variable {k : StmtKind} {id : StmtId}

namespace Activity

variable {a b : Activity} {p : Option StmtId} {xs ys : List StmtId} {lo mid hi : Nat}

theorem lt_size_of_kind (h : a.kind i = k) (hk : (k.tag == .empty) = false) : i < a.stmts.size := by
  refine Nat.lt_of_not_le fun hle => ?_
  rw [← h, kind_eq_empty hle] at hk
  cases hk

theorem chainedTo_eq (a : Activity) (id : StmtId) : Lower.chainedTo a id = (a.kind id).chained := by
  rw [Lower.chainedTo]
  cases a.kind id <;> rfl

/-- The statements directly inside are chained as they follow each other in a sequence, and not at
all elsewhere. -/
def Chained (a : Activity) (k : StmtKind) : Prop :=
  if k.tag = .sequence then a.chainsForward k.children = true
  else ∀ m ∈ k.children, Lower.chainedTo a m = none

theorem chainsForward_congr (h : ∀ m ∈ xs, b.kind m = a.kind m) :
    b.chainsForward xs = a.chainsForward xs := by
  have hto : ∀ m ∈ xs, Lower.chainedTo b m = Lower.chainedTo a m := fun m hm => by
    rw [Lower.chainedTo, Lower.chainedTo, h m hm]
  induction xs with
  | nil => rfl
  | cons m rest ih =>
    cases rest with
    | nil =>
      rw [chainsForward, chainsForward, isUnchained, isUnchained, hto m List.mem_cons_self]
    | cons next rest =>
      have hnext : next ∈ m :: next :: rest := List.mem_cons_of_mem _ List.mem_cons_self
      rw [chainsForward, chainsForward, hto m List.mem_cons_self, h next hnext,
        ih (fun m hm => h m (List.mem_cons_of_mem _ hm)) fun m hm =>
          hto m (List.mem_cons_of_mem _ hm)]

theorem Chained.congr (h : a.Chained k) (hab : ∀ m ∈ k.children, b.kind m = a.kind m) :
    b.Chained k := by
  unfold Chained at h ⊢
  split
  case isTrue htag =>
    rw [if_pos htag] at h
    rw [chainsForward_congr hab, h]
  case isFalse htag =>
    rw [if_neg htag] at h
    intro m hm
    rw [Lower.chainedTo, hab m hm]
    exact h m hm

/-- Statements that are not chained are chained well wherever they stand. -/
theorem chained_of_unchained (h : ∀ m ∈ k.children, Lower.chainedTo a m = none) : a.Chained k := by
  unfold Chained
  split
  case isFalse => exact h
  case isTrue =>
    generalize k.children = xs at h
    induction xs with
    | nil => rfl
    | cons m rest ih =>
      have ih := ih fun m hm => h m (List.mem_cons_of_mem _ hm)
      have hm := h m List.mem_cons_self
      cases rest with
      | nil => rw [chainsForward, isUnchained, hm, Option.isNone_none]
      | cons next rest => rw [chainsForward, hm, ih, Option.all_none, Bool.and_self]

/-- The names of nodes of a graph, of those that have one. -/
def nodeNames (a : Activity) (ids : List StmtId) : List String :=
  ids.filterMap fun m => (a.kind m).nodeName

/-- Nothing is missing, a transaction starts with a receive, and graphs name their nodes apart. -/
structure Ruled (a : Activity) (k : StmtKind) : Prop where
  complete : k.isComplete = true
  receive : ∀ m ∈ k.request, (a.kind m).isReceive = true
  names : (a.nodeNames k.nodes).Nodup

theorem Ruled.congr (h : a.Ruled k) (hk : k'.face = k.face)
    (hab : ∀ m ∈ k.children, (b.kind m).face = (a.kind m).face) : b.Ruled k' := by
  simp only [StmtKind.face, Prod.mk.injEq] at hk hab
  obtain ⟨-, -, hrequest, hcomplete, hnodes⟩ := hk
  refine ⟨hcomplete.trans h.complete, fun m hm => ?_, ?_⟩
  · rw [hrequest] at hm
    exact (hab m (k.request_subset m hm)).2.1.trans (h.receive m hm)
  · rw [nodeNames, hnodes, List.filterMap_congr fun m hm => (hab m (k.nodes_subset m hm)).1]
    exact h.names

theorem ruled_of_face (h : k.isComplete = true) (hrequest : k.request = none)
    (hnodes : k.nodes = []) : a.Ruled k :=
  ⟨h, by simp [hrequest], hnodes ▸ .nil⟩

/-- Code is chained to the code right after it. -/
def Follows (a : Activity) (k : StmtKind) : Prop :=
  k.tag = .sequence → ∀ m n, [m, n] <:+: k.children → (a.kind m).tag = .code →
    (a.kind n).tag = .code → (a.kind m).chained = some n

theorem Follows.congr (h : a.Follows k) (htag : k'.tag = k.tag)
    (hchildren : k'.children = k.children) (hab : ∀ m ∈ k.children,
      (b.kind m).tag = (a.kind m).tag ∧ (b.kind m).chained = (a.kind m).chained) : b.Follows k' := by
  intro hk m n hmn hm hn
  rw [hchildren] at hmn
  have hin : ∀ i ∈ [m, n], i ∈ k.children := fun i hi => hmn.subset hi
  rw [(hab m (hin m (by simp))).1] at hm
  rw [(hab n (hin n (by simp))).1] at hn
  rw [(hab m (hin m (by simp))).2]
  exact h (htag ▸ hk) m n hmn hm hn

/-- The statements inside are chained well, of the right kinds and keep to the rules, and the store
of the items is hosted. -/
structure Linked (a : Activity) (id : StmtId) (k : StmtKind) : Prop where
  chained : a.Chained k
  follows : a.Follows k
  parts : ∀ m ∈ k.parts.1, a.tag m ∈ k.parts.2
  item : ∀ i ∈ k.item, a.IsItem id i
  ruled : a.Ruled k

theorem Linked.congr (h : a.Linked id k)
    (hab : ∀ m ∈ k.children, b.tag m = a.tag m ∧ b.kind m = a.kind m)
    (hstores : a.StoresStay b) : b.Linked id k where
  chained := h.chained.congr fun m hm => (hab m hm).2
  follows := h.follows.congr rfl rfl fun m hm => by rw [(hab m hm).2]; exact ⟨rfl, rfl⟩
  parts m hm := by
    rw [(hab m (k.parts_subset m hm)).1]
    exact h.parts m hm
  item i hi := (h.item i hi).stay hstores
  ruled := h.ruled.congr rfl fun m hm => by rw [(hab m hm).2]

/-- A statement sees the store that it declares together with its first value. -/
def SeesFirst (a : Activity) (id : StmtId) (k : StmtKind) : Prop :=
  ∀ j ∈ k.declares, ∃ st, a.stores[j]? = some st ∧ a.Sees (.statement id) st.host

theorem seesFirst_of_none (h : k.declares = none) : a.SeesFirst id k := by
  intro j hj
  rw [h] at hj
  cases hj

theorem SeesFirst.stay (h : a.SeesFirst id k) (ha : a.ParentsFirst)
    (hparent : ∀ m < n, b.parent m = a.parent m) (hid : id < n) (hstores : a.StoresStay b) :
    b.SeesFirst id k := by
  intro j hj
  obtain ⟨st, hst, hsees⟩ := h j hj
  obtain ⟨st', hst', hext⟩ := hstores j st hst
  refine ⟨st', hst', ?_⟩
  rw [hext.host]
  cases hhost : st.host with
  | activity => trivial
  | statement i =>
    rw [hhost] at hsees
    exact (Within.congr ha hparent hid).2 hsees

/-- A statement that raises again is inside a handler, and none saves where this is forbidden. -/
structure Sheltered (a : Activity) (id : StmtId) (k : StmtKind) : Prop where
  raise : k = .raise none → ∃ j, a.Within id j ∧ a.tag j = .handler
  persist : k = .persist → ∀ j, a.Within id j → a.tag j ≠ .noPersist

theorem sheltered_of_tag (h : (k.tag == .raise || k.tag == .persist) = false) : a.Sheltered id k :=
  ⟨fun hk => (by rw [hk] at h; cases h), fun hk => by rw [hk] at h; cases h⟩

theorem Sheltered.stay (h : a.Sheltered id k) (ha : a.ParentsFirst)
    (hparent : ∀ m < n, b.parent m = a.parent m) (htag : ∀ m < n, b.tag m = a.tag m)
    (hid : id < n) : b.Sheltered id k where
  raise hk := by
    obtain ⟨j, hj, hhandler⟩ := h.raise hk
    refine ⟨j, (Within.congr ha hparent hid).2 hj, ?_⟩
    rw [htag j (Nat.lt_of_le_of_lt (hj.le ha) hid), hhandler]
  persist hk j hj := by
    have hj := (Within.congr ha hparent hid).1 hj
    rw [htag j (Nat.lt_of_le_of_lt (hj.le ha) hid)]
    exact h.persist hk j hj

/-- The statements of a list are inside `p`, and with all inside them they fill the places from `lo`
up to `hi`, in order. -/
inductive Fills (a : Activity) : Option StmtId → List StmtId → Nat → Nat → Prop
  | nil (p : Option StmtId) (n : Nat) : Fills a p [] n n
  | cons {p : Option StmtId} {rest : List StmtId} {lo mid hi : Nat} (parent : a.parent lo = p)
    (tag : a.tag lo = (a.kind lo).tag) (linked : a.Linked lo (a.kind lo))
    (inner : Fills a (some lo) (a.kind lo).children (lo + 1) mid)
    (after : Fills a p rest mid hi) : Fills a p (lo :: rest) lo hi

namespace Fills

theorem le (h : a.Fills p xs lo hi) : lo ≤ hi := by
  induction h with
  | nil => exact Nat.le_refl _
  | cons _ _ _ _ _ ihi iha => omega

theorem mem_le (h : a.Fills p xs lo hi) (hmem : i ∈ xs) : lo ≤ i := by
  induction h with
  | nil => cases hmem
  | cons _ _ _ hin _ _ ih =>
    rcases List.mem_cons.1 hmem with rfl | hmem
    · exact Nat.le_refl _
    · exact Nat.le_trans (Nat.le_of_lt hin.le) (ih hmem)

theorem mem_lt {i : Nat} (h : a.Fills p xs lo hi) (hmem : i ∈ xs) : i < hi := by
  induction h with
  | nil => cases hmem
  | cons _ _ _ hin hafter _ ih =>
    rcases List.mem_cons.1 hmem with rfl | hmem
    · exact Nat.lt_of_lt_of_le hin.le hafter.le
    · exact ih hmem

theorem pairwise (h : a.Fills p xs lo hi) : xs.Pairwise (· < ·) := by
  induction h with
  | nil => exact .nil
  | cons _ _ _ hin hafter _ ih =>
    exact .cons (fun m hm => Nat.lt_of_lt_of_le hin.le (hafter.mem_le hm)) ih

theorem tag_eq (h : a.Fills p xs lo hi) (hmem : i ∈ xs) : a.tag i = (a.kind i).tag := by
  induction h with
  | nil => cases hmem
  | cons _ ht _ _ _ _ ih =>
    rcases List.mem_cons.1 hmem with rfl | hmem
    · exact ht
    · exact ih hmem

theorem append (h : a.Fills p xs lo mid) (h' : a.Fills p ys mid hi) :
    a.Fills p (xs ++ ys) lo hi := by
  induction h with
  | nil => exact h'
  | cons hp ht hc hi _ _ ih => exact .cons hp ht hc hi (ih h')

theorem congr (h : a.Fills p xs lo hi) (hab : ∀ i, lo ≤ i → i < hi →
      b.parent i = a.parent i ∧ b.tag i = a.tag i ∧ b.kind i = a.kind i)
    (hstores : a.StoresStay b) : b.Fills p xs lo hi := by
  induction h with
  | nil => exact .nil _ _
  | cons hp ht hc hin hafter ihi iha =>
    have hlo := hin.le
    have hmid := hafter.le
    obtain ⟨hp', ht', hk⟩ := hab _ (Nat.le_refl _) (by omega)
    have hin' := ihi fun i hi hi' => hab i (by omega) (by omega)
    have hafter' := iha fun i hi hi' => hab i (by omega) hi'
    have hc' := hc.congr (fun m hm =>
      (hab m (by have := hin.mem_le hm; omega) (by have := hin.mem_lt hm; omega)).2) hstores
    exact .cons (hp'.trans hp) (by rw [ht', hk, ht]) (hk ▸ hc') (hk ▸ hin') hafter'

/-- The statements of the list itself may be linked in another way. -/
theorem relink (h : a.Fills p xs lo hi)
    (hab : ∀ i, lo ≤ i → i < hi → b.parent i = a.parent i ∧ b.tag i = a.tag i ∧
      (b.kind i).tag = (a.kind i).tag ∧ (b.kind i).children = (a.kind i).children ∧
      (b.kind i).parts = (a.kind i).parts ∧ (b.kind i).item = (a.kind i).item ∧
      (b.kind i).face = (a.kind i).face)
    (hinside : ∀ i, lo ≤ i → i < hi → i ∉ xs → b.kind i = a.kind i)
    (hstores : a.StoresStay b) : b.Fills p xs lo hi := by
  induction h with
  | nil => exact .nil _ _
  | @cons _ rest lo mid hi hp ht hc hin hafter ihi iha =>
    have hlo := hin.le
    have hmid := hafter.le
    obtain ⟨hp', ht', hk, hchildren, hparts, hitem, hface⟩ := hab _ (Nat.le_refl _) (by omega)
    -- what is inside the first statement is no member of the list
    have hsame : ∀ i, lo + 1 ≤ i → i < mid → b.kind i = a.kind i := fun i hi hi' => by
      refine hinside i (by omega) (by omega) fun hmem => ?_
      rcases List.mem_cons.1 hmem with rfl | hmem
      · omega
      · have := hafter.mem_le hmem
        omega
    have hin' := hin.congr (fun i hi hi' =>
      ⟨(hab i (by omega) (by omega)).1, (hab i (by omega) (by omega)).2.1, hsame i hi hi'⟩) hstores
    have hafter' := iha (fun i hi hi' => hab i (by omega) hi') fun i hi hi' hmem =>
      hinside i (by omega) hi' fun hmem' => by
        rcases List.mem_cons.1 hmem' with rfl | hmem'
        · omega
        · exact hmem hmem'
    refine .cons (hp'.trans hp) (by rw [ht', hk, ht]) ?_ (hchildren ▸ hin') hafter'
    have hc' := hc.congr (fun m hm => by
      have hle := hin.mem_le hm
      have hlt := hin.mem_lt hm
      exact ⟨(hab m (by omega) (by omega)).2.1, hsame m hle hlt⟩) hstores
    refine ⟨?_, hc'.follows.congr hk hchildren fun _ _ => ⟨rfl, rfl⟩, hparts ▸ hc'.parts,
      hitem ▸ hc'.item, hc'.ruled.congr hface fun _ _ => rfl⟩
    have hchained := hc'.chained
    unfold Chained at hchained ⊢
    rwa [hk, hchildren]

end Fills

/-! ### Tokens -/

def storeMarkers (a : Activity) : Multiset Marker := ↑(a.stores.toList.map Store.marker)

/-- The stores that are declared together with their first value. -/
def initialized (a : Activity) : Multiset StoreId :=
  (Multiset.range a.stores.size).filter fun k => (a.stores[k]?).any (·.initialized) = true

def tokens (a : Activity) : Tokens :=
  ∑ i ∈ range a.stmts.size, (a.kind i).tokens + (0, a.storeMarkers, 0)

theorem tokens_congr (hsize : b.stmts.size = a.stmts.size)
    (h : ∀ i < a.stmts.size, (b.kind i).tokens = (a.kind i).tokens)
    (hstores : b.storeMarkers = a.storeMarkers) : b.tokens = a.tokens := by
  rw [tokens, tokens, hsize, hstores]
  congr 1
  exact sum_congr rfl fun i hi => h i (mem_range.1 hi)

@[simp]
theorem tokens_alloc (a : Activity) (tag : StmtTag) (p : Option StmtId) (span : Span) :
    (a.alloc tag p span).2.tokens = a.tokens := by
  have hnew : ((a.alloc tag p span).2.kind a.stmts.size).tokens = 0 := by
    rw [kind, getElem?_alloc_self]
    rfl
  have hold : ∀ i ∈ range a.stmts.size,
      ((a.alloc tag p span).2.kind i).tokens = (a.kind i).tokens := by
    intro i hi
    rw [kind, kind, getElem?_alloc_of_lt _ _ _ _ (mem_range.1 hi)]
  rw [tokens, size_alloc, sum_range_succ, hnew, add_zero, sum_congr rfl hold]
  rfl

theorem tokens_setKind (a : Activity) (k : StmtKind) (hid : id < a.stmts.size) :
    (a.setKind id k).tokens + (a.kind id).tokens = a.tokens + k.tokens := by
  have hmem : id ∈ range a.stmts.size := mem_range.2 hid
  have hrest : ∑ i ∈ (range a.stmts.size).erase id, ((a.setKind id k).kind i).tokens =
      ∑ i ∈ (range a.stmts.size).erase id, (a.kind i).tokens :=
    sum_congr rfl fun i hi => by
      rw [kind_setKind_of_ne _ _ _ (ne_of_mem_erase hi)]
  have hstores : (a.setKind id k).storeMarkers = a.storeMarkers := rfl
  rw [tokens, tokens, size_setKind, hstores, ← add_sum_erase _ _ hmem,
    ← add_sum_erase _ (fun i => (a.kind i).tokens) hmem, kind_setKind_self _ _ _ hid, hrest]
  abel

theorem storeMarkers_addStore (a : Activity) (store : Store) :
    (a.addStore store).storeMarkers = a.storeMarkers + {store.marker} := by
  rw [storeMarkers, stores_addStore, Array.toList_push, List.map_append]
  rfl

theorem tokens_addStore (a : Activity) (store : Store) :
    (a.addStore store).tokens = a.tokens + (0, {store.marker}, 0) := by
  simp only [tokens, size_addStore, kind_addStore, storeMarkers_addStore, add_assoc,
    Prod.mk_add_mk, add_zero]

theorem tokens_modifyStore (a : Activity) {k : StoreId} {f : Store → Store} {st : Store}
    (hk : a.stores[k]? = some st) (hmarker : (f st).marker = st.marker) :
    (a.modifyStore k f).tokens = a.tokens := by
  refine tokens_congr rfl (fun _ _ => rfl) ?_
  have hlist : (a.modifyStore k f).stores.toList.map Store.marker =
      a.stores.toList.map Store.marker := by
    refine List.ext_getElem? fun m => ?_
    simp only [Activity.modifyStore, List.getElem?_map, Array.getElem?_toList,
      Array.getElem?_modify]
    split
    case isTrue heq =>
      subst heq
      simp [hk, hmarker]
    case isFalse => rfl
  rw [storeMarkers, hlist]
  rfl

theorem tokens_eq (a : Activity) : a.tokens = (exprIds a.exprs,
    ↑((List.range a.stmts.size).flatMap fun i =>
      (a.kind i).codeMarker.toList ++ (a.kind i).slots.map Fragment.marker) + a.storeMarkers,
    ↑((List.range a.stmts.size).flatMap fun i => (a.kind i).declares.toList)) := by
  have hsum : ∀ xs : List StmtId, (xs.map fun i => (a.kind i).tokens).sum =
      (exprIds (xs.flatMap fun i => (a.kind i).exprs),
        ↑(xs.flatMap fun i =>
          (a.kind i).codeMarker.toList ++ (a.kind i).slots.map Fragment.marker),
        ↑(xs.flatMap fun i => (a.kind i).declares.toList)) := by
    intro xs
    induction xs with
    | nil => rfl
    | cons i xs ih =>
      rw [List.map_cons, List.sum_cons, ih, StmtKind.tokens_eq]
      simp [← Multiset.coe_add, add_assoc]
  change ((List.range a.stmts.size).map fun i => (a.kind i).tokens).sum + _ = _
  rw [hsum]
  simp [Activity.exprs]

theorem tokens_fst (a : Activity) : a.tokens.1 = exprIds a.exprs := by rw [tokens_eq]

theorem initialized_addStore (a : Activity) (h : store.initialized = false) :
    (a.addStore store).initialized = a.initialized := by
  rw [initialized, stores_addStore, Array.size_push, Multiset.range_succ,
    Multiset.filter_cons_of_neg _ (by simp [h])]
  refine Multiset.filter_congr fun k hk => ?_
  rw [Array.getElem?_push, if_neg (Nat.ne_of_lt (Multiset.mem_range.1 hk))]

theorem initialized_modifyStore (a : Activity) {k : StoreId} {f : Store → Store} {st : Store}
    (hk : a.stores[k]? = some st) (hold : st.initialized = false) :
    (a.modifyStore k f).initialized =
      a.initialized + if (f st).initialized = true then {k} else 0 := by
  have hlt := (Array.getElem?_eq_some_iff.1 hk).1
  have hget : ∀ m, (a.modifyStore k f).stores[m]? =
      if k = m then a.stores[m]?.map f else a.stores[m]? := fun m => by
    simp [Activity.modifyStore, Array.getElem?_modify]
  have hsize : (a.modifyStore k f).stores.size = a.stores.size := by simp [Activity.modifyStore]
  refine Multiset.ext.2 fun m => ?_
  rw [initialized, initialized, hsize, Multiset.count_add, Multiset.count_filter,
    Multiset.count_filter, hget]
  by_cases hm : k = m
  · subst hm
    have hcount : Multiset.count k (Multiset.range a.stores.size) = 1 :=
      Multiset.count_eq_one_of_mem (Multiset.nodup_range _) (Multiset.mem_range.2 hlt)
    cases hf : (f st).initialized <;> simp [hk, hf, hold, hcount]
  · rw [if_neg hm]
    cases (f st).initialized <;> simp [Ne.symm hm]

end Activity

theorem Ioc_val_add {l m n : Nat} (hlm : l ≤ m) (hmn : m ≤ n) :
    (Ioc l m).val + (Ioc m n).val = (Ioc l n).val := by
  rw [← Ioc_union_Ioc_eq_Ioc hlm hmn, union_val,
    Multiset.add_eq_union_iff_disjoint.2]
  exact disjoint_val.2 (Ioc_disjoint_Ioc_of_le (Nat.le_refl _))

end Workflow
