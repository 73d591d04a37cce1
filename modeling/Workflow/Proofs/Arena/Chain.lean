import Mathlib.Logic.Relation
import Workflow.Activity.Basic

/-!
# Arenas of statements

What the operations on an activity do to its statements and stores. Parents come before their
children, so the chain of parents from a statement is as long as it has to be. A host sees another
one if the stores of the other are visible from it.
-/

namespace Workflow

variable {f : Stmt → Stmt}

namespace Activity

variable {a b : Activity} {i j k : Nat}

/-- The statement `i` is the statement `j` or lies inside it. -/
def Within (a : Activity) : StmtId → StmtId → Prop :=
  Relation.ReflTransGen fun i j => a.parent i = some j

def ParentsFirst (a : Activity) : Prop := ∀ ⦃i j : Nat⦄, a.parent i = some j → j < i

/-- The stores of the second host are visible from the first. -/
def Sees (a : Activity) : StoreHost → StoreHost → Prop
  | _, .activity => True
  | .statement i, .statement j => a.Within i j
  | .activity, .statement _ => False

def storesAt (a : Activity) : StoreHost → List StoreId
  | .activity => a.activityStores
  | .statement id => a.storesOf id

def hosts (a : Activity) : StoreHost → List StoreHost
  | .activity => [.activity]
  | .statement id => (a.selfAndAncestors id).map .statement ++ [.activity]

theorem visible_eq (a : Activity) (h : StoreHost) : a.visible h = (a.hosts h).map a.storesAt := by
  cases h with
  | activity => rfl
  | statement id =>
    simp only [visible, hosts, List.map_append, List.map_map, List.map_cons, List.map_nil]
    rfl

section Within

theorem Within.le (ha : a.ParentsFirst) (h : a.Within i j) : j ≤ i := by
  induction h with
  | refl => exact Nat.le_refl _
  | tail _ hjk ih => exact Nat.le_trans (Nat.le_of_lt (ha hjk)) ih

theorem Within.trans (h : a.Within i j) (h' : a.Within j k) : a.Within i k :=
  Relation.ReflTransGen.trans h h'

theorem within_refl (a : Activity) (i : StmtId) : a.Within i i := .refl

/-- Of two statements around one statement, one lies inside the other. -/
theorem Within.total (h : a.Within i j) (h' : a.Within i k) : a.Within j k ∨ a.Within k j :=
  Relation.ReflTransGen.total_of_right_unique
    (fun _ _ _ hb hc => Option.some.inj (hb.symm.trans hc)) h h'

theorem within_iff : a.Within i k ↔ i = k ∨ ∃ j, a.parent i = some j ∧ a.Within j k :=
  Relation.ReflTransGen.cases_head_iff

/-- Only the parents of a statement and of those before it matter. -/
theorem Within.congr (ha : a.ParentsFirst) {n : Nat} (hab : ∀ m < n, b.parent m = a.parent m)
    (hi : i < n) : b.Within i j ↔ a.Within i j := by
  induction i using Nat.strongRecOn with
  | _ i ih =>
    rw [within_iff, within_iff, hab i hi]
    refine or_congr_right (exists_congr fun m => and_congr_right fun hm => ?_)
    exact ih m (ha hm) (Nat.lt_trans (ha hm) hi)

/-- A chain that is long enough holds everything around a statement. -/
theorem mem_chain (ha : a.ParentsFirst) (hi : i < n) : j ∈ a.chain n (some i) ↔ a.Within i j := by
  induction n generalizing i with
  | zero => cases hi
  | succ n ih =>
    rw [within_iff, chain, List.mem_cons]
    refine or_congr eq_comm ?_
    cases hp : a.parent i with
    | none =>
      have hnil : a.chain n none = [] := by cases n <;> rfl
      simp [hnil]
    | some p =>
      have hlt : p < n := Nat.lt_of_lt_of_le (ha hp) (Nat.le_of_lt_succ hi)
      simp [ih hlt]

theorem lt_size_of_parent (h : a.parent i = some j) : i < a.stmts.size := by
  refine Nat.lt_of_not_le fun hle => ?_
  rw [parent, Array.getElem?_eq_none hle] at h
  cases h

theorem mem_selfAndAncestors (ha : a.ParentsFirst) : j ∈ a.selfAndAncestors i ↔ a.Within i j := by
  rw [selfAndAncestors, List.mem_cons, within_iff, ancestors]
  refine or_congr eq_comm ?_
  cases hp : a.parent i with
  | none =>
    have hnil : a.chain a.stmts.size none = [] := by cases a.stmts.size <;> rfl
    simp [hnil]
  | some p =>
    have hlt : p < a.stmts.size := Nat.lt_trans (ha hp) (lt_size_of_parent hp)
    simp [mem_chain ha hlt]

theorem mem_hosts (ha : a.ParentsFirst) : h' ∈ a.hosts h ↔ a.Sees h h' := by
  cases h <;> cases h' <;> simp [hosts, Sees, mem_selfAndAncestors ha]

end Within

section Sees

variable {h h' h'' : StoreHost}

theorem sees_refl (a : Activity) (h : StoreHost) : a.Sees h h := by
  cases h with
  | activity => trivial
  | statement i => exact within_refl a i

theorem Sees.trans (hs : a.Sees h h') (hs' : a.Sees h' h'') : a.Sees h h'' := by
  cases h'' with
  | activity => cases h <;> trivial
  | statement k =>
    cases h' with
    | activity => exact hs'.elim
    | statement j =>
      cases h with
      | activity => exact hs.elim
      | statement i => exact Within.trans hs hs'

/-- Of two hosts that are seen from one, one sees the other. -/
theorem Sees.total (hs : a.Sees h h') (hs' : a.Sees h h'') : a.Sees h' h'' ∨ a.Sees h'' h' := by
  cases h' with
  | activity =>
    right
    cases h'' <;> trivial
  | statement j =>
    cases h'' with
    | activity => exact .inl trivial
    | statement k =>
      cases h with
      | activity => exact hs.elim
      | statement i => exact Within.total hs hs'

theorem sees_storeHost (ha : a.ParentsFirst) (i : StmtId) :
    a.Sees (.statement i) (a.storeHost i) := by
  unfold storeHost
  split
  case h_1 s hs => exact (mem_selfAndAncestors ha).1 (List.mem_of_find?_eq_some hs)
  case h_2 => trivial

end Sees

/-! ### Operations -/

section Operations

variable (a : Activity)

theorem size_modifyStmt (id : StmtId) (f : Stmt → Stmt) :
    (a.modifyStmt id f).stmts.size = a.stmts.size := by
  simp [modifyStmt]

theorem getElem?_modifyStmt (id : StmtId) (f : Stmt → Stmt) (i : StmtId) :
    (a.modifyStmt id f).stmts[i]? = if id = i then a.stmts[i]?.map f else a.stmts[i]? := by
  simp [modifyStmt, Array.getElem?_modify]

theorem parent_modifyStmt (id : StmtId) (hf : ∀ s, (f s).parent = s.parent) (i : StmtId) :
    (a.modifyStmt id f).parent i = a.parent i := by
  rw [parent, parent, getElem?_modifyStmt]
  by_cases h : id = i <;> cases a.stmts[i]? <;> simp [h, hf]

theorem tag_modifyStmt (id : StmtId) (hf : ∀ s, (f s).tag = s.tag) (i : StmtId) :
    (a.modifyStmt id f).tag i = a.tag i := by
  rw [tag, tag, getElem?_modifyStmt]
  by_cases h : id = i <;> cases a.stmts[i]? <;> simp [h, hf]

theorem kind_modifyStmt (id : StmtId) (hf : ∀ s, (f s).kind = s.kind) (i : StmtId) :
    (a.modifyStmt id f).kind i = a.kind i := by
  rw [kind, kind, getElem?_modifyStmt]
  by_cases h : id = i <;> cases a.stmts[i]? <;> simp [h, hf]

theorem storesOf_modifyStmt (id : StmtId) (hf : ∀ s, (f s).stores = s.stores) (i : StmtId) :
    (a.modifyStmt id f).storesOf i = a.storesOf i := by
  rw [storesOf, storesOf, getElem?_modifyStmt]
  by_cases h : id = i <;> cases a.stmts[i]? <;> simp [h, hf]

theorem stmtSpan_modifyStmt (id : StmtId) (hf : ∀ s, (f s).span = s.span) (i : StmtId) :
    (a.modifyStmt id f).stmtSpan i = a.stmtSpan i := by
  rw [stmtSpan, stmtSpan, getElem?_modifyStmt]
  by_cases h : id = i <;> cases a.stmts[i]? <;> simp [h, hf]

variable (id : StmtId) (k : StmtKind)

@[simp]
theorem size_setKind : (a.setKind id k).stmts.size = a.stmts.size := size_modifyStmt a id _

@[simp]
theorem parent_setKind (i : StmtId) : (a.setKind id k).parent i = a.parent i :=
  parent_modifyStmt a id (by simp) i

@[simp]
theorem tag_setKind (i : StmtId) : (a.setKind id k).tag i = a.tag i :=
  tag_modifyStmt a id (by simp) i

@[simp]
theorem stmtSpan_setKind (i : StmtId) : (a.setKind id k).stmtSpan i = a.stmtSpan i :=
  stmtSpan_modifyStmt a id (by simp) i

@[simp]
theorem storesOf_setKind (i : StmtId) : (a.setKind id k).storesOf i = a.storesOf i :=
  storesOf_modifyStmt a id (by simp) i

@[simp]
theorem stores_setKind : (a.setKind id k).stores = a.stores := rfl

@[simp]
theorem activityStores_setKind : (a.setKind id k).activityStores = a.activityStores := rfl

theorem kind_setKind_self (h : id < a.stmts.size) : (a.setKind id k).kind id = k := by
  rw [kind, setKind, getElem?_modifyStmt, if_pos rfl, Array.getElem?_eq_getElem h]
  rfl

theorem kind_setKind_of_ne {i : StmtId} (h : i ≠ id) : (a.setKind id k).kind i = a.kind i := by
  rw [kind, kind, setKind, getElem?_modifyStmt, if_neg h.symm]

variable (tag' : StmtTag) (p : Option StmtId) (span : Span)

@[simp]
theorem size_alloc : (a.alloc tag' p span).2.stmts.size = a.stmts.size + 1 := by
  simp [alloc]

theorem getElem?_alloc_of_lt {i : StmtId} (h : i < a.stmts.size) :
    (a.alloc tag' p span).2.stmts[i]? = a.stmts[i]? := by
  simp [alloc, Array.getElem?_push, Nat.ne_of_lt h]

theorem getElem?_alloc_self : (a.alloc tag' p span).2.stmts[a.stmts.size]? =
      some { parent := p, span := span, tag := tag' } := by
  simp [alloc]

end Operations

end Activity

end Workflow
