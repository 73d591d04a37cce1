import Workflow.Proofs.Arena.Fragments

/-!
# Numbered and attributed code

Every fragment and every code statement is numbered when it is built, in the order of the walk and
with nothing in between, and it is attributed to the unit that is built. The stores that a statement
refers to are declared before its parts are filled in.
-/

namespace Workflow

open CodeStmt

def Consecutive (es : List Expr) : Prop := ∃ last, es.map Expr.id = idsAfter last es

namespace Consecutive

theorem nil : Consecutive [] := ⟨0, rfl⟩

theorem of_map (h : es.map Expr.id = idsAfter last fs) : Consecutive es := by
  have hlen : es.length = fs.length := by simpa [idsAfter] using congrArg List.length h
  exact ⟨last, by rw [h, idsAfter, idsAfter, hlen]⟩

theorem isSome_id (h : Consecutive es) (he : e ∈ es) : e.id.isSome = true := by
  obtain ⟨last, hids⟩ := h
  have hmem : e.id ∈ idsAfter last es := hids ▸ List.mem_map_of_mem he
  obtain ⟨n, -, hn⟩ := List.mem_map.1 hmem
  rw [← hn, Option.isSome_some]

theorem number (last unit : Nat) (e : Expr) : Consecutive ((e.number last).1.inUnit unit).nodes := by
  obtain ⟨hids, -, -⟩ := e.numbered last
  rw [← ids_of_origins (Expr.origins_inUnit unit _)] at hids
  exact .of_map hids

theorem numberList (last unit : Nat) (body : List CodeStmt) : Consecutive (nodesList
      (inUnitList unit (numberList last body).1)) := by
  obtain ⟨hids, -, -⟩ := numberedList last body
  rw [← ids_of_origins (origins_inUnitList unit _)] at hids
  exact .of_map hids

end Consecutive

namespace Fragment

def IsNumbered (f : Fragment) : Prop := Consecutive f.expr.nodes

/-- The fragment and its expressions are at certain places. -/
structure Placed (P : Span → Prop) (f : Fragment) : Prop where
  span : P f.span
  nodes : ∀ e ∈ f.expr.nodes, P e.span

/-- The fragment is as it is built for a unit. -/
structure IsPrepared (unit : Nat) (f : Fragment) : Prop extends Placed (·.unit = unit) f where
  numbered : f.IsNumbered

end Fragment

namespace StmtKind

def refs : StmtKind → List NodeRef
  | .stateMachine _ start _ => start.toList
  | .transitionBody _ _ target => [target]
  | .flowStep _ _ next _ => next.toList
  | .flowIf _ _ onTrue onFalse => onTrue.toList ++ onFalse.toList
  | .flowSwitch _ _ cases fallback => cases.map (·.target) ++ fallback.toList
  | _ => []

/-- The code of a statement and each of its value slots is numbered in one go. -/
structure IsNumbered (k : StmtKind) : Prop where
  body : Consecutive (nodesList k.body)
  slots : ∀ f ∈ k.slots, f.IsNumbered

/-- The parts are numbered, and the stores they refer to are among the first `n`. -/
structure IsFilled (k : StmtKind) (n : Nat) : Prop extends IsNumbered k where
  stores : ∀ i ∈ k.storeRefs, i < n

/-- All that the parts hold is at certain places. -/
structure Placed (P : Span → Prop) (k : StmtKind) : Prop where
  body : ∀ e ∈ nodesList k.body, P e.span
  slots : ∀ f ∈ k.slots, f.Placed P
  refs : ∀ r ∈ k.refs, P r.span

end StmtKind

namespace Activity

def IsNumbered (a : Activity) : Prop := ∀ i, (a.kind i).IsNumbered

/-- The parts of all statements are filled in well, and the result is a store. -/
structure IsFilled (a : Activity) : Prop where
  kind : ∀ i, (a.kind i).IsFilled a.stores.size
  result : ∀ k ∈ a.result, k < a.stores.size

theorem IsFilled.isNumbered {a : Activity} (h : a.IsFilled) : a.IsNumbered := fun i =>
  (h.kind i).toIsNumbered

/-- All statements and stores of the activity are at certain places. -/
structure Placed (P : Span → Prop) (a : Activity) : Prop where
  stmts : ∀ i < a.stmts.size, P (a.stmtSpan i)
  kind : ∀ i, (a.kind i).Placed P
  stores : ∀ (k : StoreId) st, a.stores[k]? = some st → P st.span

end Activity

/-- No number was taken back. -/
structure Ids.Le (ids ids' : Ids) : Prop where
  markers : ids.markers ≤ ids'.markers
  exprs : ids.exprs ≤ ids'.exprs

theorem Ids.Le.refl (ids : Ids) : ids.Le ids := ⟨Nat.le_refl _, Nat.le_refl _⟩

theorem Ids.Le.trans {i j k : Ids} (h : i.Le j) (h' : j.Le k) : i.Le k :=
  ⟨Nat.le_trans h.markers h'.markers, Nat.le_trans h.exprs h'.exprs⟩

end Workflow
