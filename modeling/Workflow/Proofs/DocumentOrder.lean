import Workflow.Proofs.Matching
import Workflow.Proofs.StoreNames

/-!
# The arena is a tree in document order

The root is the first statement. Every other statement is listed once, by its parent, which comes
before it, so the walk from the root meets the statements in the order of their places and never
runs out of depth. The registered operations are the messaging statements in that order.
-/

namespace Workflow

namespace Activity

variable {a : Activity}

/-- The operations that are registered are the messaging statements in order. -/
theorem Formed.serviceOperations_eq (hf : a.Formed) (ha : a.WellBuilt) : a.serviceOperations =
      (List.range a.stmts.size).filter fun i => (a.kind i).tag = .service := by
  have hnodup : a.serviceOperations.Nodup := hf.sorted.imp fun h => Nat.ne_of_lt h
  -- both lists increase, so it is enough that they have the same members
  refine List.Perm.eq_of_pairwise (fun i j _ _ hij hji => absurd hij (Nat.lt_asymm hji)) hf.sorted
    (List.pairwise_lt_range.filter _) ?_
  refine (List.perm_ext_iff_of_nodup hnodup (List.nodup_range.filter _)).2 fun i => ?_
  rw [List.mem_filter, List.mem_range, decide_eq_true_eq]
  constructor
  · intro hmem
    rw [← ha.ordered.tag i]
    exact hf.service i hmem
  · rintro ⟨-, htag⟩
    obtain ⟨op, hop⟩ : ∃ op, a.kind i = .service op := by
      cases hk : a.kind i <;> rw [hk] at htag <;> simp [StmtKind.tag] at htag ⊢
    exact ((hf.kind i).registered op hop).1

/-- The statements are a tree that lies in the arena in document order. -/
structure InDocumentOrder (a : Activity) : Prop where
  root : a.root = 0 ∧ 0 < a.stmts.size ∧ a.parent a.root = none
  /-- A statement other than the root is listed exactly once, by a parent that comes before it. -/
  parent : ∀ i : Nat, 0 < i → i < a.stmts.size →
    ∃ m : Nat, m < i ∧ a.parent i = some m ∧ (a.kind m).children.count i = 1
  /-- What a statement lists is there and has it as its parent. -/
  children : ∀ i, ∀ m ∈ (a.kind i).children, m < a.stmts.size ∧ a.parent m = some i
  /-- The walk from the root ends by itself and goes through the arena from front to back. -/
  preorder : ∀ n, a.stmts.size ≤ n → a.preorderFrom n a.root = List.range a.stmts.size
  tag : ∀ i, a.tag i = (a.kind i).tag
  service : a.serviceOperations =
    (List.range a.stmts.size).filter fun i => (a.kind i).tag = .service

end Activity

/-- The statements of every activity that is built are a tree in document order. -/
theorem build_inDocumentOrder {ids ids' : Ids} {unit : Nat} {node : ParseNode} {a : Activity}
    (h : Activity.build ids unit node = (.ok a, ids')) : a.InDocumentOrder := by
  obtain ⟨ha, -⟩ := Activity.build_ids h
  obtain ⟨hf, -⟩ := Activity.formed_build h
  constructor
  · exact ha.root_eq
  · exact fun i hpos hi => ha.exists_parent hpos hi
  · exact fun i m hm => ⟨ha.lt_of_mem_children hm, ha.parent_of_mem_children hm⟩
  · exact fun n hn => ha.preorderFrom_root hn
  · exact ha.ordered.tag
  · exact hf.serviceOperations_eq ha

section Nested

/-- A declaration, a request that is answered at the end of a guarded region, and branches. -/
def nestedNode : ParseNode :=
  .main (.sequence [
    .variableNode "x" "int",
    { label := "try"
      members := [
        ("body", operationNode "receive" (some "order") none),
        ("finally", .sequence [operationNode "send-reply" none (some "order")])] },
    { label := "parallel"
      items := [.variableNode "y" "int", operationNode "send" none none] }])

theorem build_inDocumentOrder_nestedNode : ∃ a ids',
    Activity.build {} 0 nestedNode = (.ok a, ids') ∧ a.InDocumentOrder ∧
      a.stmts.toList.map (·.parent) =
        [none, some 0, some 1, some 1, some 3, some 0, some 5, some 5] ∧
      a.preorder = [0, 1, 2, 3, 4, 5, 6, 7] ∧ a.serviceOperations = [2, 4, 7] := by
  obtain ⟨a, ids', h, htest⟩ := nestedNode.exists_of_builds
    (P := fun a _ => a.stmts.toList.map (·.parent) =
      [none, some 0, some 1, some 1, some 3, some 0, some 5, some 5] ∧
      a.preorder = [0, 1, 2, 3, 4, 5, 6, 7] ∧ a.serviceOperations = [2, 4, 7]) (by decide +kernel)
  exact ⟨a, ids', h, build_inDocumentOrder h, htest⟩

end Nested

end Workflow
