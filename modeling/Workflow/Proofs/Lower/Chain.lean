import Workflow.Proofs.Lower.ValueSlot
import Workflow.Proofs.Run.Statement

/-!
# Chained code

Code statements that follow each other in a sequence are chained, and each chain is lowered as one
run with its first statement. The members of a sequence that are lowered are those to which no
member is chained.
-/

namespace Workflow

open List Lower

variable {m target id : StmtId} {rest ms : List StmtId}

namespace Activity

variable (a : Activity)

def chainFragments : List StmtId → List (List CodeStmt × Option StoreId)
  | [] => []
  | m :: rest =>
    match a.kind m with
    | .code f chained initializes =>
      (f.body, initializes) :: (if chained.isSome then chainFragments rest else [])
    | _ => []

def afterChain : List StmtId → List StmtId
  | [] => []
  | m :: rest => if a.isUnchained m then rest else afterChain rest

/-- The members that start a chain; `skip` says that the first one belongs to a chain already. -/
def heads : Bool → List StmtId → List StmtId
  | _, [] => []
  | skip, m :: rest =>
    if skip then heads (!a.isUnchained m) rest else m :: heads (!a.isUnchained m) rest

def headTails : Bool → List StmtId → List (List StmtId)
  | _, [] => []
  | skip, m :: rest =>
    if skip then headTails (!a.isUnchained m) rest
    else (m :: rest) :: headTails (!a.isUnchained m) rest

def runs : List (List (List CodeStmt × Option StoreId)) :=
  a.chainFragments [a.root] :: (range a.stmts.size).flatMap fun i =>
    (a.headTails false (a.kind i).children).map a.chainFragments

/-- A statement that is not chained and is lowered on its own. -/
structure Alone (m : StmtId) : Prop where
  unchained : chainedTo a m = none
  run : a.chainFragments [m] ∈ a.runs

variable {a}

section Code

variable {m : StmtId} {rest : List StmtId} {f : CodeFragment} {chained : Option StmtId}
variable {initializes : Option StoreId}

theorem chainFragments_code (h : a.kind m = .code f chained initializes) :
    a.chainFragments (m :: rest) =
      (f.body, initializes) :: (if chained.isSome then a.chainFragments rest else []) := by
  rw [chainFragments, h]

theorem afterChain_code (h : a.kind m = .code f chained initializes) :
    a.afterChain (m :: rest) = if chained.isSome then a.afterChain rest else rest := by
  rw [afterChain, isUnchained, chainedTo, h]
  cases chained <;> rfl

end Code

theorem afterChain_sublist (ms : List StmtId) : (a.afterChain ms).Sublist ms := by
  induction ms with
  | nil => exact .slnil
  | cons m rest ih =>
    rw [afterChain]
    split
    · exact sublist_cons_self m rest
    · exact ih.cons m

theorem length_afterChain_cons (m : StmtId) (rest : List StmtId) :
    (a.afterChain (m :: rest)).length ≤ rest.length := by
  rw [afterChain]
  split
  · exact Nat.le_refl _
  · exact (afterChain_sublist rest).length_le

theorem heads_true (ms : List StmtId) : a.heads true ms = a.heads false (a.afterChain ms) := by
  induction ms with
  | nil => rfl
  | cons m rest ih =>
    rw [heads, afterChain, if_pos rfl]
    cases h : a.isUnchained m with
    | true => rfl
    | false =>
      rw [Bool.not_false, ih]
      rfl

theorem heads_cons (m : StmtId) (rest : List StmtId) :
    a.heads false (m :: rest) = m :: a.heads false (a.afterChain (m :: rest)) := by
  rw [heads, afterChain, if_neg (by decide)]
  cases h : a.isUnchained m with
  | true => rfl
  | false =>
    rw [Bool.not_false, heads_true]
    rfl

theorem chainsForward_tail (h : a.chainsForward (m :: rest) = true) :
    a.chainsForward rest = true := by
  cases rest with
  | nil => rfl
  | cons next rest =>
    rw [chainsForward, Bool.and_eq_true] at h
    exact h.2

theorem of_chainedTo (h : a.chainsForward (m :: rest) = true) (ht : chainedTo a m = some target) :
    ∃ rest', rest = target :: rest' ∧ (a.kind target).tag = .code := by
  cases rest with
  | nil => simp [chainsForward, isUnchained, ht] at h
  | cons next rest =>
    rw [chainsForward, ht, Bool.and_eq_true, Option.all_some, Bool.and_eq_true, beq_iff_eq,
      beq_iff_eq] at h
    exact ⟨rest, by rw [h.1.1], h.1.1 ▸ h.1.2⟩

theorem chainsForward_afterChain (h : a.chainsForward ms = true) :
    a.chainsForward (a.afterChain ms) = true := by
  induction ms with
  | nil => exact h
  | cons m rest ih =>
    rw [afterChain]
    split
    · exact chainsForward_tail h
    · exact ih (chainsForward_tail h)

theorem mem_tail_of_mem_targets (h : a.chainsForward ms = true)
    (ht : target ∈ ms.filterMap (chainedTo a)) : target ∈ ms.tail := by
  induction ms with
  | nil => exact ht
  | cons m rest ih =>
    obtain ⟨source, hs, hsource⟩ := mem_filterMap.1 ht
    rw [tail_cons]
    rcases mem_cons.1 hs with rfl | hs
    · obtain ⟨rest', rfl, -⟩ := of_chainedTo h hsource
      exact mem_cons_self
    · exact mem_of_mem_tail
        (ih (chainsForward_tail h) (mem_filterMap.2 ⟨source, hs, hsource⟩))

theorem tag_of_mem_targets (h : a.chainsForward ms = true)
    (ht : target ∈ ms.filterMap (chainedTo a)) : (a.kind target).tag = .code := by
  induction ms with
  | nil => cases ht
  | cons m rest ih =>
    obtain ⟨source, hs, hsource⟩ := mem_filterMap.1 ht
    rcases mem_cons.1 hs with rfl | hs
    · obtain ⟨-, -, htag⟩ := of_chainedTo h hsource
      exact htag
    · exact ih (chainsForward_tail h) (mem_filterMap.2 ⟨source, hs, hsource⟩)

/-- The members to which none is chained start the chains. Others may have been chained to, before:
the first of these members, if it is to be skipped, but none of the later ones. -/
theorem filter_eq_heads (h : a.chainsForward ms = true) (hasc : ms.Pairwise (· < ·))
    (before : List StmtId) (skip : Bool) (hhead : ∀ m ∈ ms.head?, m ∈ before ↔ skip = true)
    (htail : ∀ m ∈ ms.tail, m ∉ before) :
    ms.filter (fun m => !(before ++ ms.filterMap (chainedTo a)).contains m) = a.heads skip ms := by
  induction ms generalizing before skip with
  | nil => rfl
  | cons m rest ih =>
    obtain ⟨hlt, hasc'⟩ := pairwise_cons.1 hasc
    rw [tail_cons] at htail
    -- The targets of these members come after the first one.
    have hm : m ∉ (m :: rest).filterMap (chainedTo a) := fun hmem =>
      absurd (hlt m (mem_tail_of_mem_targets h hmem)) (Nat.lt_irrefl m)
    have hcontains : (before ++ (m :: rest).filterMap (chainedTo a)).contains m = skip := by
      rw [Bool.eq_iff_iff, contains_iff_mem, mem_append, ← hhead m rfl]
      exact ⟨fun h => h.resolve_right hm, .inl⟩
    have hsplit : before ++ (m :: rest).filterMap (chainedTo a) =
        (before ++ (chainedTo a m).toList) ++ rest.filterMap (chainedTo a) := by
      cases ht : chainedTo a m <;> simp [ht]
    have ih' := ih (chainsForward_tail h) hasc' (before ++ (chainedTo a m).toList)
      (!a.isUnchained m) (fun next hnext => ?_) (fun other hother => ?_)
    · rw [filter_cons, hcontains, hsplit, ih', heads]
      cases skip <;> rfl
    · have hnext' : next ∉ before := htail next (mem_of_mem_head? hnext)
      cases ht : chainedTo a m with
      | none => simp [hnext', isUnchained, ht]
      | some target =>
        obtain ⟨rest', rfl, -⟩ := of_chainedTo h ht
        cases hnext
        simp [isUnchained, ht]
    · rw [mem_append, not_or]
      refine ⟨htail other (mem_of_mem_tail hother), fun hmem => ?_⟩
      cases ht : chainedTo a m with
      | none => simp [ht] at hmem
      | some target =>
        obtain ⟨rest', rfl, -⟩ := of_chainedTo h ht
        rw [ht, Option.toList_some, mem_singleton] at hmem
        exact absurd ((pairwise_cons.1 hasc').1 other hother) (hmem ▸ Nat.lt_irrefl other)

theorem kind_eq_empty (h : a.stmts.size ≤ id) : a.kind id = .empty := by
  rw [kind, Array.getElem?_eq_none h]

theorem headTails_true (ms : List StmtId) :
    a.headTails true ms = a.headTails false (a.afterChain ms) := by
  induction ms with
  | nil => rfl
  | cons m rest ih =>
    rw [headTails, if_pos rfl, afterChain]
    cases hm : a.isUnchained m with
    | true => rfl
    | false => exact ih

theorem headTails_cons (m : StmtId) (rest : List StmtId) : a.headTails false (m :: rest) =
      (m :: rest) :: a.headTails false (a.afterChain (m :: rest)) := by
  rw [headTails, if_neg Bool.false_ne_true, afterChain]
  cases hm : a.isUnchained m with
  | true => rfl
  | false => exact congrArg _ (headTails_true rest)

theorem isUnchained_of_chainedTo (h : chainedTo a m = none) : a.isUnchained m = true := by
  rw [isUnchained, h]
  rfl

theorem chainFragments_of_unchained (h : ∀ m ∈ ms, chainedTo a m = none) :
    ∀ m ∈ ms, ∃ t ∈ a.headTails false ms, a.chainFragments t = a.chainFragments [m] := by
  induction ms with
  | nil => simp
  | cons m rest ih =>
    obtain ⟨hm, hrest⟩ := forall_mem_cons.1 h
    have hafter : a.afterChain (m :: rest) = rest := by
      rw [afterChain, if_pos (isUnchained_of_chainedTo hm)]
    rw [headTails_cons, hafter]
    intro m' hm'
    rcases mem_cons.1 hm' with rfl | hm'
    · refine ⟨_, mem_cons_self, ?_⟩
      rw [chainFragments, chainFragments]
      rw [chainedTo] at hm
      split
      · next f chained init hk =>
        rw [hk] at hm
        rw [show chained = none from hm]
        rfl
      · rfl
    · obtain ⟨t, ht, hfragments⟩ := ih hrest m' hm'
      exact ⟨t, mem_cons_of_mem _ ht, hfragments⟩

theorem mem_flatMap_kind {β : Type} {f : StmtKind → List β} (hempty : f .empty = []) {x : β}
    (h : x ∈ f (a.kind id)) : x ∈ (range a.stmts.size).flatMap fun i => f (a.kind i) := by
  by_cases hid : id < a.stmts.size
  · exact mem_flatMap.2 ⟨id, mem_range.2 hid, h⟩
  · rw [kind_eq_empty (Nat.le_of_not_lt hid), hempty] at h
    cases h

theorem chainFragments_mem_runs
    (ht : t ∈ a.headTails false (a.kind id).children) : a.chainFragments t ∈ a.runs :=
  mem_cons_of_mem _ (mem_flatMap_kind
    (f := fun k => (a.headTails false k.children).map a.chainFragments) rfl
    (mem_map_of_mem ht))

/-- What is inside a statement that chains nothing is lowered on its own. -/
theorem alone_of_unchained (h : ∀ m ∈ (a.kind id).children, chainedTo a m = none) :
    ∀ m ∈ (a.kind id).children, a.Alone m := by
  intro m hm
  obtain ⟨t, ht, hfragments⟩ := chainFragments_of_unchained h m hm
  exact ⟨h m hm, hfragments ▸ chainFragments_mem_runs ht⟩

theorem mem_chainFragments (hp : p ∈ a.chainFragments ms) :
    ∃ i f next init, a.kind i = .code f next init ∧ p = (f.body, init) := by
  fun_induction Activity.chainFragments a ms with
  | case1 => cases hp
  | case2 m rest f chained init hk ih =>
    rcases mem_cons.1 hp with rfl | hp
    · exact ⟨m, f, chained, init, hk, rfl⟩
    · split at hp
      case isTrue => exact ih hp
      case isFalse => cases hp
  | case3 => cases hp

theorem mem_runs (hfs : fs ∈ a.runs) :
    ∀ p ∈ fs, ∃ i f next init, a.kind i = .code f next init ∧ p = (f.body, init) := by
  intro p hp
  rcases mem_cons.1 hfs with rfl | hfs
  · exact mem_chainFragments hp
  · obtain ⟨i, -, hi⟩ := mem_flatMap.1 hfs
    obtain ⟨t, -, rfl⟩ := mem_map.1 hi
    exact mem_chainFragments hp

end Activity

namespace Lower

variable {site : Site}

/-- A chain is staged as the fragments of its members. -/
theorem codeChain_eq (h : site.context.activity.chainsForward (m :: rest) = true)
    (hasc : (m :: rest).Pairwise (· < ·)) (hn : site.context.activity.stmts.size - m ≤ n) :
    codeChain site n m =
      Stage.fragments site (site.context.activity.chainFragments (m :: rest)) := by
  induction n generalizing m rest with
  | zero =>
    rw [codeChain, Activity.chainFragments, Activity.kind_eq_empty (by omega)]
    rfl
  | succ n ih =>
    rw [codeChain, Activity.chainFragments]
    cases hkind : site.context.activity.kind m
    case code f chained initializes =>
      cases hchained : chained with
      | none => rfl
      | some target =>
        have ht : chainedTo site.context.activity m = some target := by
          rw [chainedTo, hkind, hchained]
        obtain ⟨rest', rfl, -⟩ := Activity.of_chainedTo h ht
        obtain ⟨hlt, hasc'⟩ := pairwise_cons.1 hasc
        have hm : @LT.lt Nat _ m target := hlt target mem_cons_self
        have ih' := ih (Activity.chainsForward_tail h) hasc' (by omega)
        simp only [Option.isSome_some, if_true, Stage.fragments, ih']
    all_goals rfl

end Lower

end Workflow
