import Mathlib.Data.List.Find
import Workflow.Proofs.Build.Tree
import Workflow.Proofs.Resolve.Jump

/-!
# What resolving the jumps of an activity does

A flowchart changes itself and its nodes, and a state machine itself and the ways out of its states.
As the statements form a tree, no two of them change the same statement, and none changes what
another one reads. So all jumps of an activity are resolved as they were built, whatever the order.
-/

namespace Workflow

open List Resolve

variable {id i m s : StmtId} {ids states : List StmtId}

namespace Activity

variable (a : Activity)

def touches (id : StmtId) : List StmtId :=
  match a.kind id with
  | .flow nodes _ => id :: nodes
  | .stateMachine states _ _ => id :: a.bodiesOfStates states
  | _ => []

def reads (id : StmtId) : List StmtId :=
  match a.kind id with
  | .flow nodes _ => id :: nodes
  | .stateMachine states _ _ =>
    id :: (states ++ (states.flatMap a.transitionsOf ++ a.bodiesOfStates states))
  | _ => []

def jumpOf (i : StmtId) : Option StmtId :=
  match a.tag i with
  | .flow | .stateMachine => some i
  | .flowStep | .flowIf | .flowSwitch => a.parent i
  | .transitionBody => ((a.parent i).bind a.parent).bind a.parent
  | _ => none

def partsAfter (ids : List StmtId) (i : StmtId) (k : StmtKind) : StmtKind :=
  ids.foldl (fun k id => a.jumpParts id i k) k

variable {a}

theorem jumpParts_of_not_mem (h : i ∉ a.touches id) (k : StmtKind) : a.jumpParts id i k = k := by
  unfold touches at h
  rw [jumpParts]
  cases hk : a.kind id
  case flow nodes start =>
    rw [hk, mem_cons, not_or] at h
    dsimp only
    rw [if_neg h.1, aimNodes_of_not_mem h.2]
  case stateMachine states start first =>
    rw [hk, mem_cons, not_or] at h
    dsimp only
    rw [if_neg h.1, aimBodies, if_neg h.2]
  all_goals rfl

theorem partsAfter_of_forall (h : ∀ id ∈ ids, i ∉ a.touches id) (k : StmtKind) :
    a.partsAfter ids i k = k := by
  unfold partsAfter
  induction ids with
  | nil => rfl
  | cons id ids ih =>
    rw [foldl_cons, jumpParts_of_not_mem (h id mem_cons_self)]
    exact ih fun id hid => h id (mem_cons_of_mem _ hid)

/-! ### The tree keeps jumps apart -/

section Tree

variable (ha : a.WellBuilt)

include ha

theorem WellBuilt.part (hm : m ∈ (a.kind i).parts.1) :
    a.tag m ∈ (a.kind i).parts.2 ∧ a.parent m = some i :=
  ⟨(ha.ordered.linked i).parts m hm,
    ha.parent_of_mem_children (StmtKind.parts_subset _ m hm)⟩

theorem WellBuilt.part_bodiesOf (hm : m ∈ a.bodiesOf t) :
    a.tag m = .transitionBody ∧ a.parent m = some t := by
  unfold bodiesOf at hm
  split at hm
  case h_1 trigger bodies hk =>
    have h := ha.part (by rw [hk]; exact hm)
    rw [hk] at h
    exact ⟨mem_singleton.1 h.1, h.2⟩
  case h_2 => cases hm

theorem WellBuilt.part_transitionsOf (ht : t ∈ a.transitionsOf s) :
    a.tag t = .transition ∧ a.parent t = some s := by
  unfold transitionsOf at ht
  split at ht
  case h_1 name isFinal entry exit transitions hk =>
    have h := ha.part (by rw [hk]; exact ht)
    rw [hk] at h
    exact ⟨mem_singleton.1 h.1, h.2⟩
  case h_2 => cases ht

theorem WellBuilt.part_states
    (hk : a.kind id = .stateMachine states start first) (hs : s ∈ states) :
    a.tag s = .state ∧ a.parent s = some id := by
  have h := ha.part (by rw [hk]; exact hs)
  rw [hk] at h
  exact ⟨mem_singleton.1 h.1, h.2⟩

theorem WellBuilt.part_nodes (hk : a.kind id = .flow nodes start) (hm : m ∈ nodes) :
    a.tag m ∈ [StmtTag.flowStep, .flowIf, .flowSwitch] ∧ a.parent m = some id := by
  have h := ha.part (by rw [hk]; exact hm)
  rwa [hk] at h

theorem WellBuilt.jumpOf_body
    (hk : a.kind id = .stateMachine states start first) (hm : m ∈ a.bodiesOfStates states) :
    a.jumpOf m = some id := by
  obtain ⟨s, hs, hm⟩ := mem_flatMap.1 hm
  obtain ⟨t, ht, hm⟩ := mem_flatMap.1 hm
  obtain ⟨htag, hparent⟩ := ha.part_bodiesOf hm
  rw [jumpOf, htag, hparent, Option.bind_some, (ha.part_transitionsOf ht).2, Option.bind_some,
    (ha.part_states hk hs).2]

/-- Every statement is changed by one flowchart or machine at most. -/
theorem WellBuilt.jumpOf_of_mem_touches (hi : i ∈ a.touches id) : a.jumpOf i = some id := by
  unfold touches at hi
  split at hi
  case h_1 nodes start hk =>
    rcases mem_cons.1 hi with rfl | hi
    · rw [jumpOf, ha.ordered.tag i, hk]
      rfl
    · obtain ⟨htag, hparent⟩ := ha.part_nodes hk hi
      rw [jumpOf, ← hparent]
      simp only [mem_cons, not_mem_nil, or_false] at htag
      rcases htag with h | h | h <;> rw [h]
  case h_2 states start first hk =>
    rcases mem_cons.1 hi with rfl | hi
    · rw [jumpOf, ha.ordered.tag i, hk]
      rfl
    · exact ha.jumpOf_body hk hi
  case h_3 => cases hi

/-- What a flowchart or a machine reads is changed by no other one. -/
theorem WellBuilt.not_mem_touches (hi : i ∈ a.reads id) (hne : id' ≠ id) : i ∉ a.touches id' := by
  intro hi'
  have howner := ha.jumpOf_of_mem_touches hi'
  have hother : a.jumpOf i = some id ∨ a.jumpOf i = none := by
    unfold reads at hi
    split at hi
    case h_1 nodes start hk =>
      refine .inl (ha.jumpOf_of_mem_touches ?_)
      rw [touches, hk]
      exact hi
    case h_2 states start first hk =>
      have htouch : i ∈ id :: a.bodiesOfStates states → a.jumpOf i = some id := fun hmem =>
        ha.jumpOf_of_mem_touches (by rw [touches, hk]; exact hmem)
      rcases mem_cons.1 hi with hi | hi
      · exact .inl (htouch (hi ▸ mem_cons_self))
      rcases mem_append.1 hi with hi | hi
      · rw [jumpOf, (ha.part_states hk hi).1]
        exact .inr rfl
      rcases mem_append.1 hi with hi | hi
      · obtain ⟨s, -, hi⟩ := mem_flatMap.1 hi
        rw [jumpOf, (ha.part_transitionsOf hi).1]
        exact .inr rfl
      · exact .inl (htouch (mem_cons_of_mem _ hi))
    case h_3 => cases hi
  rcases hother with h | h
  · exact hne (Option.some.inj (howner.symm.trans h))
  · rw [howner] at h
    cases h

/-- The parts of a statement after all jumps were resolved are those that its flowchart or machine
gives it. -/
theorem WellBuilt.partsAfter_of_mem (hnodup : ids.Nodup) (hid : id ∈ ids) (hi : i ∈ a.touches id)
    (k : StmtKind) : a.partsAfter ids i k = a.jumpParts id i k := by
  have hother : ∀ id' ≠ id, i ∉ a.touches id' := fun id' hne hi' =>
    hne (Option.some.inj ((ha.jumpOf_of_mem_touches hi').symm.trans (ha.jumpOf_of_mem_touches hi)))
  induction ids generalizing k with
  | nil => cases hid
  | cons d ids ih =>
    obtain ⟨hd, hnodup⟩ := nodup_cons.1 hnodup
    rw [partsAfter, foldl_cons]
    by_cases hne : d = id
    · subst hne
      exact partsAfter_of_forall (fun id' hid' => hother id' fun h => hd (h ▸ hid')) _
    · rw [jumpParts_of_not_mem (hother d hne)]
      exact ih hnodup ((mem_cons.1 hid).resolve_left (Ne.symm hne)) k

end Tree

/-! ### Reading the same statements -/

section Reads

variable {b : Activity}

theorem named_congr (h : ∀ m ∈ nodes, b.kind m = a.kind m) : named b nodes = named a nodes := by
  funext name
  exact find?_congr fun m hm => by rw [h m hm]

theorem isFinalState_congr (h : b.kind s = a.kind s) : isFinalState b s = isFinalState a s := by
  rw [isFinalState, isFinalState, h]

theorem isFinalState_of_tag (h : (a.kind s).tag ≠ .state) : isFinalState a s = false := by
  unfold isFinalState
  split
  case h_1 hk =>
    rw [hk] at h
    exact absurd rfl h
  case h_2 => rfl

theorem openBody_congr (h : b.kind m = a.kind m) : b.openBody m = a.openBody m := by
  rw [openBody, openBody, h]

theorem ambiguityErrors_congr (h : ∀ i, b.stmtSpan i = a.stmtSpan i) (state : String)
    (bodies : List StmtId) : b.ambiguityErrors state bodies = a.ambiguityErrors state bodies := by
  simp only [ambiguityErrors, h]

/-- A machine reads its states, their transitions and the bodies of these. -/
theorem stateErrors_congr (names : String → Option StmtId)
    (hspan : ∀ i, b.stmtSpan i = a.stmtSpan i) (hs : b.kind s = a.kind s)
    (ht : ∀ t ∈ a.transitionsOf s, b.kind t = a.kind t)
    (hm : ∀ t ∈ a.transitionsOf s, ∀ m ∈ a.bodiesOf t, b.kind m = a.kind m) :
    b.stateErrors names s = a.stateErrors names s := by
  rw [stateErrors, stateErrors, hs]
  cases hk : a.kind s
  case state name isFinal entry exit transitions =>
    rw [transitionsOf, hk] at ht hm
    have htransition : ∀ t ∈ transitions, b.untriggered t = a.untriggered t ∧
        b.transitionErrors names name t = a.transitionErrors names name t := by
      intro t hmem
      rw [untriggered, untriggered, transitionErrors, transitionErrors, ht t hmem]
      cases hkt : a.kind t
      case transition trigger bodies =>
        have hbodies := hm t hmem
        rw [bodiesOf, hkt] at hbodies
        have hopen : bodies.flatMap b.openBody = bodies.flatMap a.openBody :=
          flatMap_congr fun m hm => openBody_congr (hbodies m hm)
        have herrors : bodies.flatMap (b.bodyErrors names) =
            bodies.flatMap (a.bodyErrors names) :=
          flatMap_congr fun m hm => by rw [bodyErrors, bodyErrors, hbodies m hm]
        dsimp only
        rw [hopen, herrors, ambiguityErrors_congr hspan]
        refine ⟨?_, rfl⟩
        cases trigger with
        | none => exact hopen
        | some _ => rfl
      all_goals exact ⟨rfl, rfl⟩
    dsimp only
    rw [ambiguityErrors_congr hspan,
      flatMap_congr fun t hmem => (htransition t hmem).1,
      flatMap_congr fun t hmem => (htransition t hmem).2]
  all_goals rfl

theorem startOf_congr (h : ∀ s ∈ states, b.kind s = a.kind s) (start : Option NodeRef) :
    b.startOf states start = a.startOf states start := by
  cases start with
  | some r => rw [startOf, startOf, named_congr h]
  | none => exact find?_congr fun s hs => by rw [isFinalState_congr (h s hs)]

theorem startErrors_congr (hspan : ∀ i, b.stmtSpan i = a.stmtSpan i)
    (hfinal : isFinalState b = isFinalState a) (h : ∀ s ∈ states, b.kind s = a.kind s)
    (start : Option NodeRef) :
    b.startErrors machine states start = a.startErrors machine states start := by
  cases start with
  | none => rw [startErrors, startErrors, startOf_congr h, hspan]
  | some r => rw [startErrors, startErrors, startOf_congr h, named_congr h, hfinal]

theorem jumps_congr (hspan : ∀ i, b.stmtSpan i = a.stmtSpan i)
    (hfinal : isFinalState b = isFinalState a) (h : ∀ i ∈ a.reads id, b.kind i = a.kind i)
    (hid : id ∈ a.reads id) :
    b.jumpParts id = a.jumpParts id ∧ b.jumpErrors id = a.jumpErrors id := by
  have hkind := h id hid
  rw [jumpParts, jumpParts, jumpErrors, jumpErrors, hkind]
  unfold reads at h
  cases hk : a.kind id
  case flow nodes start =>
    rw [hk] at h
    have hnodes : ∀ m ∈ nodes, b.kind m = a.kind m := fun m hm => h m (mem_cons_of_mem _ hm)
    dsimp only
    rw [named_congr hnodes]
    exact ⟨rfl, flatMap_congr fun m hm => by rw [hnodes m hm]⟩
  case stateMachine states start first =>
    rw [hk] at h
    have hstates : ∀ s ∈ states, b.kind s = a.kind s := fun s hs =>
      h s (mem_cons_of_mem _ (mem_append_left _ hs))
    have htransitions : ∀ s ∈ states, ∀ t ∈ a.transitionsOf s, b.kind t = a.kind t :=
      fun s hs t ht => h t (mem_cons_of_mem _ (mem_append_right _
        (mem_append_left _ (mem_flatMap.2 ⟨s, hs, ht⟩))))
    have hbodies : ∀ s ∈ states, ∀ t ∈ a.transitionsOf s, ∀ m ∈ a.bodiesOf t,
        b.kind m = a.kind m := fun s hs t ht m hm =>
      h m (mem_cons_of_mem _ (mem_append_right _ (mem_append_right _
        (mem_flatMap.2 ⟨s, hs, mem_flatMap.2 ⟨t, ht, hm⟩⟩))))
    have hnamed := named_congr hstates
    have hstart := startOf_congr hstates start
    have hwhole : b.bodiesOfStates states = a.bodiesOfStates states := by
      refine flatMap_congr fun s hs => ?_
      rw [transitionsOf, hstates s hs]
      refine flatMap_congr fun t ht => ?_
      rw [bodiesOf, bodiesOf, htransitions s hs t ht]
    have herrors : states.flatMap (b.stateErrors (named a states)) =
        states.flatMap (a.stateErrors (named a states)) :=
      flatMap_congr fun s hs => stateErrors_congr _ hspan (hstates s hs)
        (htransitions s hs) (hbodies s hs)
    dsimp only
    rw [hnamed, hstart, hwhole, hfinal, herrors, hspan, startErrors_congr hspan hfinal hstates]
    exact ⟨rfl, rfl⟩
  all_goals exact ⟨rfl, rfl⟩

end Reads

/-! ### All jumps -/

theorem tag_aimFlow (names : String → Option StmtId) (next : Option StmtId) (k : StmtKind) :
    (k.aimFlow names next).tag = k.tag := by
  cases k
  case flowStep name action r _ => cases r <;> rfl
  all_goals rfl

theorem tag_aimNodes (names : String → Option StmtId) (nodes : List StmtId) (i : StmtId)
    (k : StmtKind) : (aimNodes names nodes i k).tag = k.tag := by
  induction nodes with
  | nil => rfl
  | cons id rest ih =>
    rw [aimNodes]
    split
    · exact tag_aimFlow _ _ _
    · exact ih

theorem tag_aimBodies (names : String → Option StmtId) (bodies : List StmtId) (i : StmtId)
    (k : StmtKind) : (aimBodies names bodies i k).tag = k.tag := by
  unfold aimBodies
  split
  · cases k <;> rfl
  · rfl

theorem tag_jumpParts (id i : StmtId) : (a.jumpParts id i (a.kind i)).tag = (a.kind i).tag := by
  rw [jumpParts]
  cases hk : a.kind id
  case flow nodes start =>
    dsimp only
    split
    case isTrue hi =>
      rw [hi, hk]
      rfl
    case isFalse => exact tag_aimNodes _ _ _ _
  case stateMachine states start first =>
    dsimp only
    split
    case isTrue hi =>
      rw [hi, hk]
      rfl
    case isFalse => exact tag_aimBodies _ _ _ _
  all_goals rfl

section All

variable (ha : a.WellBuilt) {ids : List StmtId} (hnodup : ids.Nodup)

include ha hnodup

/-- A statement is left as it is, or it gets its parts from one flowchart or machine. -/
theorem WellBuilt.partsAfter_cases (i : StmtId) : (∀ k, a.partsAfter ids i k = k) ∨
      ∃ id ∈ ids, i ∈ a.touches id ∧ ∀ k, a.partsAfter ids i k = a.jumpParts id i k := by
  by_cases h : ∃ id ∈ ids, i ∈ a.touches id
  · obtain ⟨id, hid, hi⟩ := h
    exact .inr ⟨id, hid, hi, ha.partsAfter_of_mem hnodup hid hi⟩
  · exact .inl (partsAfter_of_forall fun id hid hi => h ⟨id, hid, hi⟩)

theorem WellBuilt.kind_partsAfter (i : StmtId) :
    (a.rekind (a.partsAfter ids)).kind i = a.partsAfter ids i (a.kind i) := by
  by_cases hi : i < a.stmts.size
  · exact kind_rekind_of_lt hi
  · refine kind_rekind ?_
    have hempty : a.kind i = .empty := kind_eq_empty (Nat.le_of_not_lt hi)
    rcases ha.partsAfter_cases hnodup i with h | ⟨id, hid, hmem, -⟩
    · exact h .empty
    · -- every statement that is changed is in the arena
      have howner := ha.jumpOf_of_mem_touches hmem
      rw [jumpOf, ha.ordered.tag i, hempty] at howner
      cases howner

theorem WellBuilt.tag_partsAfter (i : StmtId) :
    (a.partsAfter ids i (a.kind i)).tag = (a.kind i).tag := by
  rcases ha.partsAfter_cases hnodup i with h | ⟨id, -, -, h⟩
  · rw [h]
  · rw [h, tag_jumpParts]

theorem WellBuilt.isFinalState_partsAfter :
    isFinalState (a.rekind (a.partsAfter ids)) = isFinalState a := by
  funext i
  rcases ha.partsAfter_cases hnodup i with h | ⟨id, -, hmem, -⟩
  · exact isFinalState_congr ((ha.kind_partsAfter hnodup i).trans (h _))
  · have hstate : (a.kind i).tag ≠ .state := by
      have howner := ha.jumpOf_of_mem_touches hmem
      rw [jumpOf, ha.ordered.tag i] at howner
      intro h
      rw [h] at howner
      cases howner
    rw [isFinalState_of_tag hstate, isFinalState_of_tag]
    rw [ha.kind_partsAfter hnodup, ha.tag_partsAfter hnodup]
    exact hstate

end All

end Activity

namespace Resolve

open Activity

variable {a : Activity} (ha : a.WellBuilt)

include ha

/-- One flowchart or machine is resolved as it was built, whichever were resolved before. -/
theorem rewrites_jumps (hnodup : (id :: ids).Nodup) :
    Rewrites (jumps id) (a.rekind (a.partsAfter ids)) () (a.jumpParts id) (a.jumpErrors id) := by
  obtain ⟨hid, hnodup⟩ := nodup_cons.1 hnodup
  have hread : ∀ i ∈ a.reads id, (a.rekind (a.partsAfter ids)).kind i = a.kind i := fun i hi => by
    rw [ha.kind_partsAfter hnodup]
    exact partsAfter_of_forall (fun d hd => ha.not_mem_touches hi fun h => hid (h ▸ hd)) _
  have hsame : id ∈ a.reads id →
      (a.rekind (a.partsAfter ids)).jumpParts id = a.jumpParts id ∧
      (a.rekind (a.partsAfter ids)).jumpErrors id = a.jumpErrors id :=
    jumps_congr (stmtSpan_rekind _ _) (ha.isFinalState_partsAfter hnodup) hread
  refine .bind_activity ?_
  rw [tag_rekind, ha.ordered.tag id]
  cases hk : a.kind id
  case flow nodes start =>
    have hmem : id ∈ a.reads id := by
      rw [reads, hk]
      exact mem_cons_self
    rw [← (hsame hmem).1, ← (hsame hmem).2]
    refine rewrites_flow ((hread id hmem).trans hk) ?_
    have h := ha.nodup_children id
    rwa [hk] at h
  case stateMachine states start first =>
    have hmem : id ∈ a.reads id := by
      rw [reads, hk]
      exact mem_cons_self
    rw [← (hsame hmem).1, ← (hsame hmem).2]
    exact rewrites_stateMachine ((hread id hmem).trans hk)
  all_goals
    refine (Rewrites.pure ()).cast rfl (fun i => ?_) ?_
    · rw [jumpParts, hk]
    · rw [jumpErrors, hk]

theorem rewrites_forM_jumps (done rest : List StmtId) (hnodup : (done ++ rest).Nodup) :
    Rewrites (rest.forM jumps) (a.rekind (a.partsAfter done)) () (a.partsAfter rest)
      (rest.flatMap a.jumpErrors) := by
  induction rest generalizing done with
  | nil => exact .pure ()
  | cons id rest ih =>
    have hnodup' : (done ++ [id] ++ rest).Nodup := by simpa using hnodup
    have hid : (id :: done).Nodup :=
      (perm_append_singleton id done).nodup_iff.1 (Nodup.of_append_left hnodup')
    have hmore : (a.rekind (a.partsAfter done)).rekind (a.jumpParts id) =
        a.rekind (a.partsAfter (done ++ [id])) := by
      rw [rekind_rekind]
      refine rekind_congr fun i => ?_
      rw [partsAfter, partsAfter, foldl_append]
      rfl
    have hrest := ih (done ++ [id]) hnodup'
    rw [← hmore] at hrest
    exact ((rewrites_jumps ha hid).bind hrest).cast rfl (fun _ => rfl) rfl

/-- The jumps of an activity are resolved as they were built. -/
theorem rewrites_preorder :
    Rewrites (a.preorder.forM jumps) a () (a.partsAfter (range a.stmts.size))
      ((range a.stmts.size).flatMap a.jumpErrors) := by
  rw [ha.preorder_eq]
  have h := rewrites_forM_jumps ha [] (range a.stmts.size) nodup_range
  rwa [show a.rekind (a.partsAfter []) = a from rekind_self] at h

end Resolve

end Workflow
