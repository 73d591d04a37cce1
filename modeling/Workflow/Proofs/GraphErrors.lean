import Workflow.Proofs.Matching
import Workflow.Proofs.WellFormed

/-!
# Bad graphs are reported, and no others

Resolution reports an error about jumps exactly if a reference of a flowchart names no node of it, or
a state machine has no final state, starts nowhere, leads nowhere or has two ways out that are open
at once. Each of several such ways is reported once.
-/

namespace Workflow

open List Resolve Activity Option

variable {bodies : List StmtId} {i : StmtId} {name : String} {names : String → Option StmtId}

namespace Activity

variable {a : Activity} {g g' s t b m m' : StmtId} {states nodes : List StmtId}
  {start : Option NodeRef} {first : Option StmtId}

/-- A way out without a condition, of a transition with a trigger, or of a state by a transition
without one. -/
inductive Opens (a : Activity) : StmtId → StmtId → Prop
  | triggered {t b trigger : StmtId} {bodies : List StmtId} {action : Option StmtId}
    {target : NodeRef} (transition : a.kind t = .transition (some trigger) bodies)
    (mem : b ∈ bodies) (body : a.kind b = .transitionBody none action target) : Opens a t b
  | untriggered {s t b : StmtId} {bodies : List StmtId} {action : Option StmtId}
    {target : NodeRef} (state : t ∈ a.transitionsOf s)
    (transition : a.kind t = .transition none bodies) (mem : b ∈ bodies)
    (body : a.kind b = .transitionBody none action target) : Opens a s b

/-- What the flowcharts and state machines of an activity have to be like. -/
structure GoodGraphs (a : Activity) : Prop where
  flow : ∀ i nodes start, a.kind i = .flow nodes start →
    ∀ m ∈ nodes, ∀ r ∈ (a.kind m).flowRefs, r.name ∈ a.nodeNames nodes
  final : ∀ i states start first, a.kind i = .stateMachine states start first →
    ∃ s ∈ states, isFinalState a s = true
  start : ∀ i states start first, a.kind i = .stateMachine states start first →
    ∃ s ∈ states, isFinalState a s = false ∧
      ∀ r ∈ start, (a.kind s).nodeName = some r.name
  target : ∀ i states start first, a.kind i = .stateMachine states start first →
    ∀ b ∈ a.bodiesOfStates states, ∀ condition action r,
      a.kind b = .transitionBody condition action r → r.name ∈ a.nodeNames states
  single : ∀ g b b', a.Opens g b → a.Opens g b' → b = b'

/-- The name of the state that a transition body leads out of. -/
def stateAround (a : Activity) (b : StmtId) : String :=
  (((a.parent b).bind a.parent).bind fun s => (a.kind s).nodeName).getD ""

def openError (a : Activity) (b : StmtId) : CompileError :=
  (Cause.transitionConditionRequired (a.stateAround b)).error (a.stmtSpan b)

/-! ### Ways out that are open at once -/

def group (a : Activity) (g : StmtId) : List StmtId :=
  match a.kind g with
  | .transition (some _) bodies => bodies.flatMap a.openBody
  | .state _ _ _ _ transitions => transitions.flatMap a.untriggered
  | _ => []

theorem mem_openBody :
    m ∈ a.openBody b ↔ m = b ∧ ∃ action r, a.kind b = .transitionBody none action r := by
  unfold openBody
  split
  next action r hk => simp [hk]
  next hother =>
    simp only [not_mem_nil, false_iff]
    rintro ⟨_, _, _, hk⟩
    exact hother _ _ hk

theorem mem_bodiesOf_of_untriggered (hb : b ∈ a.untriggered t) : b ∈ a.bodiesOf t := by
  unfold untriggered at hb
  split at hb
  case h_1 bodies hk =>
    obtain ⟨m, hm, hb⟩ := mem_flatMap.1 hb
    rw [(mem_openBody.1 hb).1]
    exact mem_bodiesOf.2 ⟨_, _, hk, hm⟩
  case h_2 => cases hb

theorem mem_group : b ∈ a.group g ↔ a.Opens g b := by
  constructor
  · intro hb
    unfold group at hb
    split at hb
    case h_1 trigger bodies hk =>
      obtain ⟨m, hm, hb⟩ := mem_flatMap.1 hb
      obtain ⟨rfl, action, r, hbody⟩ := mem_openBody.1 hb
      exact .triggered hk hm hbody
    case h_2 name isFinal entry exit transitions hk =>
      obtain ⟨t, ht, hb⟩ := mem_flatMap.1 hb
      unfold untriggered at hb
      split at hb
      case h_1 bodies hkt =>
        obtain ⟨m, hm, hb⟩ := mem_flatMap.1 hb
        obtain ⟨rfl, action, r, hbody⟩ := mem_openBody.1 hb
        exact .untriggered (mem_transitionsOf.2 ⟨_, _, _, _, _, hk, ht⟩) hkt hm hbody
      case h_2 => cases hb
    case h_3 => cases hb
  · rintro (⟨hk, hm, hbody⟩ | ⟨ht, hkt, hm, hbody⟩)
    · rw [group, hk]
      exact mem_flatMap.2 ⟨b, hm, mem_openBody.2 ⟨rfl, _, _, hbody⟩⟩
    · obtain ⟨name, isFinal, entry, exit, ts, hk, ht⟩ := mem_transitionsOf.1 ht
      rw [group, hk]
      refine mem_flatMap.2 ⟨_, ht, ?_⟩
      rw [untriggered, hkt]
      exact mem_flatMap.2 ⟨b, hm, mem_openBody.2 ⟨rfl, _, _, hbody⟩⟩

theorem nodup_flatMap_of_unique {f : StmtId → List StmtId} {xs : List StmtId} (hxs : xs.Nodup)
    (hf : ∀ x ∈ xs, (f x).Nodup) (h : ∀ x ∈ xs, ∀ x' ∈ xs, ∀ y ∈ f x, y ∈ f x' → x = x') :
    (xs.flatMap f).Nodup :=
  nodup_flatMap.2 ⟨hf, hxs.pairwise_of_forall_ne fun x hx x' hx' hne y hy hy' =>
    hne (h x hx x' hx' y hy hy')⟩

/-- All of a list of several, and nothing of a shorter one. -/
def crowd (bodies : List StmtId) : List StmtId := if 2 ≤ bodies.length then bodies else []

theorem mem_crowd (h : bodies.Nodup) : b ∈ crowd bodies ↔ b ∈ bodies ∧ ∃ b' ∈ bodies, b' ≠ b := by
  match bodies, h with
  | [], _ => simp [crowd]
  | [x], _ => simp +contextual [crowd, eq_comm]
  | x :: y :: rest, h =>
    rw [crowd, if_pos (by simp)]
    refine ⟨fun hb => ⟨hb, ?_⟩, And.left⟩
    by_cases hx : x = b
    · exact ⟨y, by simp, fun hy => by simp [hx, hy] at h⟩
    · exact ⟨x, by simp, hx⟩

theorem ambiguityErrors_eq (name : String) (bodies : List StmtId) : a.ambiguityErrors name bodies =
      (crowd bodies).map fun b => (Cause.transitionConditionRequired name).error (a.stmtSpan b) := by
  unfold ambiguityErrors crowd
  split <;> rfl

theorem filter_missing (names : String → Option StmtId) (r : NodeRef) :
    (r.missing names).filter (·.cause.code == "W024") = [] := by
  unfold NodeRef.missing
  split <;> rfl

theorem filter_bodyErrors (names : String → Option StmtId) (bodies : List StmtId) :
    (bodies.flatMap (a.bodyErrors names)).filter (·.cause.code == "W024") = [] := by
  rw [filter_flatMap, flatMap_eq_nil_iff]
  intro b _
  unfold bodyErrors
  split
  · exact filter_missing _ _
  · rfl

theorem filter_startErrors (i : StmtId) (states : List StmtId) (start : Option NodeRef) :
    (a.startErrors i states start).filter (·.cause.code == "W024") = [] := by
  cases start with
  | none =>
    rw [startErrors]
    split <;> rfl
  | some r =>
    rw [startErrors, filter_append, filter_missing]
    split <;> rfl

/-- The errors of the ways out of a transition, and of those that are open at once. -/
def groupErrors (a : Activity) (names : String → Option StmtId) (g : StmtId) : List CompileError :=
  (a.bodiesOf g).flatMap (a.bodyErrors names) ++ (crowd (a.group g)).map a.openError

theorem filter_groupErrors (names : String → Option StmtId) (g : StmtId) :
    (a.groupErrors names g).filter (·.cause.code == "W024") =
      (crowd (a.group g)).map a.openError := by
  rw [groupErrors, filter_append, filter_bodyErrors, nil_append]
  exact filter_eq_self.2 (forall_mem_map.2 fun _ _ => rfl)

def statesOf (a : Activity) (i : StmtId) : List StmtId :=
  match a.kind i with
  | .stateMachine states _ _ => states
  | _ => []

/-- The states of the machines, each after its transitions. -/
def groups (a : Activity) : List StmtId :=
  (range a.stmts.size).flatMap fun i =>
    (a.statesOf i).flatMap fun s => a.transitionsOf s ++ [s]

/-- The ways out that are open together with another one. -/
def crowded (a : Activity) : List StmtId := a.groups.flatMap fun g => crowd (a.group g)

section Tree

variable (ha : a.WellBuilt)

include ha

theorem WellBuilt.part_statesOf (hs : s ∈ a.statesOf i) :
    a.tag s = .state ∧ a.parent s = some i := by
  unfold statesOf at hs
  split at hs
  case h_1 hk => exact ha.part_states hk hs
  case h_2 => cases hs

theorem WellBuilt.parent_of_opens (h : a.Opens g b) : ∃ t trigger bodies, a.parent b = some t ∧
    a.kind t = .transition trigger bodies ∧
    (trigger.isSome = true ∧ t = g ∨ trigger = none ∧ t ∈ a.transitionsOf g) := by
  cases h with
  | triggered hk hm =>
    exact ⟨g, _, _, (ha.part_bodiesOf (mem_bodiesOf.2 ⟨_, _, hk, hm⟩)).2, hk, .inl ⟨rfl, rfl⟩⟩
  | untriggered ht hk hm =>
    exact ⟨_, _, _, (ha.part_bodiesOf (mem_bodiesOf.2 ⟨_, _, hk, hm⟩)).2, hk, .inr ⟨rfl, ht⟩⟩

/-- A way out is open at one place only. -/
theorem WellBuilt.eq_of_opens (h : a.Opens g b) (h' : a.Opens g' b) : g = g' := by
  obtain ⟨t, trigger, bodies, hb, hk, hg⟩ := ha.parent_of_opens h
  obtain ⟨t', trigger', bodies', hb', hk', hg'⟩ := ha.parent_of_opens h'
  obtain rfl := some.inj (hb.symm.trans hb')
  obtain ⟨rfl, -⟩ := StmtKind.transition.inj (hk.symm.trans hk')
  rcases hg with ⟨htrigger, rfl⟩ | ⟨rfl, ht⟩ <;> rcases hg' with ⟨htrigger', rfl⟩ | ⟨hnone, ht'⟩
  · rfl
  · rw [hnone] at htrigger
    cases htrigger
  · cases htrigger'
  · exact some.inj ((ha.part_transitionsOf ht).2.symm.trans (ha.part_transitionsOf ht').2)

theorem WellBuilt.nodup_open {trigger : Option StmtId}
    (hk : a.kind t = .transition trigger bodies) : (bodies.flatMap a.openBody).Nodup := by
  have hbodies := ha.nodup_children t
  rw [hk] at hbodies
  refine nodup_flatMap_of_unique hbodies.of_append_right (fun b _ => ?_) fun b _ b' _ m hm hm' => ?_
  · unfold openBody
    split <;> simp
  · exact (mem_openBody.1 hm).1.symm.trans (mem_openBody.1 hm').1

theorem WellBuilt.nodup_transitionsOf (s : StmtId) : (a.transitionsOf s).Nodup := by
  have hnodup := ha.nodup_children s
  unfold transitionsOf
  split
  case h_1 hk =>
    rw [hk] at hnodup
    exact hnodup.of_append_right
  case h_2 => exact .nil

theorem WellBuilt.nodup_group (g : StmtId) : (a.group g).Nodup := by
  unfold group
  split
  case h_1 hk => exact ha.nodup_open hk
  case h_2 name isFinal entry exit transitions hk =>
    have htransitions := ha.nodup_transitionsOf g
    rw [transitionsOf, hk] at htransitions
    refine nodup_flatMap_of_unique htransitions (fun t _ => ?_) fun t _ t' _ b hb hb' => ?_
    · unfold untriggered
      split
      case h_1 hk => exact ha.nodup_open hk
      case h_2 => exact .nil
    · exact some.inj ((ha.part_bodiesOf (mem_bodiesOf_of_untriggered hb)).2.symm.trans
        (ha.part_bodiesOf (mem_bodiesOf_of_untriggered hb')).2)
  case h_3 => exact .nil

theorem WellBuilt.nodup_groups : a.groups.Nodup := by
  have hstates : ∀ i, (a.statesOf i).Nodup := by
    intro i
    have hnodup := ha.nodup_children i
    unfold statesOf
    split
    case h_1 hk => rwa [hk] at hnodup
    case h_2 => exact .nil
  -- a state is told from a transition by its tag, and each leads to its machine
  have hstate : ∀ i, ∀ s ∈ a.statesOf i, ∀ g ∈ a.transitionsOf s ++ [s],
      a.tag g = .transition ∧ a.parent g = some s ∨ a.tag g = .state ∧ g = s := by
    intro i s hs g hg
    rcases mem_append.1 hg with hg | hg
    · exact .inl (ha.part_transitionsOf hg)
    · rw [mem_singleton.1 hg]
      exact .inr ⟨(ha.part_statesOf hs).1, rfl⟩
  have hunique : ∀ i i' s s' g, s ∈ a.statesOf i → s' ∈ a.statesOf i' →
      g ∈ a.transitionsOf s ++ [s] → g ∈ a.transitionsOf s' ++ [s'] → s = s' := by
    intro i i' s s' g hs hs' hg hg'
    rcases hstate i s hs g hg with ⟨htag, h⟩ | ⟨htag, rfl⟩ <;>
      rcases hstate i' s' hs' g hg' with ⟨htag', h'⟩ | ⟨htag', h'⟩
    · exact some.inj (h.symm.trans h')
    · cases htag.symm.trans htag'
    · cases htag.symm.trans htag'
    · exact h'
  refine nodup_flatMap_of_unique nodup_range (fun i _ => ?_) fun i _ i' _ g hg hg' => ?_
  · refine nodup_flatMap_of_unique (hstates i) (fun s hs => ?_) fun s hs s' hs' g hg hg' =>
      hunique i i s s' g hs hs' hg hg'
    refine nodup_append.2 ⟨ha.nodup_transitionsOf s, nodup_singleton s, ?_⟩
    rintro t ht _ ht' rfl
    have htag := (ha.part_transitionsOf ht).1
    rw [mem_singleton.1 ht', (ha.part_statesOf hs).1] at htag
    cases htag
  · obtain ⟨s, hs, hg⟩ := mem_flatMap.1 hg
    obtain ⟨s', hs', hg'⟩ := mem_flatMap.1 hg'
    obtain rfl := hunique i i' s s' g hs hs' hg hg'
    exact some.inj ((ha.part_statesOf hs).2.symm.trans (ha.part_statesOf hs').2)

theorem WellBuilt.nodup_crowded : a.crowded.Nodup := by
  refine nodup_flatMap_of_unique ha.nodup_groups (fun g _ => ?_) fun g _ g' _ b hb hb' => ?_
  · unfold crowd
    split
    · exact ha.nodup_group g
    · exact .nil
  · exact ha.eq_of_opens (mem_group.1 ((mem_crowd (ha.nodup_group g)).1 hb).1)
      (mem_group.1 ((mem_crowd (ha.nodup_group g')).1 hb').1)

theorem WellBuilt.stateAround_eq {isFinal : Bool} {entry exit : Option StmtId} {ts : List StmtId}
    (hs : a.kind s = .state name isFinal entry exit ts) (hg : g ∈ a.transitionsOf s ++ [s])
    (hb : a.Opens g b) : a.stateAround b = name := by
  obtain ⟨t, trigger, bodies, hparent, hk, ht⟩ := ha.parent_of_opens hb
  have hts : t ∈ a.transitionsOf s := by
    rcases mem_append.1 hg with hg | hg
    · rcases ht with ⟨-, rfl⟩ | ⟨-, ht⟩
      · exact hg
      · obtain ⟨_, _, _, _, _, hkg, -⟩ := mem_transitionsOf.1 ht
        have htag := (ha.part_transitionsOf hg).1
        rw [ha.ordered.tag, hkg] at htag
        cases htag
    · obtain rfl := mem_singleton.1 hg
      rcases ht with ⟨-, rfl⟩ | ⟨-, ht⟩
      · cases hk.symm.trans hs
      · exact ht
  rw [stateAround, hparent, bind_some, (ha.part_transitionsOf hts).2, bind_some, hs]
  rfl

/-- The errors of a state are those of its transitions and its own. -/
theorem WellBuilt.stateErrors_eq (hs : s ∈ a.statesOf i) (names : String → Option StmtId) :
    a.stateErrors names s = (a.transitionsOf s ++ [s]).flatMap (a.groupErrors names) := by
  have htag := (ha.part_statesOf hs).1
  rw [ha.ordered.tag] at htag
  cases hk : a.kind s <;> rw [hk] at htag <;> cases htag
  next name isFinal entry exit ts =>
  have hts : a.transitionsOf s = ts := by rw [transitionsOf, hk]
  have hcrowd : ∀ g ∈ a.transitionsOf s ++ [s],
      a.ambiguityErrors name (a.group g) = (crowd (a.group g)).map a.openError := by
    intro g hg
    rw [ambiguityErrors_eq]
    refine map_congr_left fun b hb => ?_
    rw [openError, ha.stateAround_eq hk hg (mem_group.1 ((mem_crowd (ha.nodup_group g)).1 hb).1)]
  rw [stateErrors, hk, flatMap_append, flatMap_singleton, hts]
  refine congrArg₂ _ (flatMap_congr fun t ht => ?_) ?_
  · have htag := (ha.part_transitionsOf (hts ▸ ht)).1
    rw [ha.ordered.tag] at htag
    cases hkt : a.kind t <;> rw [hkt] at htag <;> cases htag
    next trigger bodies =>
    rw [groupErrors, ← hcrowd t (by simp [hts, ht]), transitionErrors, group, bodiesOf, hkt]
    cases trigger <;> rfl
  · rw [groupErrors, ← hcrowd s (by simp), group, bodiesOf, hk]
    rfl

theorem WellBuilt.filter_jumpErrors (i : StmtId) :
    (a.jumpErrors i).filter (·.cause.code == "W024") =
      ((a.statesOf i).flatMap fun s => (a.transitionsOf s ++ [s]).flatMap fun g =>
        crowd (a.group g)).map a.openError := by
  unfold jumpErrors
  split
  case h_1 nodes start hk =>
    rw [statesOf, hk, filter_flatMap, flatMap_nil, map_nil,
      flatMap_eq_nil_iff]
    intro m _
    rw [filter_flatMap, flatMap_eq_nil_iff]
    exact fun r _ => filter_missing _ r
  case h_2 states start first hk =>
    have hstates : a.statesOf i = states := by rw [statesOf, hk]
    rw [filter_append, filter_append, filter_startErrors, filter_flatMap, hstates, map_flatMap,
      flatMap_congr fun s hs => by
        rw [ha.stateErrors_eq (hstates ▸ hs), filter_flatMap, flatMap_congr fun g _ =>
          filter_groupErrors _ g, ← map_flatMap]]
    split <;> rfl
  case h_3 hflow hmachine =>
    unfold statesOf
    split
    case h_1 hk => exact (hmachine _ _ _ hk).elim
    case h_2 => rfl

theorem WellBuilt.filter_jumps :
    ((range a.stmts.size).flatMap a.jumpErrors).filter (·.cause.code == "W024") =
      a.crowded.map a.openError := by
  rw [crowded, groups, flatMap_assoc, map_flatMap, filter_flatMap]
  refine flatMap_congr fun i _ => ?_
  rw [ha.filter_jumpErrors, flatMap_assoc]

end Tree

section Built

variable {ids ids' : Ids} {unit : Nat} {node : ParseNode}
  (h : build ids unit node = (.ok a, ids'))

include h

theorem mem_groups (hg : a.tag g = .state ∨ a.tag g = .transition) : g ∈ a.groups := by
  have ha := (build_ids h).1
  obtain ⟨s, hs, hmem⟩ : ∃ s, a.tag s = .state ∧ g ∈ a.transitionsOf s ++ [s] := by
    rcases hg with hg | hg
    · exact ⟨g, hg, by simp⟩
    obtain ⟨-, s, hs⟩ := listed_build h (m := g) (by rw [hg]; rfl)
    have htag := (ha.part hs).1
    refine ⟨s, ?_, mem_append_left _ ?_⟩
    all_goals
      rw [hg] at htag
      first | rw [ha.ordered.tag] | unfold transitionsOf
      cases hk : a.kind s <;> rw [hk] at htag hs <;> simp [StmtKind.parts] at htag
    · rfl
    · exact hs
  obtain ⟨-, i, hi⟩ := listed_build h (m := s) (by rw [hs]; rfl)
  have htag := (ha.part hi).1
  rw [hs] at htag
  refine mem_flatMap.2 ⟨i, mem_range.2 (Nat.lt_of_not_le fun hle => ?_),
    mem_flatMap.2 ⟨s, ?_, hmem⟩⟩
  · rw [kind_eq_empty hle] at htag
    cases htag
  · unfold statesOf
    cases hk : a.kind i <;> rw [hk] at htag hi <;> simp [StmtKind.parts] at htag
    exact hi

theorem mem_crowded : b ∈ a.crowded ↔ ∃ g b', a.Opens g b ∧ a.Opens g b' ∧ b' ≠ b := by
  have ha := (build_ids h).1
  simp only [crowded, mem_flatMap, mem_crowd (ha.nodup_group _), mem_group]
  constructor
  · rintro ⟨g, -, hb, b', hb', hne⟩
    exact ⟨g, b', hb, hb', hne⟩
  · rintro ⟨g, b', hb, hb', hne⟩
    refine ⟨g, mem_groups h ?_, hb, b', hb', hne⟩
    rw [ha.ordered.tag]
    cases hb with
    | triggered hk =>
      rw [hk]
      exact .inr rfl
    | untriggered ht =>
      obtain ⟨_, _, _, _, _, hk, -⟩ := mem_transitionsOf.1 ht
      rw [hk]
      exact .inl rfl

/-! ### Bad graphs -/

omit h in
theorem eq_of_nodeName (hnodup : (a.nodeNames nodes).Nodup)
    (hm : m ∈ nodes) (hm' : m' ∈ nodes) (hname : (a.kind m).nodeName = some name)
    (hname' : (a.kind m').nodeName = some name) : m = m' := by
  induction nodes with
  | nil => cases hm
  | cons x rest ih =>
    rw [nodeNames, filterMap_cons] at hnodup
    have hfirst : ∀ y ∈ rest, (a.kind x).nodeName = some name → (a.kind y).nodeName ≠ some name := by
      intro y hy hx hyn
      rw [hx] at hnodup
      exact (nodup_cons.1 hnodup).1 (mem_filterMap.2 ⟨y, hy, hyn⟩)
    rcases mem_cons.1 hm with rfl | hrest <;> rcases mem_cons.1 hm' with rfl | hrest'
    · rfl
    · exact (hfirst m' hrest' hname hname').elim
    · exact (hfirst m hrest hname' hname).elim
    · refine ih ?_ hrest hrest'
      split at hnodup
      · exact hnodup
      · exact (nodup_cons.1 hnodup).2

omit h in
theorem missing_eq_nil {r : NodeRef} :
    r.missing (named a nodes) = [] ↔ r.name ∈ a.nodeNames nodes := by
  have hsome : r.missing (named a nodes) = [] ↔
      (named a nodes r.name).isSome = true := by
    unfold NodeRef.missing
    cases named a nodes r.name <;> simp
  rw [hsome, named, find?_isSome, nodeNames, mem_filterMap]
  simp only [beq_iff_eq]

omit h in
/-- A machine starts well if its start is a state of its own that is not final. -/
theorem WellBuilt.startErrors_eq_nil (ha : a.WellBuilt)
    (hk : a.kind i = .stateMachine states start first) : a.startErrors i states start = [] ↔
      ∃ s ∈ states, isFinalState a s = false ∧ ∀ r ∈ start, (a.kind s).nodeName = some r.name := by
  cases start with
  | none => simp [startErrors, startOf]
  | some r =>
    rw [startErrors, append_eq_nil_iff, missing_eq_nil, startOf, NodeRef.aim]
    simp only [mem_some_iff, forall_eq']
    cases hn : named a states r.name with
    | none =>
      have hnone := find?_eq_none.1 hn
      simp only [beq_iff_eq] at hnone
      simp only [nodeNames, mem_filterMap]
      constructor
      · rintro ⟨⟨s, hs, hname⟩, -⟩
        exact (hnone s hs hname).elim
      · rintro ⟨s, hs, -, hname⟩
        exact (hnone s hs hname).elim
    | some s =>
      obtain ⟨hs, hname⟩ := mem_of_named hn
      simp only [any_some, ite_eq_right_iff, cons_ne_nil, imp_false, Bool.not_eq_true]
      constructor
      · rintro ⟨-, hfinal⟩
        exact ⟨s, hs, hfinal, hname⟩
      · rintro ⟨s', hs', hfinal, hname'⟩
        have hnames := (ha.ordered.linked i).ruled.names
        rw [hk] at hnames
        rw [eq_of_nodeName hnames hs hs' hname hname']
        exact ⟨mem_filterMap.2 ⟨s', hs', hname'⟩, hfinal⟩

omit h in
theorem bodyErrors_eq_nil : a.bodyErrors (named a states) b = [] ↔
    ∀ condition action r, a.kind b = .transitionBody condition action r →
      r.name ∈ a.nodeNames states := by
  unfold bodyErrors
  split
  case h_1 condition action r hk =>
    rw [missing_eq_nil]
    refine ⟨fun hr condition' action' r' hk' => ?_, fun hall => hall _ _ _ hk⟩
    cases hk.symm.trans hk'
    exact hr
  case h_2 hother => exact ⟨fun _ _ _ _ hk => (hother _ _ _ hk).elim, fun _ => rfl⟩

omit h in
theorem groupErrors_eq_nil : a.groupErrors names g = [] ↔
    (∀ b ∈ a.bodiesOf g, a.bodyErrors names b = []) ∧ crowd (a.group g) = [] := by
  rw [groupErrors, append_eq_nil_iff, flatMap_eq_nil_iff, map_eq_nil_iff]

omit h in
theorem WellBuilt.machineErrors_eq_nil (ha : a.WellBuilt)
    (hk : a.kind i = .stateMachine states start first) : a.jumpErrors i = [] ↔
      a.startErrors i states start = [] ∧ (∃ s ∈ states, isFinalState a s = true) ∧
        ∀ s ∈ states, ∀ g ∈ a.transitionsOf s ++ [s], a.groupErrors (named a states) g = [] := by
  have hstates : a.statesOf i = states := by rw [statesOf, hk]
  rw [jumpErrors, hk]
  dsimp only
  rw [append_eq_nil_iff, append_eq_nil_iff, flatMap_eq_nil_iff]
  refine and_congr_right fun _ => and_congr (by simp) (forall₂_congr fun s hs => ?_)
  rw [ha.stateErrors_eq (hstates ▸ hs), flatMap_eq_nil_iff]

/-- Bad graphs are those that have errors. -/
theorem goodGraphs_iff : a.GoodGraphs ↔ ∀ i, a.jumpErrors i = [] := by
  have ha := (build_ids h).1
  constructor
  · intro hgood i
    cases hk : a.kind i
    case flow nodes start =>
      rw [jumpErrors, hk]
      exact flatMap_eq_nil_iff.2 fun m hm => flatMap_eq_nil_iff.2 fun r hr =>
        missing_eq_nil.2 (hgood.flow i nodes start hk m hm r hr)
    case stateMachine states start first =>
      refine (ha.machineErrors_eq_nil hk).2 ⟨(ha.startErrors_eq_nil hk).2
        (hgood.start i states start first hk), hgood.final i states start first hk,
        fun s hs g hg => groupErrors_eq_nil.2 ⟨fun b hb => bodyErrors_eq_nil.2
          (hgood.target i states start first hk b ?_), eq_nil_iff_forall_not_mem.2 fun b hb => ?_⟩⟩
      · obtain ⟨trigger, bodies, hkg, -⟩ := mem_bodiesOf.1 hb
        rcases mem_append.1 hg with hg | hg
        · exact mem_flatMap.2 ⟨s, hs, mem_flatMap.2 ⟨g, hg, hb⟩⟩
        · have htag := (ha.part_states hk hs).1
          rw [ha.ordered.tag, ← mem_singleton.1 hg, hkg] at htag
          cases htag
      · obtain ⟨hb, b', hb', hne⟩ := (mem_crowd (ha.nodup_group g)).1 hb
        exact hne (hgood.single g b' b (mem_group.1 hb') (mem_group.1 hb))
    all_goals rw [jumpErrors, hk]
  · intro hnil
    have hmachine := fun i {states start first}
      (hk : a.kind i = .stateMachine states start first) => (ha.machineErrors_eq_nil hk).1 (hnil i)
    have hcrowded : a.crowded = [] := by
      have hfilter := ha.filter_jumps
      rw [flatMap_eq_nil_iff.2 fun i _ => hnil i] at hfilter
      exact map_eq_nil_iff.1 hfilter.symm
    refine ⟨fun i nodes start hk m hm r hr => ?_, fun i states start first hk => (hmachine i hk).2.1,
      fun i states start first hk => (ha.startErrors_eq_nil hk).1 (hmachine i hk).1,
      fun i states start first hk b hb => ?_,
      fun g b b' hb hb' => by_contra fun hne => ?_⟩
    · have herrors := hnil i
      rw [jumpErrors, hk] at herrors
      exact missing_eq_nil.1
        (flatMap_eq_nil_iff.1 (flatMap_eq_nil_iff.1 herrors m hm) r hr)
    · obtain ⟨s, hs, hb⟩ := mem_flatMap.1 hb
      obtain ⟨t, ht, hb⟩ := mem_flatMap.1 hb
      exact bodyErrors_eq_nil.1 ((groupErrors_eq_nil.1
        ((hmachine i hk).2.2 s hs t (mem_append_left _ ht))).1 b hb)
    · exact not_mem_nil (hcrowded ▸ (mem_crowded h).2 ⟨g, b, hb', hb, hne⟩)

end Built

theorem code_of_unanswered {rs : List StmtId} {es : List CompileError}
    (h : Forall₂ a.Unanswered rs es) :
    ∀ e ∈ es, e.cause.code ∉ ["W020", "W021", "W022", "W023", "W024"] := by
  induction h with
  | nil => simp
  | cons h _ ih =>
    refine forall_mem_cons.2 ⟨?_, ih⟩
    obtain ⟨op, -, rfl | ⟨q, request, -, -, -, ⟨-, rfl⟩ | ⟨n, -, rfl⟩⟩⟩ := h
    all_goals simp [Cause.error, Cause.code]

end Activity

/-- The errors with codes from W020 to W024 that resolution reports are those of bad graphs, and of
several ways out that are open at once each is reported once. -/
theorem resolve_reports_graphs {ids ids' : Ids} {unit : Nat} {node : ParseNode} {a : Activity}
    (h : build ids unit node = (.ok a, ids')) (last : Ids) (errors : Diagnostics) :
    ∃ reported, (a.resolve last errors).2.2.errors = errors.errors ++ reported ∧
      ((∀ e ∈ reported, e.cause.code ∉ ["W020", "W021", "W022", "W023", "W024"]) ↔ a.GoodGraphs) ∧
      ∃ bodies : List StmtId, bodies.Nodup ∧
        (∀ b, b ∈ bodies ↔ ∃ g b', a.Opens g b ∧ a.Opens g b' ∧ b' ≠ b) ∧
        reported.filter (·.cause.code == "W024") = bodies.map a.openError := by
  have ha := (build_ids h).1
  obtain ⟨es, -, -, herrors, hes⟩ := ha.resolve_spec (formed_build h).1 last errors
  have hcodes := code_of_unanswered hes
  refine ⟨_, herrors.trans (append_assoc _ _ _), ?_, a.crowded, ha.nodup_crowded,
    fun b => mem_crowded h, ?_⟩
  · rw [goodGraphs_iff h, forall_mem_append, and_iff_left hcodes]
    refine ⟨fun hall i => eq_nil_iff_forall_not_mem.2 fun e he => ?_, fun hnil e he => ?_⟩
    · by_cases hi : i < a.stmts.size
      · refine hall e (mem_flatMap.2 ⟨i, mem_range.2 hi, he⟩) ?_
        have hjump := isJump_of_mem_jumpErrors he
        revert hjump
        cases e.cause <;> simp [Cause.isJump, Cause.code]
      · rw [jumpErrors, kind_eq_empty (Nat.le_of_not_lt hi)] at he
        cases he
    · rw [flatMap_eq_nil_iff.2 fun i _ => hnil i] at he
      cases he
  · rw [filter_append, ha.filter_jumps, filter_eq_nil_iff.2, append_nil]
    exact fun e he hcode => hcodes e he (by simp [beq_iff_eq.1 hcode])

/-- A machine without a final state, with two ways out of its state that are open at once. -/
def tangledNode : ParseNode :=
  .main {
    label := "statemachine"
    items := [
      { label := "state", text := some "work"
        items := [
          { label := "transition", members := [("target", .reference "work")] },
          { label := "transition", members := [("target", .reference "gone")] }] }] }

theorem resolve_reports_graphs_tangledNode : ∃ a ids', build {} 0 tangledNode = (.ok a, ids') ∧
    (a.resolve ids' {}).2.2.errors.map (·.cause) = [.missingFinalState,
      .unresolvedReference "gone", .transitionConditionRequired "work",
      .transitionConditionRequired "work"] ∧ ∃ reported, (a.resolve ids' {}).2.2.errors = reported ∧
      ((∀ e ∈ reported, e.cause.code ∉ ["W020", "W021", "W022", "W023", "W024"]) ↔ a.GoodGraphs) ∧
      ∃ bodies : List StmtId, bodies.Nodup ∧
        (∀ b, b ∈ bodies ↔ ∃ g b', a.Opens g b ∧ a.Opens g b' ∧ b' ≠ b) ∧
        reported.filter (·.cause.code == "W024") = bodies.map a.openError := by
  obtain ⟨a, ids', h, hcauses⟩ := tangledNode.exists_of_builds
    (P := fun a ids' => (a.resolve ids' {}).2.2.errors.map (·.cause) = [.missingFinalState,
      .unresolvedReference "gone", .transitionConditionRequired "work",
      .transitionConditionRequired "work"]) (by decide +kernel)
  exact ⟨a, ids', h, hcauses, resolve_reports_graphs h ids' {}⟩

end Workflow
