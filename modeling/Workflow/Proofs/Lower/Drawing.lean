import Workflow.Proofs.Lower.Weigh

/-!
# The landmarks in a lowered activity

Lowering draws every flowchart, every state machine and every operation of an activity once,
wherever it stands, and draws no other ones, whether errors are found or not.
-/

namespace Workflow

open LowerContext List Activity

theorem StmtTag.isLandmark_of_isJump {tag : StmtTag} (h : tag.isJump = true) :
    tag.isLandmark = true := by
  cases tag <;> first | rfl | cases h

def Activity.jumps (a : Activity) : List StmtId :=
  (range a.stmts.size).filter fun i => (a.tag i).isJump

def Activity.landmarks (a : Activity) : List StmtId :=
  (range a.stmts.size).filter fun i => (a.tag i).isLandmark

theorem Activity.filter_landmarks (a : Activity) {p : StmtTag → Bool}
    (hp : ∀ tag, p tag = true → tag.isLandmark = true) : a.landmarks.filter (fun i => p (a.tag i)) =
      (range a.stmts.size).filter fun i => p (a.tag i) := by
  rw [landmarks, filter_filter]
  refine filter_congr fun i _ => ?_
  cases h : p (a.tag i) with
  | false => rw [Bool.false_and]
  | true => rw [Bool.true_and, hp _ h]

def Activity.ownLandmark (a : Activity) (i : StmtId) : Multiset StmtId :=
  if (a.tag i).isLandmark then {i} else 0

namespace Activity

variable {a : Activity}

theorem total_ownLandmark (ha : a.Ordered) (id : StmtId) : a.total a.ownLandmark id =
    a.ownLandmark id + ((a.kind id).children.map (a.total a.ownLandmark)).sum := by
  refine total_eq (fun i hi => ?_) ha id
  rw [ownLandmark, ha.tag, kind_eq_empty hi]
  rfl

theorem ownLandmark_eq_zero (ha : a.Ordered) {id : StmtId}
    (htag : (a.kind id).tag.isLandmark = false) : a.ownLandmark id = 0 := by
  rw [ownLandmark, ha.tag, htag, if_neg Bool.false_ne_true]

theorem sum_ownLandmark (a : Activity) :
    ∑ i ∈ Finset.Ico 0 a.stmts.size, a.ownLandmark i = (a.landmarks : Multiset StmtId) := by
  have hrange : ∀ n, ∑ i ∈ Finset.Ico 0 n, a.ownLandmark i =
      (((range n).filter fun i => (a.tag i).isLandmark : List StmtId) : Multiset StmtId) := by
    intro n
    induction n with
    | zero => rfl
    | succ n ih =>
      rw [Finset.sum_Ico_succ_top (Nat.zero_le n), ih, range_succ, filter_append,
        ← Multiset.coe_add, ownLandmark]
      cases h : (a.tag n).isLandmark <;> simp [h]
  exact hrange _

end Activity

theorem exists_forall₂_of_rel {α β : Type} {R : α → β → Prop} {as : List α} {bs : Multiset β}
    (h : Multiset.Rel R as bs) : ∃ l : List β, (l : Multiset β) = bs ∧ Forall₂ R as l := by
  induction as generalizing bs with
  | nil => exact ⟨[], (Multiset.rel_zero_left.1 h).symm, .nil⟩
  | cons a as ih =>
    rw [← Multiset.cons_coe] at h
    obtain ⟨b, bs', hab, hrest, rfl⟩ := Multiset.rel_cons_left.1 h
    obtain ⟨l, rfl, hl⟩ := ih hrest
    exact ⟨b :: l, rfl, .cons hab hl⟩

namespace Lower

variable {c : LowerContext} {D : StmtId → NodeKind → Prop}

/-- What drawing rests on: the statements are in order, lowering finds what it expects, and
landmarks are drawn in the way `D`. -/
structure Plan (c : LowerContext) (D : StmtId → NodeKind → Prop) : Prop
    extends c.activity.Routed where
  ordered : c.activity.Ordered
  flow : ∀ {id nodes start} (n : Nat), c.activity.kind id = .flow nodes start →
    c.activity.stmts.size - id ≤ n + 1 → Gives (flowchart c (stmt c n) id nodes start) (D id)
  machine : ∀ {id states start first} (n : Nat),
    c.activity.kind id = .stateMachine states start first →
    c.activity.stmts.size - id ≤ n + 1 → Gives (stateMachine c (stmt c n) id states first) (D id)
  service : ∀ {id op}, c.activity.kind id = .service op →
    Gives (messaging c id op) fun n => D id n.kind

def Plan.tally (hp : Plan c D) (ha : c.activity.WellBuilt) :
    (View.naming (.any c) False).Tally where
  holds _ ids ns := Multiset.Rel D (ids.map (c.activity.total c.activity.ownLandmark)).sum
    (ns.flatMap Node.landmarks)
  fine _ := True
  binds _ := True
  draws := D
  nil := .zero
  append h h' := by
    rw [map_append, sum_append, flatMap_append, ← Multiset.coe_add]
    exact h.add h'
  perm h hids hns := by
    rwa [← (hids.map _).sum_eq, ← Multiset.coe_eq_coe.2 (hns.flatMap_right _)]
  stmt {id _ _ _} htag h := by
    have hzero : c.activity.ownLandmark id = 0 := by
      refine ownLandmark_eq_zero hp.ordered ?_
      cases hk : (c.activity.kind id).tag <;> simp [hk, StmtTag.isOrdinary] at htag <;> rfl
    rw [map_cons, sum_cons, total_ownLandmark hp.ordered, hzero, zero_add,
      ← sum_append, ← map_append]
    exact h
  node {k _ _} hk _ _ h := by
    have hlandmark : k.isLandmark = false := by
      cases k <;> first | rfl | cases hk
    rw [flatMap_singleton, Node.landmarks_ofKind hlandmark]
    exact h
  landmark {id _ kind} htag hk hD _ _ h := by
    rw [map_singleton, sum_singleton, total_ownLandmark hp.ordered,
      ownLandmark, hp.ordered.tag, htag, if_pos rfl, flatMap_singleton,
      Node.landmarks_mk, hk, if_pos rfl]
    exact .cons hD h
  value ty hf :=
    ((View.runs_value ((View.naming_sees trivial ha).reads rfl hf) ty).mono fun r hr => by
      rw [hr.2.landmarks]
      exact ⟨trivial, fun _ _ => trivial, fun _ _ => trivial, .zero⟩).given
  restricted _ _ _ _ _ := ⟨trivial, .zero⟩
  inbound _ _ := .zero
  unsent _ _ _ := .zero
  null _ := trivial
  handle _ _ := trivial
  name _ _ := trivial
  delegate _ _ := trivial
  temp _ := ⟨trivial, trivial⟩
  write _ _ := by
    rw [flatMap_singleton, Node.landmarks_code]
    exact .zero
  code {id rest} hstarts htag := by
    have hid : id < c.activity.stmts.size := lt_size_of_kind rfl (by rw [htag]; rfl)
    -- code has no share, so it may be lowered with other code
    have hsum := sum_chainFragments (q := fun _ => 0)
      (T := c.activity.total c.activity.ownLandmark) (fun {i f next init} hk => by
      rw [total_ownLandmark hp.ordered,
        ownLandmark_eq_zero hp.ordered (by rw [hk]; rfl), hk]
      rfl) hstarts.forward htag
    refine ((View.runs_codeRun (View.naming_sees trivial ha) hid).mono fun r hr ns hns => ?_).given
    rw [← hsum, flatMap_append, hr.2, nil_append]
    simpa using hns
  flow n hk hn l _ := hp.flow n hk hn l
  machine n hk hn l _ := hp.machine n hk hn l
  service hk l _ := hp.service hk l

theorem landmarks_withVariables (vars : List VariableDecl) (body : Option Node) :
    (withVariables vars body).landmarks = body.toList.flatMap Node.landmarks := by
  unfold withVariables
  split
  · simp
  · simp [Node.landmarks_mk, NodeKind.isLandmark, NodeKind.isJump, NodeKind.message?,
      NodeKind.children]
  · split <;> simp

end Lower

/-- The graph draws all landmarks of the activity, and no others. -/
theorem Lower.Plan.landmarks_lower {D : StmtId → NodeKind → Prop}
    (hp : Plan c D) (ha : c.activity.WellBuilt)
    (hroot : c.activity.StandsAlone c.activity.root) (ns : Option String) :
    ∃ kinds, Perm kinds (c.activity.lower ns c.semantics c.maxDepth).1.body.landmarks ∧
      Forall₂ D c.activity.landmarks kinds := by
  obtain ⟨⟨vars, body, -, hrel, hgraph⟩, -⟩ := holds_lower
    (T := hp.tally ha) ⟨View.naming_sees trivial ha, .inr ⟨id, hp.toRouted⟩⟩ (.inr hroot.2) ns
    False.elim
  rw [hgraph, landmarks_withVariables]
  have hrel : Multiset.Rel D _ _ := hrel
  rw [ha.fills.sum_total (fun i hi => ?_) hp.ordered, sum_ownLandmark] at hrel
  · obtain ⟨kinds, hkinds, hD⟩ := exists_forall₂_of_rel hrel
    exact ⟨kinds, Multiset.coe_eq_coe.1 hkinds, hD⟩
  · refine ownLandmark_eq_zero hp.ordered ?_
    rw [kind_eq_empty hi]
    rfl

end Workflow
