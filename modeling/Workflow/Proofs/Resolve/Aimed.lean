import Workflow.Proofs.Resolve.Correlation

/-!
# Activities whose jumps are resolved

Where resolution finds no errors, every flowchart and every state machine has its start, and every
reference leads to the statement that it names.
-/

namespace Workflow

open List

namespace StmtKind

variable {k k' : StmtKind}

theorem mem_inner_iff (hnodup : k.children.Nodup) :
    m ∈ k.inner ↔ m ∈ k.children ∧ m ∉ k.parts.1 := by
  cases k
  case guarded body handlers final =>
    simp only [children, cons_append, nodup_cons, nodup_append, mem_append,
      not_or] at hnodup
    obtain ⟨⟨hbody, -⟩, -, -, hfinal⟩ := hnodup
    simp only [inner, children, parts, mem_cons, cons_append, mem_append]
    constructor
    · rintro (rfl | hm)
      · exact ⟨.inl rfl, hbody⟩
      · exact ⟨.inr (.inr hm), fun h => hfinal m h m hm rfl⟩
    · rintro ⟨rfl | hm | hm, hpart⟩
      · exact .inl rfl
      · exact absurd hm hpart
      · exact .inr hm
  case state name isFinal entry exit transitions =>
    simp only [children, nodup_append] at hnodup
    obtain ⟨-, -, htransitions⟩ := hnodup
    simp only [inner, children, parts]
    constructor
    · intro hm
      exact ⟨mem_append_left _ hm, fun h => htransitions m hm m h rfl⟩
    · rintro ⟨hm, hpart⟩
      exact (mem_append.1 hm).resolve_right hpart
  case transition trigger bodies =>
    simp only [children, nodup_append] at hnodup
    obtain ⟨-, -, hbodies⟩ := hnodup
    simp only [inner, children, parts]
    constructor
    · intro hm
      exact ⟨mem_append_left _ hm, fun h => hbodies m hm m h rfl⟩
    · rintro ⟨hm, hpart⟩
      exact (mem_append.1 hm).resolve_right hpart
  all_goals simp [inner, children, parts]

theorem Alike.request (h : k.Alike k') : k'.request = k.request :=
  congrArg (·.2.2.1) h.face

end StmtKind

namespace Activity

variable {a b : Activity}

theorem mem_transitionsOf : t ∈ a.transitionsOf s ↔
    ∃ name isFinal entry exit ts, a.kind s = .state name isFinal entry exit ts ∧ t ∈ ts := by
  unfold transitionsOf
  cases a.kind s <;> simp

theorem mem_bodiesOf : m ∈ a.bodiesOf t ↔
    ∃ trigger bodies, a.kind t = .transition trigger bodies ∧ m ∈ bodies := by
  unfold bodiesOf
  cases a.kind t <;> simp

/-- The second activity is the first one with its jumps resolved, of which none fails. -/
structure Aimed (a b : Activity) : Prop where
  keeps : a.Keeps b
  wellBuilt : a.WellBuilt
  formed : a.Formed
  flow : ∀ {id nodes start}, a.kind id = .flow nodes start → b.kind id = .flow nodes nodes.head?
  node : ∀ {id nodes start m}, a.kind id = .flow nodes start → m ∈ nodes →
    b.kind m = aimNodes (Resolve.named a nodes) nodes m (a.kind m)
  machine : ∀ {id states start first}, a.kind id = .stateMachine states start first →
    b.kind id = .stateMachine states start (a.startOf states start)
  body : ∀ {id states start first m}, a.kind id = .stateMachine states start first →
    m ∈ a.bodiesOfStates states → b.kind m = (a.kind m).aimBody (Resolve.named a states)
  part : ∀ {i}, a.tag i ∈ [StmtTag.state, .transition] → b.kind i = a.kind i
  errors : ∀ id, a.jumpErrors id = []

theorem aimed_resolve
    (h : Activity.build ids unit node = (.ok a, ids')) (last : Ids) (errors : Diagnostics)
    (herrors : (a.resolve last errors).2.2.errors = errors.errors) :
    a.Aimed (a.resolve last errors).1 := by
  have ha := (build_ids h).1
  have hf := (formed_build h).1
  have hrange := nodup_range (n := a.stmts.size)
  have hkeeps := keeps_resolve last errors a
  obtain ⟨es, -, hanswers, hall, -⟩ := ha.resolve_spec hf last errors
  rw [hall, append_assoc, append_right_eq_self, append_eq_nil_iff] at herrors
  generalize (a.resolve last errors).1 = b at hkeeps hanswers
  -- what is no operation is as the jumps leave it
  have hkind : ∀ {i}, a.service? i = none →
      b.kind i = a.partsAfter (range a.stmts.size) i (a.kind i) := by
    intro i hi
    rw [hanswers.other (by rw [ha.service?_partsAfter hrange, hi]), ha.kind_partsAfter hrange]
  have hjump : ∀ {id i}, i ∈ a.touches id → b.kind i = a.jumpParts id i (a.kind i) := by
    intro id i hi
    have howner := ha.jumpOf_of_mem_touches hi
    have hid : id < a.stmts.size := by
      refine Nat.lt_of_not_le fun hle => ?_
      rw [touches, kind_eq_empty hle] at hi
      cases hi
    rw [hkind, ha.partsAfter_of_mem hrange (mem_range.2 hid) hi]
    cases hop : a.service? i with
    | none => rfl
    | some op =>
      rw [jumpOf, ha.ordered.tag, service?_eq_some.1 hop] at howner
      cases howner
  constructor
  case keeps => exact hkeeps
  case wellBuilt => exact ha
  case formed => exact hf
  case flow =>
    intro id nodes start hk
    rw [hjump (by rw [touches, hk]; exact mem_cons_self), jumpParts, hk]
    exact if_pos rfl
  case node =>
    intro id nodes start m hk hm
    rw [hjump (by rw [touches, hk]; exact mem_cons_of_mem _ hm), jumpParts, hk]
    refine if_neg fun h => ?_
    have hafter := ha.ordered.after id m (by rw [hk]; exact hm)
    exact Nat.ne_of_gt hafter h
  case machine =>
    intro id states start first hk
    rw [hjump (by rw [touches, hk]; exact mem_cons_self), jumpParts, hk]
    exact if_pos rfl
  case body =>
    intro id states start first m hk hm
    rw [hjump (by rw [touches, hk]; exact mem_cons_of_mem _ hm), jumpParts, hk]
    have hne : m ≠ id := by
      rintro rfl
      obtain ⟨s, -, hm⟩ := mem_flatMap.1 hm
      obtain ⟨t, -, hm⟩ := mem_flatMap.1 hm
      have htag := (ha.part_bodiesOf hm).1
      rw [ha.ordered.tag, hk] at htag
      cases htag
    exact (if_neg hne).trans (if_pos hm)
  case part =>
    intro i hi
    have hnone : a.jumpOf i = none := by
      rw [jumpOf]
      simp only [mem_cons, not_mem_nil, or_false] at hi
      rcases hi with hi | hi <;> rw [hi]
    have hservice : a.service? i = none := by
      cases hop : a.service? i with
      | none => rfl
      | some op =>
        rw [ha.ordered.tag, service?_eq_some.1 hop] at hi
        simp [StmtKind.tag] at hi
    rw [hkind hservice]
    exact partsAfter_of_forall (fun id _ hid => by
      rw [ha.jumpOf_of_mem_touches hid] at hnone
      cases hnone) _
  case errors =>
    intro id
    by_cases hid : id < a.stmts.size
    · exact flatMap_eq_nil_iff.1 herrors.1 id (mem_range.2 hid)
    · rw [jumpErrors, kind_eq_empty (Nat.le_of_not_lt hid)]

namespace Aimed

variable (h : a.Aimed b) {id : StmtId}

include h

theorem standsAlone (hm : a.StandsAlone m) : b.StandsAlone m := by
  rw [StandsAlone, h.keeps.size, h.keeps.tag]
  exact hm

theorem standsAlone_inner (i : StmtId) : ∀ m ∈ (b.kind i).inner, b.StandsAlone m := by
  intro m hm
  have hnodup := h.wellBuilt.nodup_children i
  rw [StmtKind.mem_inner_iff (by rwa [(h.keeps.kind i).children]), (h.keeps.kind i).children,
    (h.keeps.kind i).parts, ← StmtKind.mem_inner_iff hnodup] at hm
  exact h.standsAlone ((h.formed.kind i).inner m hm)

theorem startErrors_eq
    (hk : a.kind id = .stateMachine states start first) : a.startErrors id states start = [] := by
  have herrors := h.errors id
  rw [jumpErrors, hk, append_eq_nil_iff] at herrors
  exact herrors.1

theorem tag_request (i : StmtId) : ∀ m ∈ (b.kind i).request, b.tag m = .service := by
  intro m hm
  rw [(h.keeps.kind i).request] at hm
  rw [h.keeps.tag]
  exact (h.formed.kind i).request m hm

end Aimed

end Activity

end Workflow
