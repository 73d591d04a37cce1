import Workflow.Proofs.Build.Program
import Workflow.Proofs.Lower.Drawn

/-!
# Named jumps become places

In the graph of an activity that is resolved without errors, every flowchart and every state machine
is drawn as it was declared, node by node and state by state, and each reference by name is the place
of what it names.
-/

namespace Workflow

open Lower

variable {start : Option NodeRef} {states : List StmtId} {first : Option StmtId}

namespace Activity.Aimed

variable {a : Activity} {c : LowerContext} (h : a.Aimed c.activity) {id : StmtId}

include h

theorem of_flow {nodes : List StmtId} {start : Option StmtId}
    (hk : c.activity.kind id = .flow nodes start) :
    ∃ start', a.kind id = .flow nodes start' ∧ start = nodes.head? := by
  have htag := (h.keeps.kind id).tag
  rw [hk] at htag
  cases hka : a.kind id
  case flow nodes' start' =>
    have hb := h.flow hka
    rw [hk] at hb
    cases hb
    exact ⟨start', rfl, rfl⟩
  all_goals simp [hka, StmtKind.tag] at htag

theorem of_machine (hk : c.activity.kind id = .stateMachine states start first) :
    ∃ first', a.kind id = .stateMachine states start first' ∧ first = a.startOf states start := by
  have htag := (h.keeps.kind id).tag
  rw [hk] at htag
  cases hka : a.kind id
  case stateMachine states' start' first' =>
    have hb := h.machine hka
    rw [hk] at hb
    cases hb
    exact ⟨first', rfl, rfl⟩
  all_goals simp [hka, StmtKind.tag] at htag

/-- Every way out of a state of a machine leads to a state of the machine. -/
theorem isSome_target (hk : c.activity.kind id = .stateMachine states start first) (hs : s ∈ states)
    (ht : t ∈ c.activity.transitionsOf s) (hm : m ∈ c.activity.bodiesOf t)
    (hkm : c.activity.kind m = .transitionBody condition action r) :
    (target? states r).isSome = true := by
  obtain ⟨first', hka, -⟩ := h.of_machine hk
  have htag := (h.wellBuilt.part_states hka hs).1
  have hbs : c.activity.kind s = a.kind s := h.part (by rw [htag]; simp)
  rw [transitionsOf, hbs, ← transitionsOf] at ht
  have htag := (h.wellBuilt.part_transitionsOf ht).1
  have hbt : c.activity.kind t = a.kind t := h.part (by rw [htag]; simp)
  rw [bodiesOf, hbt, ← bodiesOf] at hm
  have hmem : m ∈ a.bodiesOfStates states :=
    List.mem_flatMap.2 ⟨s, hs, List.mem_flatMap.2 ⟨t, ht, hm⟩⟩
  have hb := h.body hka hmem
  rw [hkm] at hb
  have herrors := bodyErrors_of_aimed h hka hs ht hm
  cases hkma : a.kind m <;> rw [hkma] at hb <;> cases hb
  rw [bodyErrors, hkma] at herrors
  obtain ⟨i, hi, -⟩ := leads_of_missing herrors
  rw [hi, Option.isSome_some]

theorem isSome_start (hk : c.activity.kind id = .stateMachine states start first) :
    (first.bind (position? states)).isSome = true := by
  obtain ⟨first', hka, rfl⟩ := h.of_machine hk
  obtain ⟨m, i, hstart, -, hi, -⟩ := startOf_spec (h.startErrors_eq hka)
  rw [hstart, Option.bind_some, hi, Option.isSome_some]

theorem routed : c.activity.Routed where
  inner := h.standsAlone_inner
  request := h.tag_request
  target hk hs ht hm hkm := h.isSome_target hk hs ht hm hkm
  start hk := h.isSome_start hk

theorem plan : Plan c (DrawnLandmark c a) where
  toRouted := h.routed
  ordered := (h.keeps.wellBuilt h.wellBuilt).ordered
  flow n hk hn := by
    obtain ⟨start', hka, rfl⟩ := h.of_flow hk
    exact (gives_drawnFlow h hka hn).mono fun _ => .jump
  machine n hk hn := by
    obtain ⟨first', hka, rfl⟩ := h.of_machine hk
    exact (gives_drawnMachine h hka hn).mono fun _ => .jump
  service hk := gives_drawnOperation.mono fun _ ⟨_, hm, hdrawn⟩ =>
    .operation (service?_eq_some.2 hk) hm hdrawn

theorem landmarks_lower (hroot : a.StandsAlone a.root) (ns : Option String) :
    ∃ kinds, List.Perm kinds (c.activity.lower ns c.semantics c.maxDepth).1.body.landmarks ∧
      List.Forall₂ (DrawnLandmark c a) c.activity.landmarks kinds := by
  have hstands := h.standsAlone hroot
  rw [← h.keeps.root] at hstands
  exact h.plan.landmarks_lower (h.keeps.wellBuilt h.wellBuilt) hstands ns

/-- What is drawn as a jump has jumps, and what is drawn as a message is an operation. -/
theorem tag_landmark {kind : NodeKind} (hdrawn : DrawnLandmark c a i kind) :
    ((c.activity.tag i).isJump = true ∧ kind.isJump = true ∧ kind.message? = none ∧
      Drawn c a (a.kind i) kind) ∨
    (c.activity.tag i = .service ∧ kind.isJump = false ∧ ∃ op m, c.activity.service? i = some op ∧
      kind.message? = some m ∧ DrawnOperation c i op m) := by
  have hordered := (h.keeps.wellBuilt h.wellBuilt).ordered
  cases hdrawn with
  | jump drawn =>
    obtain ⟨htag, hkind, hmessage⟩ := drawn.isJump
    rw [hordered.tag, (h.keeps.kind i).tag]
    exact .inl ⟨htag, hkind, hmessage, drawn⟩
  | @operation op m service message drawn =>
    rw [hordered.tag, service?_eq_some.1 service]
    refine .inr ⟨rfl, ?_, op, m, service, message, drawn⟩
    cases kind <;> first | rfl | cases message

theorem jumps_eq : c.activity.jumps = a.jumps := by
  rw [jumps, jumps, h.keeps.size]
  simp only [h.keeps.tag]

theorem jumps_lower (hroot : a.StandsAlone a.root) (ns : Option String) :
    ∃ kinds, kinds.Perm (c.activity.lower ns c.semantics c.maxDepth).1.body.jumps ∧
      List.Forall₂ (fun id => Drawn c a (a.kind id)) a.jumps kinds := by
  obtain ⟨kinds, hkinds, hdrawn⟩ := h.landmarks_lower hroot ns
  refine ⟨kinds.filter NodeKind.isJump, ?_, ?_⟩
  · rw [Node.jumps_eq]
    exact hkinds.filter _
  rw [← h.jumps_eq, jumps, ← filter_landmarks _ fun _ => StmtTag.isLandmark_of_isJump,
    ← List.filterMap_eq_filter (p := NodeKind.isJump)]
  refine forall₂_filterMap hdrawn (fun i kind hik htag => ?_) fun i kind hik htag => ?_
  · rcases h.tag_landmark hik with ⟨-, hkind, -, hdrawn⟩ | ⟨hservice, -⟩
    · exact ⟨kind, by simp [Option.guard, hkind], hdrawn⟩
    · rw [hservice] at htag
      cases htag
  · rcases h.tag_landmark hik with ⟨hjump, -⟩ | ⟨-, hkind, -⟩
    · rw [hjump] at htag
      cases htag
    · simp [Option.guard, hkind]

end Activity.Aimed

/-- The flowcharts and state machines of the graph of an activity, in some order, are those of the
activity as they were declared. -/
theorem lower_draws_jumps {ids ids' : Ids} {unit : Nat} {node : ParseNode} {a : Activity}
    (h : Activity.build ids unit node = (.ok a, ids')) (last : Ids) (errors : Diagnostics)
    (herrors : (a.resolve last errors).2.2.errors = errors.errors) (ns : Option String)
    (semantics : SemanticIndex) (maxDepth : Nat) :
    ∃ kinds, kinds.Perm ((a.resolve last errors).1.lower ns semantics maxDepth).1.body.jumps ∧
      List.Forall₂ (fun id => Drawn ⟨(a.resolve last errors).1, semantics, maxDepth⟩ a
        (a.kind id)) a.jumps kinds := by
  have haimed := Activity.aimed_resolve h last errors herrors
  exact haimed.jumps_lower (c := ⟨(a.resolve last errors).1, semantics, maxDepth⟩)
    (Activity.formed_build h).2 ns

section Wired

/-- A machine that starts in its second state, with a flowchart that jumps forward and backward. -/
def wiredNode : ParseNode :=
  .main {
    label := "statemachine"
    items := [
      { label := "final-state", text := some "done" },
      { label := "state", text := some "work"
        members := [("entry", {
          label := "flow"
          items := [
            { label := "flow-if", text := some "ask"
              members := [("condition", .expression (.int 1)),
                ("true", .reference "choose"), ("false", .reference "last")] },
            { label := "flow-step", members := [("action", { label := "persist" })] },
            { label := "flow-switch", text := some "choose"
              members := [("value", .expression (.int 2))]
              items := [
                { label := "flow-case"
                  members := [("key", .expression (.int 3)), ("target", .reference "ask")] }] },
            { label := "flow-step", text := some "last"
              members := [("action", { label := "persist" }),
                ("next", .reference "choose")] }] })]
        items := [
          { label := "transition"
            members := [("trigger", { label := "persist" }), ("target", .reference "done")] },
          { label := "transition", members := [("target", .reference "work")] }] }] }

/-- The places in a flowchart and in a machine, as they are listed. -/
def NodeKind.places : NodeKind → List (Option Nat)
  | .flowchart _ nodes start => start :: nodes.flatMap fun
    | .step _ _ next => [next]
    | .decision _ _ onTrue onFalse => [onTrue, onFalse]
    | .switch _ _ cases fallback => cases.map (fun x => some x.target) ++ [fallback]
  | .stateMachine _ states initial => some initial :: states.flatMap fun
    | .mk _ _ _ _ _ ts => ts.flatMap fun
      | .mk trigger _ _ target => [trigger, some target]
  | _ => []

theorem lower_draws_jumps_wiredNode : ∃ a ids',
    Activity.build {} 0 wiredNode = (.ok a, ids') ∧ (a.resolve ids' {}).2.2.errors = [] ∧
    (a.jumps = [1, 4] ∧ ((a.resolve ids' {}).1.lower none {} 64).1.body.jumps.map NodeKind.places =
        [[some 1, some 0, some 0, none, some 1],
          [some 0, some 2, some 3, some 2, some 0, none, some 2]]) ∧
    ∃ kinds, kinds.Perm ((a.resolve ids' {}).1.lower none {} 64).1.body.jumps ∧
      List.Forall₂ (fun id => Drawn ⟨(a.resolve ids' {}).1, {}, 64⟩ a (a.kind id))
        a.jumps kinds := by
  exact ParseNode.exists_and_of_builds (by decide +kernel)
    fun a ids' h herrors => lower_draws_jumps h ids' {} herrors none {} 64

end Wired

end Workflow
