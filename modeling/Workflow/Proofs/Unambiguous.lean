import Workflow.Proofs.JumpTargets

/-!
# Transitions without a condition

Resolution refuses two transitions that would leave a state at once: two bodies of one trigger
without a condition, or two without a condition that have no trigger. It looks at the statements. In
the graph, a trigger that yields no node is no trigger, and its bodies join those that have none.
-/

namespace Workflow

open List Activity

variable {id : StmtId} {state : String}
variable {bodies : List StmtId} {names : String → Option StmtId}

/-- Whether a transition is taken on a trigger, or without one, under no condition. -/
def TransitionNode.isOpen (trigger : Option Nat) (t : TransitionNode) : Bool :=
  t.trigger == trigger && t.condition.isNone

namespace StateNode

def triggers : StateNode → List Node
  | .mk _ _ _ _ triggers _ => triggers

/-- How many transitions of a state are taken on a trigger, or without one, under no condition. -/
def opens (trigger : Option Nat) : StateNode → Nat
  | .mk _ _ _ _ _ ts => ts.countP (·.isOpen trigger)

end StateNode

namespace Activity

variable (a : Activity)

def triggerOf (id : StmtId) : Option StmtId :=
  match a.kind id with
  | .transition trigger _ => trigger
  | _ => none

def triggersOf (id : StmtId) : List StmtId := (a.transitionsOf id).filterMap a.triggerOf

/-- A statement that may come to nothing: an empty one, code, and a block of such statements. -/
inductive Hollow : StmtId → Prop
  | empty {id : StmtId} (hk : a.kind id = .empty) : Hollow id
  | code {id : StmtId} (htag : a.tag id = .code) : Hollow id
  | block {id : StmtId} {members : List StmtId} (hk : a.kind id = .sequence members)
    (hstores : a.storesOf id = []) (hmembers : ∀ m ∈ members, Hollow m) : Hollow id

variable {a} in
theorem Hollow.tag_ne_service (ha : a.Ordered) (h : a.Hollow id) : a.tag id ≠ .service := by
  cases h with
  | empty hk => simp [ha.tag, hk, StmtKind.tag]
  | code htag => simp [htag]
  | block hk => simp [ha.tag, hk, StmtKind.tag]

theorem length_le_one_of_ambiguityErrors (h : a.ambiguityErrors state bodies = []) :
    bodies.length ≤ 1 := by
  by_contra hlt
  rw [ambiguityErrors, if_pos (by omega), map_eq_nil_iff] at h
  simp [h] at hlt

end Activity

namespace Lower

/-! ### Statements without a node -/

section Hollow

variable {c : LowerContext}

theorem gives_none_of_nil {α β : Type} {f : α → Lower (Option β)} {P : α → Prop} {xs : List α}
    (h : ∀ x ∈ xs, Gives (f x) fun r => r = none → P x) :
    Gives (xs.filterMapM f) fun rs => rs = [] → ∀ x ∈ xs, P x := by
  induction xs with
  | nil => exact .pure fun _ _ hx => by cases hx
  | cons x xs ih =>
    obtain ⟨hx, hxs⟩ := forall_mem_cons.1 h
    rw [filterMapM_cons]
    refine hx.bind fun r hr => ?_
    cases r with
    | none => exact (ih hxs).mono fun rs hrs hnil => forall_mem_cons.2 ⟨hr rfl, hrs hnil⟩
    | some r => exact (Gives.any _).bind fun rs _ => .pure fun hnil => by cases hnil

theorem gives_variablesOf_nil (ids : List StoreId) : Gives (variablesOf c ids) fun vars =>
      vars = [] → ∀ id ∈ ids, c.activity.stores[id]? = none := by
  rw [← filterMap_eq_nil_iff]
  unfold variablesOf
  cases ids.filterMap fun id => c.activity.stores[id]? with
  | nil => exact .pure fun _ => rfl
  | cons store rest =>
    rw [mapM_cons]
    exact fun _ hnil => by cases hnil

theorem gives_hollow_sequence (hb : c.activity.WellBuilt) {lower : Inner}
    {members : List StmtId} (hk : c.activity.kind id = .sequence members)
    (hl : ∀ m ∈ members, Gives (lower m) fun r => r = none → c.activity.Hollow m) :
    Gives (sequence c lower id members) fun r => r = none → c.activity.Hollow id := by
  have hchain : c.activity.chainsForward members = true := by
    have hchained := (hb.ordered.linked id).chained
    rwa [hk] at hchained
  refine (gives_variablesOf_nil _).bind fun vars hvars => (gives_none_of_nil fun m hm =>
    hl m (mem_filter.1 hm).1).bind fun nodes hnodes => ?_
  split
  · refine .pure fun _ => .block hk ?_ fun m hm => ?_
    · refine eq_nil_iff_forall_not_mem.2 fun k hstore => ?_
      obtain ⟨st, hst, -⟩ := (hb.sound.listed (.statement id) k).1 hstore
      rw [hvars rfl k hstore] at hst
      cases hst
    -- A member to which another is chained is code.
    · by_cases hmem : m ∈ members.filterMap (chainedTo c.activity)
      · exact .code ((hb.ordered.tag m).trans (tag_of_mem_targets hchain hmem))
      · exact hnodes rfl m (mem_filter.2 ⟨hm, by simpa using hmem⟩)
  · exact .pure fun hnone => by cases hnone
  · exact .pure fun hnone => by cases hnone

theorem gives_hollow {a : Activity} (h : a.Aimed c.activity) (n : Nat)
    (hn : c.activity.stmts.size - id ≤ n) (halone : c.activity.StandsAlone id) :
    Gives (stmt c n id) fun r => r = none → c.activity.Hollow id := by
  have hb := h.keeps.wellBuilt h.wellBuilt
  induction n generalizing id with
  | zero =>
    have hlt : @LT.lt Nat _ id c.activity.stmts.size := halone.1
    omega
  | succ n ih =>
    have hpart := halone.2
    rw [hb.ordered.tag] at hpart
    have hl : ∀ m ∈ (c.activity.kind id).inner,
        Gives (stmt c n m) fun r => r = none → c.activity.Hollow m := fun m hm => by
      have hlt : @LT.lt Nat _ id m := hb.ordered.after id m (StmtKind.inner_subset _ m hm)
      exact ih (by omega) (h.standsAlone_inner id m hm)
    have hsome : ∀ {x : Lower (Option Node)}, (Gives x fun r => r.isSome = true) →
        Gives x fun r => r = none → c.activity.Hollow id :=
      fun hx => hx.mono fun r hr hnone => by rw [hnone] at hr; cases hr
    unfold stmt stmtWith
    cases hk : c.activity.kind id
    case empty => exact .pure fun _ => .empty hk
    case code => exact fun _ _ => .code (by rw [hb.ordered.tag, hk]; rfl)
    case sequence members => exact gives_hollow_sequence hb hk (by rwa [hk] at hl)
    case raise exception => cases exception <;> exact hsome fun _ => rfl
    case forEach item _ _ _ _ =>
      obtain ⟨store, hstore, -⟩ := (hb.ordered.linked id).item item (by rw [hk]; rfl)
      unfold forEach
      simp only [hstore]
      exact hsome fun _ => rfl
    case transactedReceive request body =>
      have hservice := h.tag_request id request (by rw [hk]; rfl)
      rw [hk] at hl
      refine (Gives.any _).bind fun vars _ =>
        (hl request mem_cons_self).bind fun r hr => ?_
      cases r with
      | none => exact absurd hservice ((hr rfl).tag_ne_service hb.ordered)
      | some r => exact hsome fun _ => rfl
    case handler | pickBranch | state | transition | transitionBody | flowStep | flowIf |
        flowSwitch =>
      simp [hk, StmtKind.tag, StmtTag.isPart] at hpart
    all_goals exact hsome fun _ => rfl

theorem hollow_of_renders {a : Activity} (h : a.Aimed c.activity)
    (halone : c.activity.StandsAlone id) (hr : Renders c id none) : c.activity.Hollow id := by
  obtain ⟨n, hn, l, hl⟩ := hr
  exact gives_hollow h n hn halone l hl

end Hollow

/-! ### States -/

variable {c : LowerContext} {a : Activity} {labels : List (Option String)}

theorem isNone_of_yields_optionalRestricted (h : Yields (optionalRestricted c f ty slot) v) :
    v.isNone = f.isNone := by
  obtain ⟨l, rfl⟩ := h
  cases f <;> rfl

theorem DrawnBody.isOpen (h : DrawnBody c labels trigger (a.kind m) t) (i : Option Nat) :
    (if t.isOpen i then 1 else 0) = if trigger = i then (a.openBody m).length else 0 := by
  unfold openBody
  cases hk : a.kind m <;> rw [hk] at h <;> cases h
  case transitionBody condition action target v r goal hv hr hi =>
    have hnone := isNone_of_yields_optionalRestricted hv
    simp only [TransitionNode.isOpen, TransitionNode.trigger, TransitionNode.condition, hnone]
    cases condition <;> simp

theorem DrawnBody.countP
    (h : Forall₂ (fun m => DrawnBody c labels trigger (a.kind m)) bodies own) (i : Option Nat) :
    own.countP (·.isOpen i) = if trigger = i then (bodies.flatMap a.openBody).length else 0 := by
  induction h with
  | nil => simp
  | cons hm _ ih =>
    rw [countP_cons, ih, hm.isOpen, flatMap_cons, length_append]
    split <;> omega

namespace DrawnTransitions

variable {before : Nat} {ts : List StmtId} {triggers : List Node} {xs : List TransitionNode}

theorem le_trigger (h : DrawnTransitions c a labels before ts triggers xs) :
    ∀ t ∈ xs, ∀ i ∈ t.trigger, before ≤ i := by
  induction h with
  | nil => exact fun t ht => by cases ht
  | @cons before id rest trigger bodies node own triggers others hk hnode hown hrest ih =>
    intro t ht i hi
    rcases mem_append.1 ht with ht | ht
    · obtain ⟨m, -, hm⟩ := exists_of_forall₂ hown ht
      rw [hm.trigger_eq] at hi
      obtain ⟨_, _, heq⟩ := Option.map_eq_some_iff.1 hi
      exact Nat.le_of_eq heq
    · exact Nat.le_trans (Nat.le_add_right _ _) (ih t ht i hi)

theorem countP_of_lt (h : DrawnTransitions c a labels before ts triggers xs)
    (hi : i < before) : xs.countP (·.isOpen (some i)) = 0 := by
  rw [countP_eq_zero]
  intro t ht hopen
  have htrigger : t.trigger = some i := by
    rw [TransitionNode.isOpen, Bool.and_eq_true, beq_iff_eq] at hopen
    exact hopen.1
  have hle := h.le_trigger t ht i htrigger
  omega

theorem length_openBody (hk : a.kind id = .transition (some trigger) bodies)
    (h : a.transitionErrors names state id = []) : (bodies.flatMap a.openBody).length ≤ 1 := by
  rw [transitionErrors, hk, append_eq_nil_iff] at h
  exact a.length_le_one_of_ambiguityErrors h.2

/-- One body at most is taken on a trigger under no condition. -/
theorem countP_some (h : DrawnTransitions c a labels before ts triggers xs)
    (herrors : ∀ t ∈ ts, a.transitionErrors names state t = []) (i : Nat) :
    xs.countP (·.isOpen (some i)) ≤ 1 := by
  induction h with
  | nil => simp
  | @cons before id rest trigger bodies node own triggers others hk hnode hown hrest ih =>
    obtain ⟨herror, herrors⟩ := forall_mem_cons.1 herrors
    rw [countP_append, DrawnBody.countP hown]
    split
    case isTrue heq =>
      -- The trigger is that of this transition, so the others come after it.
      obtain ⟨n, rfl, rfl⟩ := Option.map_eq_some_iff.1 heq
      rw [hrest.countP_of_lt (by simp)]
      cases trigger with
      | none => cases hnode
      | some trigger => exact length_openBody hk herror
    case isFalse => simpa using ih herrors

/-- The bodies taken without a trigger and under no condition are those declared so, and one at most
for each trigger that yields no node. -/
theorem countP_none (h : DrawnTransitions c a labels before ts triggers xs)
    (herrors : ∀ t ∈ ts, a.transitionErrors names state t = []) {P : StmtId → Prop}
    (hP : ∀ t ∈ ts.filterMap a.triggerOf, Renders c t none → P t) :
    ∃ missing : List StmtId, missing.Sublist (ts.filterMap a.triggerOf) ∧ (∀ t ∈ missing, P t) ∧
      triggers.length + missing.length = (ts.filterMap a.triggerOf).length ∧
      xs.countP (·.isOpen none) ≤ (ts.flatMap a.untriggered).length + missing.length := by
  induction h with
  | nil => exact ⟨[], .slnil, forall_mem_nil _, rfl, by simp⟩
  | @cons before id rest trigger bodies node own triggers others hk hnode hown hrest ih =>
    obtain ⟨herror, herrors⟩ := forall_mem_cons.1 herrors
    have htrigger : a.triggerOf id = trigger := by rw [triggerOf, hk]
    rw [countP_append, DrawnBody.countP hown, length_append, flatMap_cons,
      length_append, untriggered, hk]
    cases trigger with
    | none =>
      obtain rfl : node = none := hnode
      rw [filterMap_cons_none htrigger] at hP ⊢
      obtain ⟨missing, hsub, hmissing, hlength, hcount⟩ := ih herrors hP
      refine ⟨missing, hsub, hmissing, by simpa using hlength, ?_⟩
      simp only [Option.map_none, if_true]
      omega
    | some trigger =>
      have hle := length_openBody hk herror
      rw [filterMap_cons_some htrigger] at hP ⊢
      obtain ⟨hnone, hP⟩ := forall_mem_cons.1 hP
      obtain ⟨missing, hsub, hmissing, hlength, hcount⟩ := ih herrors hP
      cases node with
      | none =>
        refine ⟨trigger :: missing, hsub.cons_cons _,
          forall_mem_cons.2 ⟨hnone hnode, hmissing⟩, ?_, ?_⟩
        · simp only [Option.toList_none, length_nil, length_cons]
          omega
        · simp only [Option.map_none, if_true, length_nil, length_cons]
          omega
      | some n =>
        refine ⟨missing, hsub.cons _, hmissing, ?_, ?_⟩
        · simp only [Option.toList_some, length_cons, length_nil]
          omega
        · simp only [Option.map_some, reduceCtorEq, if_false, length_nil]
          omega

end DrawnTransitions

theorem Drawn.of_stateMachine (h : Drawn c a k (.stateMachine vars states initial)) :
    ∃ ids start first, k = .stateMachine ids start first ∧ Forall₂
      (fun id => DrawnState c a (states.map fun s => some s.name) (a.kind id)) ids states := by
  cases h with
  | machine hstates => exact ⟨_, _, _, rfl, hstates⟩

end Lower

/-- On each declared trigger one transition at most is taken under no condition. Without a trigger
there may be one more for each trigger that yields no node, and such a trigger is hollow. -/
structure StateNode.LeavesOnce (a : Activity) (declared : List StmtId) (s : StateNode) : Prop where
  triggered : ∀ i, s.opens (some i) ≤ 1
  untriggered : ∃ missing : List StmtId, missing.Sublist declared ∧ (∀ t ∈ missing, a.Hollow t) ∧
    s.triggers.length + missing.length = declared.length ∧ s.opens none ≤ 1 + missing.length

namespace Activity.Aimed

variable {a : Activity} {c : LowerContext} (h : a.Aimed c.activity) {ids : List StmtId}
  {start : Option NodeRef} {first : Option StmtId} {machine : StmtId}

include h

theorem hollow_of_triggersOf (ht : t ∈ a.triggersOf id) (hr : Lower.Renders c t none) :
    c.activity.Hollow t := by
  obtain ⟨transition, -, htrigger⟩ := mem_filterMap.1 ht
  rw [triggerOf] at htrigger
  refine Lower.hollow_of_renders h (h.standsAlone ((h.formed.kind transition).inner t ?_)) hr
  cases hk : a.kind transition <;> rw [hk] at htrigger <;> cases htrigger
  exact mem_cons_self

theorem leavesOnce (hk : a.kind machine = .stateMachine ids start first) (hid : id ∈ ids)
    (hs : Lower.DrawnState c a labels (a.kind id) s) :
    s.LeavesOnce c.activity (a.triggersOf id) := by
  have herrors := Lower.stateErrors_of_aimed h hk hid
  have hhollow : ∀ t ∈ a.triggersOf id, Lower.Renders c t none → c.activity.Hollow t :=
    fun t ht hr => h.hollow_of_triggersOf ht hr
  rw [triggersOf, transitionsOf] at hhollow ⊢
  rw [stateErrors] at herrors
  cases hks : a.kind id <;> rw [hks] at hs <;> cases hs
  case state name isFinal entry exit ts r r' triggers xs hlt hr hr' hts =>
    rw [hks] at herrors hhollow
    rw [append_eq_nil_iff] at herrors
    have htransitions := flatMap_eq_nil_iff.1 herrors.1
    obtain ⟨missing, hsub, hmissing, hlength, hcount⟩ := hts.countP_none htransitions hhollow
    refine ⟨hts.countP_some htransitions, missing, hsub, hmissing, hlength, ?_⟩
    have hle := a.length_le_one_of_ambiguityErrors herrors.2
    exact hcount.trans (Nat.add_le_add_right hle _)

end Activity.Aimed

/-- In a graph, the states of a machine are left by at most one transition under no condition, as
far as their triggers yield nodes. -/
theorem lower_leaves_once {ids ids' : Ids} {unit : Nat} {node : ParseNode} {a : Activity}
    (h : build ids unit node = (.ok a, ids')) (last : Ids) (errors : Diagnostics)
    (herrors : (a.resolve last errors).2.2.errors = errors.errors) (ns : Option String)
    (semantics : SemanticIndex) (maxDepth : Nat) {vars : List VariableDecl}
    {states : List StateNode} {initial : Nat} (hmachine : .stateMachine vars states initial ∈
      ((a.resolve last errors).1.lower ns semantics maxDepth).1.body.jumps) :
    ∃ machine declared start first, a.kind machine = .stateMachine declared start first ∧
      Forall₂ (fun id s => s.LeavesOnce (a.resolve last errors).1 (a.triggersOf id))
        declared states := by
  have haimed : a.Aimed (a.resolve last errors).1 := aimed_resolve h last errors herrors
  obtain ⟨kinds, hkinds, hdrawn⟩ := haimed.jumps_lower
    (c := ⟨(a.resolve last errors).1, semantics, maxDepth⟩) (formed_build h).2 ns
  obtain ⟨machine, -, hmachine⟩ := Lower.exists_of_forall₂ hdrawn (hkinds.mem_iff.2 hmachine)
  obtain ⟨declared, start, first, hk, hstates⟩ := hmachine.of_stateMachine
  refine ⟨machine, declared, start, first, hk, ?_⟩
  have hmem := (forall₂_and_left _ _).2 ⟨fun id (hid : id ∈ declared) => hid, hstates⟩
  exact hmem.imp fun id s hs => haimed.leavesOnce
    (c := ⟨(a.resolve last errors).1, semantics, maxDepth⟩) hk hs.1 hs.2

section Hollow

/-- A machine whose first state waits for nothing, twice. -/
def hollowNode : ParseNode :=
  .main {
    label := "statemachine"
    items := [
      { label := "state", text := some "wait"
        items := [
          { label := "transition"
            members := [("trigger", { label := "empty" }), ("target", .reference "wait")] },
          { label := "transition"
            members := [("trigger", { label := "empty" }), ("target", .reference "done")] }] },
      { label := "final-state", text := some "done" }] }

def NodeKind.states : NodeKind → List StateNode
  | .stateMachine _ states _ => states
  | _ => []

theorem NodeKind.exists_of_states {kind : NodeKind} (h : kind.states ≠ []) :
    ∃ vars initial, kind = .stateMachine vars kind.states initial := by
  cases kind
  case stateMachine vars states initial => exact ⟨vars, initial, rfl⟩
  all_goals exact absurd rfl h

/-- Both triggers are hollow, and both transitions are taken at once. -/
theorem hollowNode_leaves_twice : ∃ a ids',
    build {} 0 hollowNode = (.ok a, ids') ∧ (a.resolve ids' {}).2.2.errors = [] ∧
    ((a.resolve ids' {}).1.lower none {} 64).2 = [] ∧
    ∃ kind ∈ ((a.resolve ids' {}).1.lower none {} 64).1.body.jumps,
      ∃ s ∈ kind.states, s.opens none = 2 := by
  exact hollowNode.exists_of_builds (by decide +kernel)

theorem lower_leaves_once_wiredNode : ∃ a ids' vars states initial,
    build {} 0 wiredNode = (.ok a, ids') ∧ (a.resolve ids' {}).2.2.errors = [] ∧
    (.stateMachine vars states initial ∈ ((a.resolve ids' {}).1.lower none {} 64).1.body.jumps ∧
      states.map (fun s => (s.opens (some 0), s.opens none)) = [(0, 0), (1, 1)]) ∧
    ∃ machine declared start first, a.kind machine = .stateMachine declared start first ∧
      List.Forall₂ (fun id s => s.LeavesOnce (a.resolve ids' {}).1 (a.triggersOf id))
        declared states := by
  obtain ⟨a, ids', h, herrors, kind, hkind, hopens⟩ := wiredNode.exists_of_builds
    (P := fun a ids' => (a.resolve ids' {}).2.2.errors = [] ∧
      ∃ kind ∈ ((a.resolve ids' {}).1.lower none {} 64).1.body.jumps,
        kind.states.map (fun s => (s.opens (some 0), s.opens none)) = [(0, 0), (1, 1)])
    (by decide +kernel)
  obtain ⟨vars, initial, heq⟩ := NodeKind.exists_of_states fun hnil : kind.states = [] => by
    rw [hnil] at hopens
    cases hopens
  rw [heq] at hkind
  exact ⟨a, ids', vars, kind.states, initial, h, herrors, ⟨hkind, hopens⟩,
    lower_leaves_once h ids' {} herrors none {} 64 hkind⟩

end Hollow

end Workflow
