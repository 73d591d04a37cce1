import Workflow.Proofs.Lower.Drawing
import Workflow.Proofs.Resolve.Aimed

/-!
# How flowcharts, state machines and operations are drawn

A lowered flowchart has a node for every declared node, at the same place, and a lowered machine has
a state for every declared state, with all its ways out. A reference by name becomes the place of
what has the name. An operation refers to its request by the identity of that.
-/

namespace Workflow

open List Activity Resolve

variable {id : StmtId} {ids : List StmtId} {m : StmtId}
variable {α : Type} {a : Activity} {k : StmtKind} {i : Nat} {labels : List (Option String)}

/-! ### Lowered parts -/

def FlowNode.name : FlowNode → Option String
  | .step name .. | .decision name .. | .switch name .. => name

def StateNode.name : StateNode → String
  | .mk name .. => name

def StateNode.isFinal : StateNode → Bool
  | .mk _ isFinal .. => isFinal

def TransitionNode.trigger : TransitionNode → Option Nat
  | .mk trigger .. => trigger

def TransitionNode.condition : TransitionNode → Option ValueExpr
  | .mk _ condition .. => condition

namespace Lower

def Yields {α : Type} (x : Lower α) (v : α) : Prop := ∃ l, (x.run l).1 = v

theorem gives_yields (x : Lower α) : Gives x (Yields x) := fun l => ⟨l, rfl⟩

/-- The node stands for the statement: lowering yields it, going down to all that is inside. -/
def Renders (c : LowerContext) (id : StmtId) (r : Option Node) : Prop :=
  ∃ n, c.activity.stmts.size - id ≤ n ∧ Yields (stmt c n id) r

def RendersOption (c : LowerContext) : Option StmtId → Option Node → Prop
  | none, r => r = none
  | some id, r => Renders c id r

/-- The place that a reference leads to carries the name. -/
def Leads (labels : List (Option String)) (r : NodeRef) (i : Nat) : Prop :=
  labels[i]? = some (some r.name)

/-- A case of a flowchart switch keeps its key and leads to the node that it names. -/
def DrawnCase (c : LowerContext) (labels : List (Option String)) (ty : Option TypeName)
    (case : FlowCase) (x : FlowSwitchCase) : Prop :=
  Yields (restricted c case.key ty .flowSwitch) x.key ∧ Leads labels case.target x.target

/-- How a flowchart node is drawn; `next` is the place after it. -/
inductive DrawnNode (c : LowerContext) (labels : List (Option String)) (next : Option Nat) :
    StmtKind → FlowNode → Prop
  | step {name action resolved r} (hr : Renders c action r) :
    DrawnNode c labels next (.flowStep name action none resolved) (.step name r next)
  | jump {name action target resolved r i} (hr : Renders c action r) (hi : Leads labels target i) :
    DrawnNode c labels next (.flowStep name action (some target) resolved) (.step name r (some i))
  | decision {name condition onTrue onFalse v i j}
    (hv : Yields (restricted c condition (some .boolean) .flowDecision) v)
    (hi : Option.Rel (Leads labels) onTrue i) (hj : Option.Rel (Leads labels) onFalse j) :
    DrawnNode c labels next (.flowIf name condition onTrue onFalse) (.decision name v i j)
  | switch {name value cases fallback v xs i}
    (hv : Yields (restricted c value none .flowSwitch) v)
    (hcases : Forall₂ (DrawnCase c labels v.ty) cases xs)
    (hi : Option.Rel (Leads labels) fallback i) :
    DrawnNode c labels next (.flowSwitch name value cases fallback) (.switch name v xs i)

/-- How a way out of a state is drawn. -/
inductive DrawnBody (c : LowerContext) (labels : List (Option String)) (trigger : Option Nat) :
    StmtKind → TransitionNode → Prop
  | mk {condition action target v r i}
    (hv : Yields (optionalRestricted c condition (some .boolean) .transitionCondition) v)
    (hr : RendersOption c action r) (hi : Leads labels target i) :
    DrawnBody c labels trigger (.transitionBody condition action target) (.mk trigger v r i)

/-- How transitions are drawn after some triggers: each lists the node of its trigger, if there is
one, and its bodies refer to it. -/
inductive DrawnTransitions (c : LowerContext) (a : Activity) (labels : List (Option String)) :
    Nat → List StmtId → List Node → List TransitionNode → Prop
  | nil (before : Nat) : DrawnTransitions c a labels before [] [] []
  | cons {before id rest trigger bodies node own triggers others}
    (hk : a.kind id = .transition trigger bodies) (hnode : RendersOption c trigger node)
    (hown : Forall₂
      (fun m => DrawnBody c labels (node.map fun _ => before) (a.kind m)) bodies own)
    (hrest : DrawnTransitions c a labels (before + node.toList.length) rest triggers others) :
    DrawnTransitions c a labels before (id :: rest) (node.toList ++ triggers) (own ++ others)

/-- How a state is drawn. -/
inductive DrawnState (c : LowerContext) (a : Activity) (labels : List (Option String)) :
    StmtKind → StateNode → Prop
  | mk {name isFinal entry exit transitions r r' triggers ts}
    (hentry : RendersOption c entry r) (hexit : RendersOption c exit r')
    (hts : DrawnTransitions c a labels 0 transitions triggers ts)
    (htrigger : ∀ t ∈ ts, ∀ i ∈ t.trigger, i < triggers.length) :
    DrawnState c a labels (.state name isFinal entry exit transitions)
      (.mk name isFinal r r' triggers ts)

/-- How a flowchart or a state machine is drawn. -/
inductive Drawn (c : LowerContext) (a : Activity) : StmtKind → NodeKind → Prop
  | flowchart {ids start vars nodes} (hlength : nodes.length = ids.length)
    (hnode : ∀ (i : Nat) id n, ids[i]? = some id → nodes[i]? = some n →
      DrawnNode c (nodes.map FlowNode.name) (if i + 1 < nodes.length then some (i + 1) else none)
        (a.kind id) n) :
    Drawn c a (.flow ids start) (.flowchart vars nodes (if nodes.isEmpty then none else some 0))
  | machine {ids start first vars states initial s}
    (hstates : Forall₂
      (fun id => DrawnState c a (states.map fun s => some s.name) (a.kind id)) ids states)
    (hinitial : states[initial]? = some s) (hfinal : s.isFinal = false)
    (hnamed : ∀ r ∈ start, s.name = r.name)
    (hfirst : start = none → ∀ s ∈ states.take initial, s.isFinal = true) :
    Drawn c a (.stateMachine ids start first) (.stateMachine vars states initial)

/-- How an operation is drawn. -/
structure DrawnOperation (c : LowerContext) (i : StmtId) (op : ServiceOperation)
    (m : ServiceKind × MessagingNode) : Prop where
  kind : m.1 = op.kind
  id : m.2.id = messagingId i op
  request : m.2.request = op.request.bind fun q => (c.activity.service? q).map (messagingId q)
  contract : m.2.contract = op.contract
  operation : m.2.operation = op.operation

/-- How a landmark is drawn. -/
inductive DrawnLandmark (c : LowerContext) (a : Activity) (i : StmtId) (kind : NodeKind) : Prop
  | jump (drawn : Drawn c a (a.kind i) kind)
  | operation {op : ServiceOperation} {m : ServiceKind × MessagingNode}
    (service : c.activity.service? i = some op) (message : kind.message? = some m)
    (drawn : DrawnOperation c i op m)

theorem Drawn.isJump {kind : NodeKind} (h : Drawn c a k kind) :
    k.tag.isJump = true ∧ kind.isJump = true ∧ kind.message? = none := by
  cases h <;> exact ⟨rfl, rfl, rfl⟩

theorem gives_drawnOperation {c : LowerContext} {i : StmtId} {op : ServiceOperation} :
    Gives (messaging c i op) fun n =>
      ∃ m, n.kind.message? = some m ∧ DrawnOperation c i op m := by
  have hdrawn : ∀ m : MessagingNode, DrawnOperation c i op (op.kind, m) →
      ∃ m', (messagingKind op.kind m).message? = some m' ∧ DrawnOperation c i op m' := by
    intro m hm
    refine ⟨(op.kind, m), ?_, hm⟩
    cases op.kind <;> rfl
  refine (Gives.any _).bind fun _ _ => (Gives.any _).bind fun _ _ => ?_
  split <;> exact (Gives.any _).bind fun _ _ => (Gives.any _).bind fun _ _ =>
    .pure (hdrawn _ ⟨rfl, rfl, rfl, rfl, rfl⟩)

/-! ### Places -/

theorem position?_of_mem (h : id ∈ ids) : ∃ i, position? ids id = some i ∧ ids[i]? = some id := by
  obtain ⟨i, hi⟩ : ∃ i, position? ids id = some i := by
    rw [← Option.isSome_iff_exists, position?, findIdx?_isSome]
    exact any_eq_true.2 ⟨id, h, beq_self_eq_true id⟩
  obtain ⟨hlt, heq, -⟩ := findIdx?_eq_some_iff_getElem.1 hi
  exact ⟨i, hi, by rw [getElem?_eq_getElem hlt, beq_iff_eq.1 heq]⟩

theorem position?_of_nodup (hnodup : ids.Nodup) (h : ids[i]? = some id) :
    position? ids id = some i := by
  obtain ⟨j, hj, hid⟩ := position?_of_mem (mem_of_getElem? h)
  obtain ⟨hlt, -⟩ := List.getElem?_eq_some_iff.1 h
  rw [hj, (getElem?_inj hlt hnodup).1 (h.trans hid.symm)]

/-- A reference that names something leads to the place of what it names. -/
theorem leads_of_missing (h : r.missing (named a ids) = []) :
    ∃ i, target? ids (r.aim (named a ids)) = some i ∧
      Leads (ids.map fun id => (a.kind id).nodeName) r i := by
  obtain ⟨id, hname, hresolved⟩ := NodeRef.resolved_aim_of_missing h
  obtain ⟨hmem, hlabel⟩ := mem_of_named hname
  obtain ⟨i, hi, hid⟩ := position?_of_mem hmem
  refine ⟨i, by rw [target?, hresolved, Option.bind_some, hi], ?_⟩
  rw [Leads, getElem?_map, hid, Option.map_some, hlabel]

theorem leads_option_of_missing (h : ∀ x ∈ r, x.missing (named a ids) = []) :
    Option.Rel (Leads (ids.map fun id => (a.kind id).nodeName)) r
      ((r.map (·.aim (named a ids))).bind (target? ids)) := by
  cases r with
  | none => exact .none
  | some r =>
    obtain ⟨i, hi, hleads⟩ := leads_of_missing (h r rfl)
    rw [Option.map_some, Option.bind_some, hi]
    exact .some hleads

/-! ### Lists of parts -/

theorem forall₂_getElem? {β : Type} {R : α → β → Prop} {xs : List α} {ys : List β}
    (h : Forall₂ R xs ys) {x : α} {y : β} (hx : xs[i]? = some x) (hy : ys[i]? = some y) : R x y := by
  obtain ⟨hi, rfl⟩ := List.getElem?_eq_some_iff.1 hx
  obtain ⟨hi', rfl⟩ := List.getElem?_eq_some_iff.1 hy
  exact h.get hi hi'

theorem exists_of_forall₂ {β : Type} {R : α → β → Prop} {xs : List α} {ys : List β}
    (h : Forall₂ R xs ys) {y : β} (hy : y ∈ ys) : ∃ x ∈ xs, R x y := by
  obtain ⟨i, hi⟩ := mem_iff_getElem?.1 hy
  obtain ⟨hlt, -⟩ := List.getElem?_eq_some_iff.1 hi
  have hx := getElem?_eq_getElem (h.length_eq ▸ hlt)
  exact ⟨_, mem_of_getElem? hx, forall₂_getElem? h hx hi⟩

theorem map_eq_of_forall₂ {β γ : Type} {f : α → γ} {g : β → γ} {xs : List α} {ys : List β}
    (h : Forall₂ (fun x y => f x = g y) xs ys) : xs.map f = ys.map g := by
  rw [← forall₂_eq_eq_eq, forall₂_map_left_iff, forall₂_map_right_iff]
  exact h

theorem forall₂_filterMap {β γ : Type} {R : α → β → Prop} {S : α → γ → Prop} {p : α → Bool}
    {f : β → Option γ} {xs : List α} {ys : List β} (h : Forall₂ R xs ys)
    (hsome : ∀ x y, R x y → p x = true → ∃ z, f y = some z ∧ S x z)
    (hnone : ∀ x y, R x y → p x = false → f y = none) :
    Forall₂ S (xs.filter p) (ys.filterMap f) := by
  induction h with
  | nil => exact .nil
  | @cons x y _ _ hxy _ ih =>
    cases hx : p x with
    | true =>
      obtain ⟨z, hz, hS⟩ := hsome x y hxy hx
      rw [filter_cons_of_pos hx, filterMap_cons_some hz]
      exact .cons hS ih
    | false =>
      rw [filter_cons_of_neg (by simp [hx]), filterMap_cons_none (hnone x y hxy hx)]
      exact ih

theorem gives_forall₂ {β : Type} {R : α → β → Prop} {f : α → Lower (Option β)} {xs : List α}
    (hf : ∀ x ∈ xs, Gives (f x) fun o => ∃ y, o = some y ∧ R x y) :
    Gives (xs.filterMapM f) (Forall₂ R xs) := by
  induction xs with
  | nil => exact .pure .nil
  | cons x xs ih =>
    rw [filterMapM_cons]
    refine (hf x mem_cons_self).bind ?_
    rintro _ ⟨y, rfl, hy⟩
    exact (ih fun x hx => hf x (mem_cons_of_mem _ hx)).bind fun ys hys =>
      .pure (.cons hy hys)

section Inner

variable {c : LowerContext} {n : Nat}

theorem gives_renders (h : c.activity.stmts.size - id ≤ n) : Gives (stmt c n id) (Renders c id) :=
  fun l => ⟨n, h, l, rfl⟩

theorem gives_rendersOption {id : Option StmtId} (h : ∀ m ∈ id, c.activity.stmts.size - m ≤ n) :
    Gives (optional (stmt c n) id) (RendersOption c id) := by
  cases id with
  | none => exact .pure rfl
  | some id => exact gives_renders (h id rfl)

end Inner

/-! ### Flowcharts -/

section Flowcharts

variable {c : LowerContext} {a : Activity} {ids : List StmtId}

/-- Every node of a flowchart gets its jumps once, with the node after it. -/
theorem aimNodes_of_getElem? {names : String → Option StmtId} (hnodup : ids.Nodup)
    (h : ids[i]? = some m) (k : StmtKind) :
    aimNodes names ids m k = k.aimFlow names ids[i + 1]? := by
  induction ids generalizing i with
  | nil => cases h
  | cons id rest ih =>
    obtain ⟨hid, hnodup⟩ := nodup_cons.1 hnodup
    cases i with
    | zero =>
      cases h
      rw [aimNodes, if_pos rfl, getElem?_cons_succ, head?_eq_getElem?]
    | succ i =>
      have hm : m ≠ id := by
        rintro rfl
        exact hid (mem_of_getElem? h)
      rw [aimNodes, if_neg hm, getElem?_cons_succ]
      exact ih hnodup h

theorem bind_position? (hnodup : ids.Nodup) (i : Nat) :
    ids[i]?.bind (position? ids) = if i < ids.length then some i else none := by
  split
  case isTrue h =>
    have hget := getElem?_eq_getElem h
    rw [hget, Option.bind_some, position?_of_nodup hnodup hget]
  case isFalse h => rw [getElem?_eq_none (Nat.le_of_not_lt h), Option.bind_none]

theorem gives_drawnCases (ty : Option TypeName)
    (h : ∀ case ∈ cases, case.target.missing (named a ids) = []) : Gives ((cases.map fun case =>
        { case with target := case.target.aim (named a ids) }).filterMapM (flowCase c ids ty))
      (Forall₂ (DrawnCase c (ids.map fun id => (a.kind id).nodeName) ty) cases) := by
  induction cases with
  | nil => exact .pure .nil
  | cons case rest ih =>
    obtain ⟨hcase, hrest⟩ := forall_mem_cons.1 h
    obtain ⟨i, hi, hleads⟩ := leads_of_missing hcase
    have hone : Gives (flowCase c ids ty
        { case with target := case.target.aim (named a ids) }) fun o => ∃ x, o = some x ∧
          DrawnCase c (ids.map fun id => (a.kind id).nodeName) ty case x := by
      refine (gives_yields _).bind fun key hkey => .pure ?_
      rw [hi]
      exact ⟨_, rfl, hkey, hleads⟩
    rw [map_cons, filterMapM_cons]
    refine hone.bind ?_
    rintro _ ⟨x, rfl, hx⟩
    exact (ih hrest).bind fun xs hxs => .pure (.cons hx hxs)

theorem gives_drawnNode (h : a.Aimed c.activity)
    (hk : a.kind id = .flow ids start) (hn : c.activity.stmts.size - id ≤ n + 1)
    (hm : ids[i]? = some m) : Gives (flowNode c (stmt c n) ids m) fun o => ∃ x, o = some x ∧
      x.name = (a.kind m).nodeName ∧
      DrawnNode c (ids.map fun id => (a.kind id).nodeName)
        (if i + 1 < ids.length then some (i + 1) else none) (a.kind m) x := by
  have hmem := mem_of_getElem? hm
  have hnodup : ids.Nodup := by
    have hnodup := h.wellBuilt.nodup_children id
    rwa [hk] at hnodup
  have htag := (h.wellBuilt.part_nodes hk hmem).1
  rw [h.wellBuilt.ordered.tag] at htag
  have hlt : @LT.lt Nat _ id m := h.wellBuilt.ordered.after id m (by rw [hk]; exact hmem)
  have herrors : ∀ r ∈ (a.kind m).flowRefs, r.missing (named a ids) = [] := by
    have herrors := h.errors id
    rw [jumpErrors, hk] at herrors
    exact flatMap_eq_nil_iff.1 (flatMap_eq_nil_iff.1 herrors m hmem)
  have hb := h.node hk hmem
  rw [aimNodes_of_getElem? hnodup hm] at hb
  unfold flowNode
  rw [hb]
  cases hkm : a.kind m
  case flowStep name action next resolved =>
    rw [hkm] at herrors
    have haction : c.activity.stmts.size - action ≤ n := by
      have hafter : @LT.lt Nat _ m action :=
        h.wellBuilt.ordered.after m action (by rw [hkm]; exact mem_cons_self)
      omega
    cases next with
    | none =>
      refine (gives_renders haction).bind fun r hr => .pure ⟨_, rfl, rfl, ?_⟩
      rw [bind_position? hnodup]
      exact .step hr
    | some target =>
      obtain ⟨i, hi, hleads⟩ := leads_of_missing (herrors target (by simp [StmtKind.flowRefs]))
      refine (gives_renders haction).bind fun r hr => .pure ⟨_, rfl, rfl, ?_⟩
      change DrawnNode _ _ _ _ (.step _ _ (target? ids _))
      rw [hi]
      exact .jump hr hleads
  case flowIf name condition onTrue onFalse =>
    rw [hkm] at herrors
    simp only [StmtKind.flowRefs, forall_mem_append, Option.mem_toList] at herrors
    refine (gives_yields _).bind fun v hv => .pure ⟨_, rfl, rfl, ?_⟩
    exact .decision hv (leads_option_of_missing herrors.1) (leads_option_of_missing herrors.2)
  case flowSwitch name value cases fallback =>
    rw [hkm] at herrors
    simp only [StmtKind.flowRefs, forall_mem_append, forall_mem_map,
      Option.mem_toList] at herrors
    refine (gives_yields _).bind fun v hv => ?_
    refine (gives_drawnCases v.ty herrors.1).bind fun xs hxs => .pure ⟨_, rfl, rfl, ?_⟩
    exact .switch hv hxs (leads_option_of_missing herrors.2)
  all_goals simp [hkm, StmtKind.tag] at htag

/-- A flowchart is drawn as it was declared. -/
theorem gives_drawnFlow (h : a.Aimed c.activity)
    (hk : a.kind id = .flow ids start) (hn : c.activity.stmts.size - id ≤ n + 1) :
    Gives (flowchart c (stmt c n) id ids ids.head?) (Drawn c a (a.kind id)) := by
  have hnodup : ids.Nodup := by
    have hnodup := h.wellBuilt.nodup_children id
    rwa [hk] at hnodup
  have hnodes : Gives (ids.filterMapM (flowNode c (stmt c n) ids)) (Forall₂ (fun m x =>
      ∃ i, ids[i]? = some m ∧ (a.kind m).nodeName = FlowNode.name x ∧
        DrawnNode c (ids.map fun id => (a.kind id).nodeName)
          (if i + 1 < ids.length then some (i + 1) else none) (a.kind m) x) ids) := by
    refine gives_forall₂ fun m hm => ?_
    obtain ⟨i, hi⟩ := mem_iff_getElem?.1 hm
    refine (gives_drawnNode h hk hn hi).mono ?_
    rintro _ ⟨x, rfl, hname, hx⟩
    exact ⟨x, rfl, i, hi, hname.symm, hx⟩
  refine (Gives.any _).bind fun vars _ => hnodes.bind fun nodes hnodes => .pure ?_
  have hlength := hnodes.length_eq
  have hlabels : (ids.map fun id => (a.kind id).nodeName) = nodes.map FlowNode.name :=
    map_eq_of_forall₂ (hnodes.imp fun _ _ ⟨_, _, hname, _⟩ => hname)
  have hstart : ids.head?.bind (position? ids) = if nodes.isEmpty then none else some 0 := by
    rw [head?_eq_getElem?, bind_position? hnodup, hlength]
    cases nodes <;> simp
  rw [hstart, hk]
  refine .flowchart hlength.symm fun i m x hm hx => ?_
  obtain ⟨j, hj, -, hdrawn⟩ := forall₂_getElem? hnodes hm hx
  obtain ⟨hlt, -⟩ := List.getElem?_eq_some_iff.1 hm
  rwa [← (getElem?_inj hlt hnodup).1 (hm.trans hj.symm), hlabels, hlength] at hdrawn

end Flowcharts

/-! ### State machines -/

section Machines

variable {c : LowerContext} {a : Activity} {ids : List StmtId} {start : Option NodeRef}
  {first : Option StmtId} {n : Nat} {id : StmtId}

theorem gives_drawnBody (h : a.Aimed c.activity) (hk : a.kind id = .stateMachine ids start first)
    (hm : m ∈ a.bodiesOfStates ids) (htag : (a.kind m).tag = .transitionBody)
    (hn : ∀ i ∈ (a.kind m).children, c.activity.stmts.size - i ≤ n)
    (herrors : a.bodyErrors (named a ids) m = []) (trigger : Option Nat) :
    Gives (transitionBody c (stmt c n) ids trigger m) fun o => ∃ t, o = some t ∧
      DrawnBody c (ids.map fun id => (a.kind id).nodeName) trigger (a.kind m) t := by
  have hb := h.body hk hm
  unfold transitionBody
  rw [hb]
  cases hkm : a.kind m
  case transitionBody condition action target =>
    rw [bodyErrors, hkm] at herrors
    rw [hkm] at hn
    obtain ⟨i, hi, hleads⟩ := leads_of_missing herrors
    dsimp only [StmtKind.aimBody]
    rw [hi]
    refine (gives_yields _).bind fun v hv => (gives_rendersOption fun m hm => hn m ?_).bind
      fun r hr => .pure ⟨_, rfl, .mk hv hr hleads⟩
    exact Option.mem_toList.2 hm
  all_goals simp [hkm, StmtKind.tag] at htag

/-- Every way out of a state is drawn once. -/
theorem gives_drawnTransitions (h : a.Aimed c.activity)
    (hk : a.kind id = .stateMachine ids start first) {state : String} {ts : List StmtId}
    (hts : ∀ t ∈ ts, (a.kind t).tag = .transition ∧ a.bodiesOf t ⊆ a.bodiesOfStates ids)
    (hn : ∀ t ∈ ts, c.activity.stmts.size - t ≤ n)
    (herrors : ∀ t ∈ ts, a.transitionErrors (named a ids) state t = []) (triggers : List Node) :
    Gives (transitions c (stmt c n) ids triggers ts) fun r => ∃ new, r.1 = triggers ++ new ∧
      DrawnTransitions c a (ids.map fun id => (a.kind id).nodeName) triggers.length ts new r.2 := by
  induction ts generalizing triggers with
  | nil => exact .pure ⟨[], (append_nil _).symm, .nil _⟩
  | cons t rest ih =>
    obtain ⟨⟨htag, hbodies⟩, hts⟩ := forall_mem_cons.1 hts
    obtain ⟨ht, hn⟩ := forall_mem_cons.1 hn
    obtain ⟨herror, herrors⟩ := forall_mem_cons.1 herrors
    have hb : c.activity.kind t = a.kind t := h.part (by
      rw [h.wellBuilt.ordered.tag, htag]
      simp)
    unfold transitions
    rw [hb]
    cases hkt : a.kind t
    case transition trigger bodies =>
      have hinside : ∀ m ∈ (a.kind t).children, c.activity.stmts.size - m ≤ n := fun m hm => by
        have hlt : @LT.lt Nat _ t m := h.wellBuilt.ordered.after t m hm
        omega
      have hpart : ∀ m ∈ bodies, (a.kind m).tag = .transitionBody := fun m hm => by
        have hpart := (h.wellBuilt.part_bodiesOf
          (by rw [bodiesOf, hkt]; exact hm)).1
        rwa [h.wellBuilt.ordered.tag] at hpart
      rw [bodiesOf, hkt] at hbodies
      rw [transitionErrors, hkt, append_eq_nil_iff] at herror
      rw [hkt] at hinside
      refine (gives_rendersOption fun m hm => hinside m ?_).bind fun node hnode => ?_
      · exact mem_append_left _ (Option.mem_toList.2 hm)
      refine (gives_forall₂ (R := fun m =>
        DrawnBody c (ids.map fun id => (a.kind id).nodeName) (node.map fun _ => triggers.length)
          (a.kind m)) fun m hm => ?_).bind fun own hown => ?_
      · refine gives_drawnBody h hk (hbodies hm) (hpart m hm) (fun i hi => ?_)
          (flatMap_eq_nil_iff.1 herror.1 m hm) _
        have hlt : @LT.lt Nat _ m i := h.wellBuilt.ordered.after m i hi
        have hle := hinside m (mem_append_right _ hm)
        omega
      refine (ih hts hn herrors (triggers ++ node.toList)).bind fun r hr => .pure ?_
      obtain ⟨new, hnew, hdrawn⟩ := hr
      refine ⟨node.toList ++ new, by rw [← append_assoc]; exact hnew, ?_⟩
      rw [length_append] at hdrawn
      exact .cons hkt hnode hown hdrawn
    all_goals simp [hkt, StmtKind.tag] at htag

theorem DrawnBody.trigger_eq (h : DrawnBody c labels trigger k t) : t.trigger = trigger := by
  cases h
  rfl

theorem DrawnTransitions.trigger_lt (h : DrawnTransitions c a labels before ts triggers xs) :
    ∀ t ∈ xs, ∀ i ∈ t.trigger, i < before + triggers.length := by
  induction h with
  | nil => exact fun t ht => by cases ht
  | @cons before id rest trigger bodies node own triggers others hk hnode hown hrest ih =>
    intro t ht i hi
    rw [length_append]
    rcases mem_append.1 ht with ht | ht
    · obtain ⟨m, -, hm⟩ := exists_of_forall₂ hown ht
      rw [hm.trigger_eq] at hi
      cases node with
      | none => cases hi
      | some node =>
        obtain rfl : before = i := Option.some.inj hi
        rw [Option.toList_some, length_singleton]
        omega
    · have hlt := ih t ht i hi
      omega

theorem DrawnState.name_eq (h : DrawnState c a labels k s) : k.nodeName = some s.name := by
  cases h
  rfl

theorem DrawnState.isFinal_eq (h : DrawnState c a labels (a.kind id) s) :
    s.isFinal = isFinalState a id := by
  unfold isFinalState
  cases hk : a.kind id <;> rw [hk] at h <;> cases h
  rfl

/-- The errors of the machine are all that there are about its states. -/
theorem stateErrors_of_aimed (h : a.Aimed b)
    (hk : a.kind id = .stateMachine ids start first) (hm : m ∈ ids) :
    a.stateErrors (named a ids) m = [] := by
  have herrors := h.errors id
  rw [jumpErrors, hk, append_eq_nil_iff, append_eq_nil_iff] at herrors
  exact flatMap_eq_nil_iff.1 herrors.2.2 m hm

theorem bodyErrors_of_aimed (h : a.Aimed b)
    (hk : a.kind id = .stateMachine ids start first) (hs : s ∈ ids)
    (ht : t ∈ a.transitionsOf s) (hm : m ∈ a.bodiesOf t) : a.bodyErrors (named a ids) m = [] := by
  have herrors := stateErrors_of_aimed h hk hs
  obtain ⟨name, isFinal, entry, exit, ts, hks, ht⟩ := mem_transitionsOf.1 ht
  obtain ⟨trigger, bodies, hkt, hm⟩ := mem_bodiesOf.1 hm
  rw [stateErrors, hks, append_eq_nil_iff] at herrors
  have herrors := flatMap_eq_nil_iff.1 herrors.1 t ht
  rw [transitionErrors, hkt, append_eq_nil_iff] at herrors
  exact flatMap_eq_nil_iff.1 herrors.1 m hm

theorem gives_drawnState (h : a.Aimed c.activity) (hk : a.kind id = .stateMachine ids start first)
    (hn : c.activity.stmts.size - id ≤ n + 1) (hm : m ∈ ids) :
    Gives (state c (stmt c n) ids m) fun o => ∃ s, o = some s ∧
      DrawnState c a (ids.map fun id => (a.kind id).nodeName) (a.kind m) s := by
  have htag := (h.wellBuilt.part_states hk hm).1
  have hb : c.activity.kind m = a.kind m := h.part (by rw [htag]; simp)
  have hlt : @LT.lt Nat _ id m := h.wellBuilt.ordered.after id m (by rw [hk]; exact hm)
  have herrors := stateErrors_of_aimed h hk hm
  have hinside : ∀ i ∈ (a.kind m).children, c.activity.stmts.size - i ≤ n := fun i hi => by
    have hafter : @LT.lt Nat _ m i := h.wellBuilt.ordered.after m i hi
    omega
  rw [h.wellBuilt.ordered.tag] at htag
  unfold state
  rw [hb]
  cases hkm : a.kind m
  case state name isFinal entry exit ts =>
    rw [hkm] at hinside
    rw [stateErrors, hkm, append_eq_nil_iff] at herrors
    have htsof : a.transitionsOf m = ts := by rw [transitionsOf, hkm]
    have hts : ∀ t ∈ ts, (a.kind t).tag = .transition ∧ a.bodiesOf t ⊆ a.bodiesOfStates ids := by
      intro t ht
      have hpart := (h.wellBuilt.part_transitionsOf (htsof ▸ ht)).1
      rw [h.wellBuilt.ordered.tag] at hpart
      refine ⟨hpart, fun b hb => mem_flatMap.2 ⟨m, hm, mem_flatMap.2 ⟨t, ?_, hb⟩⟩⟩
      exact htsof ▸ ht
    refine (gives_rendersOption fun i hi => hinside i ?_).bind fun r hr => ?_
    · exact mem_append_left _ (mem_append_left _ (Option.mem_toList.2 hi))
    refine (gives_rendersOption fun i hi => hinside i ?_).bind fun r' hr' => ?_
    · exact mem_append_left _ (mem_append_right _ (Option.mem_toList.2 hi))
    refine (gives_drawnTransitions h hk hts
      (fun t ht => hinside t (mem_append_right _ ht))
      (flatMap_eq_nil_iff.1 herrors.1) []).bind fun x hx => .pure ⟨_, rfl, ?_⟩
    obtain ⟨new, hnew, hdrawn⟩ := hx
    rw [hnew]
    refine .mk hr hr' hdrawn fun t ht i hi => ?_
    have hlt := hdrawn.trigger_lt t ht i hi
    rwa [length_nil, Nat.zero_add] at hlt
  all_goals simp [hkm, StmtKind.tag] at htag

/-- The start of a machine that is found: the state that is named, or else the first one that is not
final. -/
theorem startOf_spec (h : a.startErrors id ids start = []) :
    ∃ m i, a.startOf ids start = some m ∧ ids[i]? = some m ∧ position? ids m = some i ∧
      isFinalState a m = false ∧
      (∀ r ∈ start, (a.kind m).nodeName = some r.name) ∧
      (start = none → ∀ s ∈ ids.take i, isFinalState a s = true) := by
  cases start with
  | some r =>
    rw [startErrors, append_eq_nil_iff] at h
    obtain ⟨m, hname, hm⟩ := NodeRef.resolved_aim_of_missing h.1
    obtain ⟨hmem, hlabel⟩ := mem_of_named hname
    obtain ⟨i, hi, hget⟩ := position?_of_mem hmem
    have hstart : a.startOf ids (some r) = some m := hm
    refine ⟨m, i, hstart, hget, hi, ?_, fun _ hr => Option.mem_some_iff.1 hr ▸ hlabel, fun hr => ?_⟩
    · have hfinal := h.2
      rw [hstart, Option.any_some] at hfinal
      by_contra hne
      rw [if_pos (by simpa using hne)] at hfinal
      cases hfinal
    · cases hr
  | none =>
    rw [startErrors] at h
    obtain ⟨m, hm⟩ : ∃ m, a.startOf ids none = some m := by
      cases hm : a.startOf ids none with
      | some m => exact ⟨m, rfl⟩
      | none =>
        rw [hm] at h
        cases h
    obtain ⟨hfinal, before, after, hids, hbefore⟩ := find?_eq_some_iff_append.1 hm
    have hbefore : ∀ s ∈ before, isFinalState a s = true := by simpa using hbefore
    have hnot : m ∉ before := fun hmem => by
      rw [hbefore m hmem] at hfinal
      cases hfinal
    refine ⟨m, before.length, hm, ?_, ?_, by simpa using hfinal,
      fun r hr => (by cases hr), ?_⟩
    · rw [hids, getElem?_append_right (Nat.le_refl _), Nat.sub_self]
      rfl
    · rw [hids, position?, findIdx?_append, findIdx?_eq_none_iff.2 ?_]
      · simp [findIdx?_cons]
      · intro s hs
        simp only [beq_eq_false_iff_ne]
        exact fun heq => hnot (heq ▸ hs)
    · rw [hids, take_left]
      exact fun _ => hbefore

theorem gives_drawnMachine (h : a.Aimed c.activity) (hk : a.kind id = .stateMachine ids start first)
    (hn : c.activity.stmts.size - id ≤ n + 1) :
    Gives (stateMachine c (stmt c n) id ids (a.startOf ids start)) (Drawn c a (a.kind id)) := by
  obtain ⟨m, i, hstart, hm, hi, hfinal, hnamed, hfirst⟩ := startOf_spec (h.startErrors_eq hk)
  refine (Gives.any _).bind fun vars _ =>
    (gives_forall₂ fun m hm => gives_drawnState h hk hn hm).bind fun states hstates => ?_
  rw [hstart, Option.bind_some, hi]
  refine .pure ?_
  have hlabels : (ids.map fun id => (a.kind id).nodeName) = states.map fun s => some s.name :=
    map_eq_of_forall₂ (hstates.imp fun _ _ hs => hs.name_eq)
  obtain ⟨hlt, -⟩ := List.getElem?_eq_some_iff.1 hm
  have hs := getElem?_eq_getElem (hstates.length_eq ▸ hlt)
  have hdrawn := forall₂_getElem? hstates hm hs
  have hstates' := hstates
  rw [hlabels] at hstates'
  rw [hk]
  refine .machine hstates' hs (hdrawn.isFinal_eq.trans hfinal) (fun r hr => ?_) fun hnone s hs => ?_
  · exact Option.some.inj (hdrawn.name_eq.symm.trans (hnamed r hr))
  · obtain ⟨m', hm', hs'⟩ := exists_of_forall₂ (forall₂_take i hstates) hs
    rw [hs'.isFinal_eq]
    exact hfirst hnone m' hm'

end Machines

end Lower

end Workflow
