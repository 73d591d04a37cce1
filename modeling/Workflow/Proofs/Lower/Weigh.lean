import Mathlib.Algebra.BigOperators.Group.List.Basic
import Mathlib.Algebra.Order.BigOperators.Group.List
import Mathlib.Data.Multiset.OrderedMonoid
import Workflow.Proofs.Graph.Weight
import Workflow.Proofs.Lower.Walk

/-!
# The weight of a lowered activity

A statement is lowered to a tree that weighs what its own fragments and the statements inside it do.
The condition of a loop that is tested before each iteration is lowered twice. Sequences lower each
chain of code with its first statement, so all statements of a well-built activity are lowered, each
once.
-/

namespace Workflow

open Lower LowerContext Node List VariableDecl

variable {β : Type}

/-- How much fragments and code weigh when they are lowered. -/
structure Amounts (β : Type) where
  slot : Fragment → Multiset β
  code : List CodeStmt × Option StoreId → Multiset β

def Amounts.own (h : Amounts β) : StmtKind → Multiset β
  | .code f _ initializes => h.code (f.body, initializes)
  | .loop condition _ false => h.slot condition + h.slot condition
  | kind => (kind.slots.map h.slot).sum

/-- The fragments of an activity weigh as much as is said when they are lowered without errors. -/
structure Amounts.Measure (h : Amounts β) (c : LowerContext) (w : Weighing β) : Prop where
  lawful : w.Lawful
  handle : ∀ st ∈ c.activity.stores, w.expr st.handle = 0
  value : ∀ i, ∀ f ∈ (c.activity.kind i).slots, ∀ ty, Clean (value c f ty) fun r =>
    w.expr r.1.expr = 0 ∧ Weightless w r.2.vars ∧
      weights w r.2.nodes = h.slot f
  restricted : ∀ i, ∀ f ∈ (c.activity.kind i).slots, ∀ ty slot, Clean (restricted c f ty slot)
    fun v => w.expr v.expr = 0 ∧ h.slot f = 0
  named : ∀ i, ∀ f ∈ (c.activity.kind i).slots, ∀ st, c.namedStore? f.expr = some st →
    h.slot f = 0
  /-- The endpoint of an operation that does not send is not lowered. -/
  endpoint : ∀ i op, c.activity.kind i = .service op → op.kind ≠ .send →
    ∀ f ∈ op.endpoint, h.slot f = 0
  run : ∀ span, ∀ fs ∈ c.activity.runs, ∀ l u r,
    Stage.fragments { context := c, span := span } fs { lower := l } = .ok u r →
      r.lower.errors.errors = [] → l.errors.errors = [] ∧ r.steps.Generated ∧
        Step.weights w r.steps.flush.steps = (fs.map h.code).sum

/-! ### Chains -/

/-- The code of a chain and what comes after the chain, if nothing is inside code. -/
theorem Activity.sum_chainFragments {M : Type} [AddCommMonoid M] {a : Activity} {T : StmtId → M}
    {q : List CodeStmt × Option StoreId → M}
    (hT : ∀ {i f next init}, a.kind i = .code f next init → T i = q (f.body, init))
    (hchain : a.chainsForward (m :: rest) = true) (htag : (a.kind m).tag = .code) :
    ((a.chainFragments (m :: rest)).map q).sum + ((a.afterChain (m :: rest)).map T).sum =
      ((m :: rest).map T).sum := by
  induction rest generalizing m with
  | nil =>
    cases hk : a.kind m
    case code f next init =>
      cases hnext : next with
      | none =>
        subst hnext
        rw [chainFragments_code hk, afterChain_code hk]
        simp [hT hk]
      | some target =>
        have ht : chainedTo a m = some target := by rw [chainedTo, hk, hnext]
        obtain ⟨_, hrest, -⟩ := of_chainedTo hchain ht
        cases hrest
    all_goals simp [hk, StmtKind.tag] at htag
  | cons next rest ih =>
    cases hk : a.kind m
    case code f chained init =>
      rw [chainFragments_code hk, afterChain_code hk]
      cases hchained : chained with
      | none => simp [hT hk]
      | some target =>
        have ht : chainedTo a m = some target := by rw [chainedTo, hk, hchained]
        obtain ⟨_, hrest, htag'⟩ := of_chainedTo hchain ht
        cases hrest
        have ih := ih (chainsForward_tail hchain) htag'
        rw [Option.isSome_some, if_pos rfl, if_pos rfl, map_cons, sum_cons, add_assoc,
          ih, map_cons (a := m), sum_cons, hT hk]
    all_goals simp [hk, StmtKind.tag] at htag

/-! ### Totals -/

namespace Amounts

variable {c : LowerContext} {w : Weighing β} {h : Amounts β}

def total (h : Amounts β) (a : Activity) : StmtId → Multiset β := a.total fun i => h.own (a.kind i)

theorem own_of_size_le {a : Activity} {i : StmtId} (hi : a.stmts.size ≤ i) :
    h.own (a.kind i) = 0 := by
  rw [Activity.kind_eq_empty hi]
  rfl

theorem own_eq_slotUses (htag : k.tag ≠ .code) : h.own k = (k.slotUses.map h.slot).sum := by
  cases k
  case code => exact absurd rfl htag
  case loop f body testAfter =>
    cases testAfter with
    | true => rfl
    | false => simp [own, StmtKind.slotUses]
  all_goals rfl

theorem total_eq (ha : c.activity.Ordered) {k : StmtKind} (hk : c.activity.kind i = k) :
    h.total c.activity i = h.own k + (k.children.map (h.total c.activity)).sum := by
  subst hk
  exact Activity.total_eq (fun _ => own_of_size_le) ha i

theorem total_cons (ha : c.activity.Ordered)
    (htag : (c.activity.kind i).tag ≠ .code) (fs : List Fragment) (ids : List StmtId) :
    (fs.map h.slot).sum + ((i :: ids).map (h.total c.activity)).sum =
      (((c.activity.kind i).slotUses ++ fs).map h.slot).sum +
        (((c.activity.kind i).children ++ ids).map (h.total c.activity)).sum := by
  rw [map_cons, sum_cons, total_eq ha rfl, own_eq_slotUses htag]
  simp only [map_append, sum_append]
  abel

theorem weight_mk {name : Option String} {kind : NodeKind} (haction : kind.action w = 0)
    (hslots : ∀ e ∈ kind.slots, w.expr e = 0) :
    (Node.mk name kind).weight w = Node.weights w kind.children := by
  have hzero : (kind.slots.map w.expr).sum = 0 := sum_eq_zero fun x hx => by
    obtain ⟨e, he, rfl⟩ := mem_map.1 hx
    exact hslots e he
  rw [Node.weight_mk, NodeKind.weight, haction, hzero, zero_add, zero_add]

/-- Code is lowered together with the code that it is chained to. -/
theorem Measure.codeRun (hm : h.Measure c w) (ha : c.activity.Ordered) {m : StmtId}
    {rest : List StmtId} (hstarts : c.activity.Starts m rest)
    (htag : (c.activity.kind m).tag = .code) : Clean (codeRun c m) fun r => weights w r.toList +
      ((c.activity.afterChain (m :: rest)).map (h.total c.activity)).sum =
        ((m :: rest).map (h.total c.activity)).sum := by
  unfold Lower.codeRun
  dsimp only
  rw [codeChain_eq hstarts.forward hstarts.ascending (Nat.sub_le _ _)]
  refine Clean.stage (T := fun _ steps => steps.Generated ∧
    Step.weights w steps.flush.steps = ((c.activity.chainFragments (m :: rest)).map h.code).sum)
    (fun l u r hstage hclean => ?_) (fun _ steps => .pure fun ⟨hgen, hsteps⟩ => ?_)
    fun e _ => (Clean.reportError e).bind fun _ => .pure fun h => h
  · exact hm.run _ _ hstarts.run l u r hstage hclean
  · rw [StepList.weights_finish hm.lawful hgen, hsteps]
    refine Activity.sum_chainFragments (fun hk => ?_) hstarts.forward htag
    rw [total_eq ha hk, StmtKind.children]
    exact add_zero _

/-- Nodes weigh what the slots and the statements do that they are made from. -/
def Measure.tally (hm : h.Measure c w) (ha : c.activity.Ordered) :
    (View.naming (.any c) True).Tally where
  holds fs ids ns := weights w ns = (fs.map h.slot).sum +
    (ids.map (h.total c.activity)).sum
  fine e := w.expr e = 0
  binds _ := True
  draws _ _ := True
  nil := rfl
  append hns hns' := by
    simp only [weights_append, hns, hns', map_append, sum_append]
    abel
  perm hns hids hperm := by
    rw [← (hids.map _).sum_eq, ← hns]
    exact ((hperm.map _).sum_eq).symm
  stmt htag hns := by
    rw [total_cons ha (by intro hcode; simp [hcode, StmtTag.isOrdinary] at htag)]
    exact hns
  node {k _ _} hk _ hslots hns := by
    have haction : k.action w = 0 := by
      cases k
      case code | invoke => cases hk
      all_goals rfl
    rw [weights_cons, weights_nil, add_zero]
    exact (weight_mk haction hslots).trans hns
  landmark {id _ kind} htag hk _ _ hslots hns := by
    have haction : kind.action w = 0 := by
      cases kind
      case code | invoke => cases hk
      all_goals rfl
    have htotal := total_cons (h := h) ha (i := id)
      (by intro hcode; simp [hcode, StmtTag.isLandmark] at htag) [] []
    rw [weights_cons, weights_nil, add_zero, weight_mk haction hslots, hns, htotal,
      append_nil, append_nil]
  value ty hf l hl := by
    obtain ⟨hv, hvars, hnodes⟩ := (hm.value _ _ (StmtKind.mem_slots_of_emitted hf) ty l
      (hl trivial)).2
    refine ⟨hv, fun _ _ => trivial, fun e he => ?_, by simpa using hnodes⟩
    exact sum_eq_zero_iff.1 hvars _ (mem_map_of_mem he)
  restricted ty slot hf l hl := by
    obtain ⟨hv, hslot⟩ := (hm.restricted _ _ (StmtKind.mem_slots_of_emitted hf) ty slot l
      (hl trivial)).2
    exact ⟨hv, by simp [hslot]⟩
  inbound hf hnamed := by
    obtain ⟨st, hst⟩ := Option.isSome_iff_exists.1 (hnamed trivial)
    simp [hm.named _ _ (StmtKind.mem_slots_of_emitted hf) st hst]
  unsent hk hkind hf := by simp [hm.endpoint _ _ hk hkind _ hf]
  null hstrict := absurd trivial hstrict
  handle := hm.handle
  name _ _ := trivial
  delegate _ _ := trivial
  temp {x} _ := ⟨trivial, hm.lawful.read x⟩
  write {x e} _ he := by simp [weight_code, hm.lawful.write x e he]
  code {_ _} hstarts htag l hl ns hns := by
    have hrun := (hm.codeRun ha hstarts htag l (hl trivial)).2
    rw [weights_append, hns, ← hrun]
    simp
  flow _ _ _ _ _ := trivial
  machine _ _ _ _ _ := trivial
  service _ _ _ := trivial

end Amounts

namespace Lower

variable {c : LowerContext} {w : Weighing β} {h : Amounts β}

theorem weight_withVariables (hvars : Weightless w vars)
    (body : Option Node) : (withVariables vars body).weight w = weights w body.toList := by
  unfold withVariables
  split
  case h_1 => rw [weight_sequence, hvars]; rfl
  case h_2 inner nodes =>
    have hslots : slots (vars ++ inner) =
        slots vars ++ slots inner := flatMap_append
    have hsame : Node.mk none (.sequence inner nodes) = Node.sequence inner nodes := rfl
    rw [Option.toList_some, weights_cons, weights_nil, add_zero, hsame,
      weight_sequence, weight_sequence, hslots, map_append, sum_append, hvars,
      zero_add]
  case h_3 body _ =>
    split
    case isTrue => simp
    case isFalse => rw [weight_sequence, hvars, zero_add]; simp

/-- The graph of an activity that is lowered without errors weighs what its statements do. -/
theorem weight_lower (hm : h.Measure c w) (ha : c.activity.WellBuilt) (ns : Option String)
    (herrors : (c.activity.lower ns c.semantics c.maxDepth).2 = []) :
    (c.activity.lower ns c.semantics c.maxDepth).1.body.weight w =
      ∑ i ∈ Finset.range c.activity.stmts.size, h.own (c.activity.kind i) := by
  have hloose : (hm.tally ha.ordered).Loose :=
    ⟨fun _ _ _ _ => trivial, fun hstrict => absurd trivial hstrict⟩
  obtain ⟨⟨vars, body, hvars, hbody, hgraph⟩, -⟩ :=
    holds_lower ⟨View.naming_sees trivial ha, .inl hloose⟩ (.inl hloose) ns fun _ => herrors
  have hweightless : Weightless w vars := sum_eq_zero fun x hx => by
    obtain ⟨e, he, rfl⟩ := mem_map.1 hx
    exact hvars.slots e he
  rw [hgraph, weight_withVariables hweightless, Finset.range_eq_Ico,
    ← ha.fills.sum_total (fun _ => Amounts.own_of_size_le) ha.ordered]
  exact hbody.trans (zero_add _)

end Lower

end Workflow
