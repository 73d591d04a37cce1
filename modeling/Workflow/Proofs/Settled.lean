import Workflow.Proofs.Lower.SettleRun

/-!
# Lowering is complete

If an activity is lowered without errors then no expression in its graph is left to be lowered: no
name stands for a store, no call is scheduled, and every lambda is one of the source. This does not
depend on what the oracle said. A slot that refuses scheduled calls is staged without any step.
-/

namespace Workflow

def NodeKind.exprs (kind : NodeKind) : List Expr :=
  kind.slots.flatMap Expr.nodes ++ CodeStmt.nodesList kind.body

def NodeGraph.exprs (g : NodeGraph) : List Expr := g.body.nodes.flatMap fun n => n.kind.exprs

theorem Activity.mem_exprs (a : Activity) (h : e ∈ (a.kind i).exprs) :
    e ∈ a.exprs := Activity.mem_flatMap_kind rfl h

theorem Activity.Sound.plainHandles {c : LowerContext} (h : c.activity.Sound) : c.PlainHandles := by
  intro st hst
  obtain ⟨i, hi⟩ := Array.getElem?_of_mem hst
  rcases h.handles i st hi with hr | hr
  · exact ⟨_, by rw [Store.handle, hr, Option.getD_none]⟩
  · exact ⟨_, by rw [Store.handle, hr, Option.getD_some]⟩

/-- A node schedules what a call of the activity schedules. -/
def LowerContext.Invoked (c : LowerContext) (nodeType : String) (arguments : List NodeArgument)
    (result : Option Location) : Prop :=
  ∃ o f args attr, .call o f args ∈ c.activity.exprs ∧
    c.semantics.scheduling? o.id = some attr ∧ attr.nodeType = nodeType ∧
    c.Invokes attr args arguments result

section Unsettled

variable (c : LowerContext) (strict : Prop)

open Classical in
/-- The account of the expressions that are not settled, where the lambdas of the source may
stay. -/
noncomputable def LowerContext.unsettled : Account Expr where
  context := c
  kept e := e ∈ c.activity.exprs
  strict := strict
  unsettled e := if c.Settled (· ∈ c.activity.exprs) e ∧ (strict → e.KeepsPlaces) then 0 else {e}
  invoke _ := 0
  unbound nodeType arguments result := if c.Invoked nodeType arguments result then 0 else {.null}
  settled _ he hplaces := if_pos ⟨he, hplaces⟩

variable {c strict}

theorem calls_unsettled (es : List Expr) : (c.unsettled strict).calls es = 0 :=
  Account.calls_eq_zero (fun _ => rfl) es

theorem fairActivity_unsettled (ha : c.activity.Sound)
    (hplaces : strict → ∀ e ∈ c.activity.exprs, c.AssignsPlaces e) :
    (c.unsettled strict).FairActivity where
  handles := ha.plainHandles
  fair i e he := by
    have he := c.activity.mem_exprs he
    refine ⟨fun _ _ _ _ => he, fun _ => calls_unsettled _, fun _ _ _ _ _ => calls_unsettled _,
      fun o f args attr as l heq hattr h => ?_, fun hs => hplaces hs e he⟩
    subst heq
    exact if_pos ⟨o, f, args, attr, he, hattr, rfl, h⟩
  initialized _ _ _ _ _ _ _ _ _ _ := calls_unsettled _
  endpoint _ _ _ _ _ _ := calls_unsettled _

theorem own_unsettled (k : StmtKind) : (c.unsettled strict).amounts.own k = 0 := by
  have hslots : ∀ fs : List Fragment, (fs.map (c.unsettled strict).amounts.slot).sum = 0 := fun fs =>
    List.sum_eq_zero fun x hx => by
      obtain ⟨f, -, rfl⟩ := List.mem_map.1 hx
      exact calls_unsettled _
  unfold Amounts.own
  split
  · exact calls_unsettled _
  · exact (congrArg₂ _ (calls_unsettled _) (calls_unsettled _)).trans (add_zero 0)
  · exact hslots _

theorem clears_of_sum {es : List Expr} (h : (es.map (c.unsettled strict).unsettled).sum = 0) :
    ∀ e ∈ es, (c.unsettled strict).Clears e := by
  intro e he
  by_contra hne
  have hzero := List.sum_eq_zero_iff.1 h _ (List.mem_map_of_mem he)
  have hsingle : (c.unsettled strict).unsettled e = {e} := if_neg hne
  exact Multiset.singleton_ne_zero e (hsingle.symm.trans hzero)

theorem clears_of_weight {n : Node} (h : n.weight (c.unsettled strict).weighing = 0) :
    ∀ m ∈ n.nodes, ∀ e ∈ m.kind.exprs, (c.unsettled strict).Clears e := by
  intro m hm e he
  have hkind : m.kind.weight (c.unsettled strict).weighing = 0 :=
    List.sum_eq_zero_iff.1 h _ (List.mem_map.2 ⟨m, hm, rfl⟩)
  obtain ⟨hslots, haction⟩ := add_eq_zero.1 hkind
  rcases List.mem_append.1 he with he | he
  · obtain ⟨x, hx, he⟩ := List.mem_flatMap.1 he
    have hexpr : (c.unsettled strict).weighing.expr x = 0 :=
      List.sum_eq_zero_iff.1 hslots _ (List.mem_map_of_mem hx)
    exact clears_of_sum hexpr e he
  · cases hk : m.kind
    case code body =>
      rw [hk] at haction he
      exact clears_of_sum haction e he
    all_goals
      rw [hk] at he
      cases he

theorem invoked_of_weight {n m : Node} {nodeType : String} {arguments : List NodeArgument}
    {result : Option Location} (h : n.weight (c.unsettled strict).weighing = 0) (hm : m ∈ n.nodes)
    (hkind : m.kind = .invoke nodeType arguments result) : c.Invoked nodeType arguments result := by
  have hweight : m.kind.weight (c.unsettled strict).weighing = 0 :=
    List.sum_eq_zero_iff.1 h _ (List.mem_map.2 ⟨m, hm, rfl⟩)
  obtain ⟨-, haction⟩ := add_eq_zero.1 hweight
  rw [hkind] at haction
  by_contra hne
  have hunbound : (c.unsettled strict).unbound nodeType arguments result = {Expr.null} := if_neg hne
  exact Multiset.singleton_ne_zero _ (hunbound.symm.trans (add_eq_zero.1 haction).2)

theorem weight_unsettled (ha : c.activity.WellBuilt)
    (hplaces : strict → ∀ e ∈ c.activity.exprs, c.AssignsPlaces e) (ns : Option String)
    (herrors : (c.activity.lower ns c.semantics c.maxDepth).2 = []) :
    (c.activity.lower ns c.semantics c.maxDepth).1.body.weight (c.unsettled strict).weighing = 0 :=
  (Lower.weight_lower (fairActivity_unsettled ha.sound hplaces).measure ha ns herrors).trans
    (Finset.sum_eq_zero fun _ _ => own_unsettled _)

theorem clears_lower (ha : c.activity.WellBuilt)
    (hplaces : strict → ∀ e ∈ c.activity.exprs, c.AssignsPlaces e) (ns : Option String)
    (herrors : (c.activity.lower ns c.semantics c.maxDepth).2 = []) :
    ∀ e ∈ (c.activity.lower ns c.semantics c.maxDepth).1.exprs, (c.unsettled strict).Clears e := by
  intro e he
  obtain ⟨n, hn, he⟩ := List.mem_flatMap.1 he
  exact clears_of_weight (weight_unsettled ha hplaces ns herrors) n hn e he

end Unsettled

/-- An activity that is built, resolved and lowered without errors has a graph in which no name
stands for a store, no call is scheduled, and every lambda is one of the source, whatever the oracle
said and however deep expressions may nest. Where a slot refuses scheduled calls, staging makes no
step and no variable, whether it succeeds or not. -/
theorem lower_settles {ids ids' : Ids} {unit : Nat} {node : ParseNode} {a : Activity}
    (h : Activity.build ids unit node = (.ok a, ids')) (last : Ids) (errors : Diagnostics)
    (ns : Option String) (semantics : SemanticIndex) (maxDepth : Nat) :
    let c : LowerContext := { activity := (a.resolve last errors).1, semantics, maxDepth }
    ((c.activity.lower ns semantics maxDepth).2 = [] →
      ∀ e ∈ (c.activity.lower ns semantics maxDepth).1.exprs,
        c.Settled (· ∈ c.activity.exprs) e) ∧
    ∀ (site : Site) (e : Expr) (l : LowerState), site.slot.isSome →
      ((Lower.stage (Stage.value site e)).run l).1.2 = {} := by
  intro c
  have ha : c.activity.WellBuilt := (Activity.keeps_resolve last errors a).wellBuilt
    (Activity.build_ids h).1
  refine ⟨fun herrors e he => ?_, fun site e l hslot => ?_⟩
  · exact (clears_lower ha False.elim ns herrors e he).1
  · have hcan : site.canSchedule = false := by
      obtain ⟨slot, hslot⟩ := Option.isSome_iff_exists.1 hslot
      simp [Site.canSchedule, hslot]
    exact LowerContext.View.steps_value hcan e l

section Settling

def settlingNode : ParseNode :=
  .main (.sequence [.variableNode "x" "int", .codeBlock [
    .eval (.assign {} .assign (.ident "x") (.call {} (.ident "A") [.mk .input (.ident "x")])),
    .eval (.call {} (.ident "g") [.mk .input (.lambda {} ["v"] (.ident "v"))])]])

/-- `x` is the store with marker 1, and the call of `A` is scheduled. -/
def settlingIndex : SemanticIndex where
  exprs := [
    { expr := 2, symbol := some (.store 1) },
    { expr := 3, symbol := some (.method
        { name := "Invoke", container := "A"
          scheduling := some { nodeType := "A", parameters := [], result := some .int } }) },
    { expr := 5, symbol := some (.store 1) }]

theorem lower_settles_settlingNode : ∃ a ids', Activity.build {} 0 settlingNode = (.ok a, ids') ∧
    ((a.resolve ids' {}).1.lower none settlingIndex 64).2 = [] ∧
    some 8 ∈ ((a.resolve ids' {}).1.lower none settlingIndex 64).1.exprs.map Expr.id ∧
    ∀ e ∈ ((a.resolve ids' {}).1.lower none settlingIndex 64).1.exprs,
      LowerContext.Settled ⟨(a.resolve ids' {}).1, settlingIndex, 64⟩
        (· ∈ (a.resolve ids' {}).1.exprs) e := by
  exact ParseNode.exists_and_of_builds (by decide +kernel)
    fun a ids' h herrors => (lower_settles h _ {} none settlingIndex 64).1 herrors

end Settling

end Workflow
