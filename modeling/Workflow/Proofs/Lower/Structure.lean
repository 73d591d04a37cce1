import Workflow.Proofs.Lower.Chain
import Workflow.Proofs.Run.Order

/-!
# Structured statements

The node of a statement leads from every world that agrees to one that agrees with what the
statement does as it is written. There is one lemma for each kind of statement, about a lowering of
the statements inside that is right already.
-/

namespace Workflow

open Source Engine Activity Lower List

variable {T T' : World StoreId → Option (World StoreId)} {ms : List StmtId}

namespace LowerContext

variable {c : LowerContext} {H : Runtime} {answer : Answer} {bound : Nat}

def Does (c : LowerContext) (H : Runtime) (answer : Answer) (bound : Nat) (node : Option Node)
    (T : World StoreId → Option (World StoreId)) : Prop :=
  ∀ w ρ w', c.Agrees w ρ → T w = some w' →
    ∃ ρ', runOption H answer bound node ρ = some ρ' ∧ c.Agrees w' ρ'

def DoAll (c : LowerContext) (H : Runtime) (answer : Answer) (bound : Nat) (nodes : List Node)
    (T : World StoreId → Option (World StoreId)) : Prop :=
  ∀ w ρ w', c.Agrees w ρ → T w = some w' →
    ∃ ρ', runList H answer bound nodes ρ = some ρ' ∧ c.Agrees w' ρ'

theorem Does.of_le (h : c.Does H answer bound node T)
    (hle : ∀ w w', T' w = some w' → T w = some w') : c.Does H answer bound node T' :=
  fun w ρ w' hag hT => h w ρ w' hag (hle w w' hT)

theorem DoAll.of_le (h : c.DoAll H answer bound nodes T)
    (hle : ∀ w w', T' w = some w' → T w = some w') : c.DoAll H answer bound nodes T' :=
  fun w ρ w' hag hT => h w ρ w' hag (hle w w' hT)

theorem Does.cons {node : Option Node} {nodes : List Node} (h : c.Does H answer bound node T)
    (h' : c.DoAll H answer bound nodes T') :
    c.DoAll H answer bound (node.toList ++ nodes) (fun w => (T w).bind T') := by
  intro w ρ w₂ hag hT
  obtain ⟨w₁, hT, hT'⟩ := Option.bind_eq_some_iff.1 hT
  obtain ⟨ρ₁, hrun, hag₁⟩ := h w ρ w₁ hag hT
  obtain ⟨ρ₂, hrun', hag₂⟩ := h' w₁ ρ₁ w₂ hag₁ hT'
  refine ⟨ρ₂, ?_, hag₂⟩
  cases node with
  | none =>
    cases hrun
    exact hrun'
  | some n =>
    rw [runOption] at hrun
    rw [Option.toList_some, singleton_append, runList, hrun]
    exact hrun'

namespace Structured

theorem kind (hs : c.Structured) (id : StmtId) : c.structuredKind (c.activity.kind id) = true := by
  by_cases hid : id < c.activity.stmts.size
  · exact hs.kinds id hid
  · rw [kind_eq_empty (Nat.le_of_not_lt hid)]
    rfl

theorem children (hs : c.Structured) (id : StmtId) :
    (id :: (c.activity.kind id).children).Pairwise (· < ·) := by
  by_cases hid : id < c.activity.stmts.size
  · exact hs.ascending id hid
  · rw [kind_eq_empty (Nat.le_of_not_lt hid)]
    exact pairwise_singleton _ _

theorem fragments (hs : c.Structured)
    (hf : f ∈ c.activity.chainFragments ms) : c.fragmentOnStores false f.1 f.2 = true := by
  induction ms with
  | nil => cases hf
  | cons m rest ih =>
    rw [chainFragments] at hf
    cases hkind : c.activity.kind m
    case code g chained initializes =>
      rw [hkind] at hf
      rcases mem_cons.1 hf with rfl | hf
      · have := hs.kind m
        rwa [hkind] at this
      · split at hf
        · exact ih hf
        · cases hf
    all_goals
      rw [hkind] at hf
      cases hf

end Structured

theorem codeRun_clean (H : Runtime) (answer : Answer) (bound : Nat) (hc : c.HandlesApart)
    (hs : c.Structured)
    (h : c.activity.chainsForward (m :: rest) = true) (hasc : (m :: rest).Pairwise (· < ·)) :
    Clean (codeRun c m) fun node => c.Does H answer bound node
      (fragments (eval H answer c) (c.activity.chainFragments (m :: rest))) := by
  refine .stage (T := fun _ steps => c.Does H answer bound steps.finish
    (fragments (eval H answer c) (c.activity.chainFragments (m :: rest))))
    (fun l u t hstage herr => ?_) (fun u steps => .pure id) fun e _ => ?_
  · rw [codeChain_eq h hasc (Nat.sub_le _ _)] at hstage
    have hprogress : c.Progress H answer bound { lower := l } t _ :=
      fragments_progress hc rfl rfl (fun f hf => hs.fragments hf)
        (fun f hf => faithful_of_fragment (hs.fragments hf)
          (orderly_of_fragment (hs.fragments hf))) hstage
    exact ⟨hprogress.errors herr, fun w ρ w' hag hT => hprogress.finish hc hag hT⟩
  · exact (Clean.reportError (Q := fun _ => False) e).bind fun _ => .pure id

theorem start_variables (hn : c.PlainNames)
    (hvars : Forall₂ (fun (store : Store) (v : VariableDecl) => v.name = store.name ∧
      v.default = none) (ids.filterMap fun id => c.activity.stores[id]?) vars)
    (hag : c.Agrees w ρ) : ∃ ρ', start H bound vars ρ = some ρ' ∧ c.Agrees (start H ids w) ρ' := by
  induction ids generalizing vars w ρ with
  | nil =>
    cases hvars
    exact ⟨ρ, rfl, hag⟩
  | cons id rest ih =>
    rw [filterMap_cons] at hvars
    cases hstore : c.activity.stores[id]? with
    | none =>
      -- What is no store has no variable.
      rw [hstore] at hvars
      refine ih hvars ⟨fun id' x hx => ?_, hag.trace⟩
      have hne : id' ≠ id := by
        rintro rfl
        obtain ⟨store, hstore', -⟩ := hx
        rw [hstore] at hstore'
        cases hstore'
      rw [World.vars_set_of_ne w _ hne]
      exact hag.vars id' x hx
    | some store =>
      rw [hstore] at hvars
      obtain ⟨v, vars, ⟨hname, hdefault⟩, hrest, rfl⟩ := forall₂_cons_left_iff.1 hvars
      have hx : c.Handle id v.name := ⟨store, hstore, by rw [hname, hn.asName_handle hstore]⟩
      rw [Engine.start, hdefault, hag.vars id v.name hx]
      exact ih hrest (hag.set hn.handlesApart hx _)

/-- Code runs as its fragment, a chain is lowered with its first statement, and other statements are
lowered to nodes that do what they do. -/
structure Fitting (c : LowerContext) (H : Runtime) (answer : Answer) (bound : Nat)
    (lower : Inner) (inner : StmtId → World StoreId → Option (World StoreId))
    (ms : List StmtId) : Prop where
  fragment : ∀ m f chained initializes, c.activity.kind m = .code f chained initializes →
    ∀ w w', inner m w = some w' →
      fragment (eval H answer c) f.body initializes w = some w'
  chain : ∀ m ∈ ms, (c.activity.kind m).tag = .code → lower m = codeRun c m
  node : ∀ m ∈ ms, c.activity.isUnchained m = true →
    Clean (lower m) fun node => c.Does H answer bound node (inner m)

theorem Fitting.mono {lower : Inner}
    {inner : StmtId → World StoreId → Option (World StoreId)} {ms ms' : List StmtId}
    (h : c.Fitting H answer bound lower inner ms) (hsub : ms' ⊆ ms) :
    c.Fitting H answer bound lower inner ms' where
  fragment := h.fragment
  chain m hm := h.chain m (hsub hm)
  node m hm := h.node m (hsub hm)

theorem isUnchained_of_tag (h : (c.activity.kind m).tag ≠ .code) :
    c.activity.isUnchained m = true := by
  rw [isUnchained, chainedTo]
  cases hkind : c.activity.kind m
  case code => exact absurd (by rw [hkind]; rfl) h
  all_goals rfl

section Members

variable {lower : Inner} {inner : StmtId → World StoreId → Option (World StoreId)}

/-- Members one after the other are what their chains do, one after the other. -/
theorem runAll_chain (hfit : c.Fitting H answer bound lower inner ms)
    (h : c.activity.chainsForward (m :: rest) = true) (hcode : (c.activity.kind m).tag = .code)
    (hrun : runAll inner (m :: rest) w = some w') :
    (fragments (eval H answer c) (c.activity.chainFragments (m :: rest)) w).bind
      (runAll inner (c.activity.afterChain (m :: rest))) = some w' := by
  cases hkind : c.activity.kind m
  case code f chained initializes =>
    obtain ⟨w₁, hw₁, hrest⟩ := Option.bind_eq_some_iff.1 hrun
    rw [chainFragments_code hkind, afterChain_code hkind, fragments,
      hfit.fragment m f chained initializes hkind w w₁ hw₁]
    cases chained with
    | none => exact hrest
    | some target =>
      have ht : chainedTo c.activity m = some target := by rw [chainedTo, hkind]
      obtain ⟨rest', rfl, htag⟩ := of_chainedTo h ht
      exact runAll_chain hfit (chainsForward_tail h) htag hrest
  all_goals simp [hkind, StmtKind.tag] at hcode
termination_by rest

theorem members_clean (hc : c.HandlesApart) (hs : c.Structured) {ms : List StmtId}
    (h : c.activity.chainsForward ms = true) (hasc : ms.Pairwise (· < ·))
    (hfit : c.Fitting H answer bound lower inner ms) :
    Clean ((c.activity.heads false ms).filterMapM lower) fun nodes =>
      c.DoAll H answer bound nodes (runAll inner ms) := by
  match ms, h, hasc, hfit with
  | [], _, _, _ =>
    rw [heads, filterMapM_nil]
    refine .pure fun w ρ w' hag hT => ?_
    cases hT
    exact ⟨ρ, by rw [runList], hag⟩
  | m :: rest, h, hasc, hfit =>
    have hsub := c.activity.afterChain_sublist (m :: rest)
    have hrest := members_clean hc hs (chainsForward_afterChain h) (hasc.sublist hsub)
      (hfit.mono hsub.subset)
    -- The first member is the start of a chain, or no code.
    have hfirst : Clean (lower m) fun node => ∀ nodes,
        c.DoAll H answer bound nodes (runAll inner (c.activity.afterChain (m :: rest))) →
        c.DoAll H answer bound (node.toList ++ nodes) (runAll inner (m :: rest)) := by
      by_cases htag : (c.activity.kind m).tag = .code
      · rw [hfit.chain m mem_cons_self htag]
        refine (codeRun_clean H answer bound hc hs h hasc).mono fun node hnode nodes hnodes => ?_
        exact (hnode.cons hnodes).of_le fun w w' hw => runAll_chain hfit h htag hw
      · have hunchained := isUnchained_of_tag htag
        rw [afterChain, if_pos hunchained]
        refine (hfit.node m mem_cons_self hunchained).mono fun node hnode nodes hnodes => ?_
        exact hnode.cons hnodes
    rw [heads_cons, filterMapM_cons]
    refine hfirst.bind fun node => ?_
    cases node with
    | none => exact hrest.mono fun nodes hnodes hnode => hnode nodes hnodes
    | some n => exact hrest.bind fun nodes => .pure fun hnodes hnode => hnode nodes hnodes
termination_by ms.length
decreasing_by exact Nat.lt_succ_of_le (length_afterChain_cons m rest)

/-- A sequence starts its variables and runs the nodes of its members. -/
theorem sequence_clean (hn : c.PlainNames) (hs : c.Structured)
    (h : c.activity.chainsForward members = true) (hasc : members.Pairwise (· < ·))
    (hfit : c.Fitting H answer bound lower inner members) (id : StmtId) :
    Clean (sequence c lower id members) fun node => c.Does H answer bound node fun w =>
      runAll inner members (start H (c.activity.storesOf id) w) := by
  have hheads := filter_eq_heads h hasc [] false (by simp) (by simp)
  rw [nil_append] at hheads
  refine (Clean.variablesOf c (c.activity.storesOf id)).bind fun vars => ?_
  dsimp only
  rw [hheads]
  refine (members_clean hn.handlesApart hs h hasc hfit).bind fun nodes => ?_
  -- However the node is put together, it starts the variables and runs the nodes.
  have hrun : ∀ node : Option Node,
      (∀ ρ, runOption H answer bound node ρ =
        (start H bound vars ρ).bind (runList H answer bound nodes)) →
      c.DoAll H answer bound nodes (runAll inner members) →
      Forall₂ (fun (store : Store) (v : VariableDecl) => v.name = store.name ∧
        v.default = none) ((c.activity.storesOf id).filterMap fun id => c.activity.stores[id]?)
        vars →
      c.Does H answer bound node fun w =>
        runAll inner members (start H (c.activity.storesOf id) w) := by
    intro node hnode hnodes hvars w ρ w' hag hT
    obtain ⟨ρ₀, hstart, hag₀⟩ := start_variables hn hvars hag
    obtain ⟨ρ', hrun, hag'⟩ := hnodes _ ρ₀ w' hag₀ hT
    exact ⟨ρ', by rw [hnode, hstart, Option.bind_some, hrun], hag'⟩
  split
  case h_1 =>
    refine .pure (hrun none fun ρ => ?_)
    rw [Engine.runOption, Engine.start, Option.bind_some, Engine.runList]
  case h_2 n =>
    refine .pure (hrun (some n) fun ρ => ?_)
    rw [Engine.runOption, Engine.start, Option.bind_some, Engine.runList_singleton]
  case h_3 =>
    refine .pure (hrun _ fun ρ => ?_)
    rw [runOption, run_sequence]

end Members

end LowerContext

end Workflow
