import Workflow.Proofs.Lower.Tally

/-!
# Lowering an activity

Each kind of statement is lowered with what is inside it: in the other context to the same, with the
errors that are allowed, and so that the tally is kept.
-/

namespace Workflow.Lower

open StmtKind Option

open LowerContext (View)
open LowerContext.View (Tally)
open LowerContext.View.Tally

variable {α : Type} {c : LowerContext} {W : c.View} {T : W.Tally}
variable {m body : StmtId} {states : List StmtId}

attribute [local simp] emitted slots StmtKind.inner children
  NodeKind.binders NodeKind.slots NodeKind.children

/-! ### Slots -/

section Slots

variable {id : StmtId} {k : StmtKind} {f : Fragment} {o : Option Fragment}
variable (hr : T.Ready) (hk : c.activity.kind id = k)

include hr hk

theorem tallies_value (hf : f ∈ k.emitted) (ty : Option TypeName) :
    W.Runs (value c f ty) (value W.other f ty) fun r => T.fine r.1.expr ∧ T.Lifts [f] r.2 := by
  have hreads := hr.reads hk hf
  subst hk
  exact ((View.runs_value hreads ty).gives (T.value ty hf)).mono fun r h =>
    ⟨h.1, ⟨h.2.1, h.2.2.1⟩, h.2.2.2⟩

theorem tallies_optionalValue (ho : ∀ f ∈ o, f ∈ k.emitted) (ty : Option TypeName) :
    W.Runs (optionalValue c o ty) (optionalValue W.other o ty) fun r =>
      (∀ e ∈ r.1.toList.map (·.expr), T.fine e) ∧ T.Lifts o.toList r.2 := by
  cases o with
  | none => exact .pure ⟨fun _ he => (by cases he), .nil, T.nil⟩
  | some f =>
    exact (tallies_value hr hk (ho f rfl) ty).bind fun r => .pure fun hv =>
      ⟨by simpa using hv.1, hv.2⟩

theorem tallies_restricted (hf : f ∈ k.emitted) (ty : Option TypeName) (slot : Slot) :
    W.Runs (restricted c f ty slot) (restricted W.other f ty slot) fun v =>
      T.fine v.expr ∧ T.holds [f] [] [] := by
  have hreads := hr.reads hk hf
  subst hk
  exact (View.runs_restricted hreads ty slot).gives (T.restricted ty slot hf)

theorem tallies_optionalRestricted (ho : ∀ f ∈ o, f ∈ k.emitted) (ty : Option TypeName)
    (slot : Slot) :
    W.Runs (optionalRestricted c o ty slot) (optionalRestricted W.other o ty slot) fun v =>
      (∀ e ∈ v.toList.map (·.expr), T.fine e) ∧ T.holds o.toList [] [] := by
  cases o with
  | none => exact .pure ⟨fun _ he => (by cases he), T.nil⟩
  | some f =>
    exact (tallies_restricted hr hk (ho f rfl) ty slot).map fun v hv => ⟨by simpa using hv.1, hv.2⟩

omit hk in
theorem tallies_variablesOf (hids : ∀ k ∈ ids, c.activity.NamesStore k) :
    W.Runs (variablesOf c ids) (variablesOf W.other ids) T.Vars := by
  unfold variablesOf
  rw [List.filterMap_congr fun k hk => hr.included.stores k (hids k hk)]
  have hall := runs_mapM (T := T) (b := fun v : VariableDecl => [v.name])
    (s := fun v => v.default.toList) (t := fun _ => []) (F := fun _ => []) (I := fun _ => [])
    (l := ids.filterMap fun id => c.activity.stores[id]?)
    (f := fun st => do return { name := st.name, ty := ← storeType c st })
    (g := fun st => do return { name := st.name, ty := ← storeType W.other st })
    fun st hst => by
      obtain ⟨k, -, hk⟩ := List.mem_filterMap.1 hst
      have hmem := Array.mem_of_getElem? hk
      exact (View.runs_storeType hmem).bind fun _ => .pure fun _ =>
        .single ⟨by simpa using T.name st hmem, by simp, T.nil⟩
  refine hall.mono fun vars hvars => ⟨?_, hvars.fine⟩
  have hbinds := hvars.binds
  rwa [← List.map_eq_flatMap] at hbinds

omit hk in
theorem tallies_storesOf (hid : id < c.activity.stmts.size) :
    W.Runs (variablesOf c (c.activity.storesOf id))
      (variablesOf W.other (W.other.activity.storesOf id)) T.Vars := by
  rw [hr.included.storesOf hid]
  exact tallies_variablesOf hr fun k hk => .hosted (.statement id) hk

omit hk in
theorem tallies_optionalLocation {k : Option StoreId} (hk : ∀ i ∈ k, c.activity.NamesStore i)
    (absent : α) (present : Location → α) {Q : α → Prop} (habsent : Q absent)
    (hpresent : ∀ l, T.fine l.handle → Q (present l)) :
    W.Runs (match k.bind fun k => c.activity.stores[k]? with
      | none => pure absent
      | some st => present <$> location c st)
      (match k.bind fun k => W.other.activity.stores[k]? with
      | none => pure absent
      | some st => present <$> location W.other st) Q := by
  rw [hr.included.bind_stores hk]
  split
  · exact .pure habsent
  · next st hst =>
    obtain ⟨k, -, hk⟩ := bind_eq_some_iff.1 hst
    have hmem := Array.mem_of_getElem? hk
    exact (View.runs_location hmem).map fun l hl => hpresent l (hl ▸ T.handle st hmem)

end Slots

/-! ### Messaging -/

section Messaging

variable {id : StmtId} {k : StmtKind} {f : Fragment} (hr : T.Ready)

include hr

theorem tallies_contentValue (hk : c.activity.kind id = k) (kind : ServiceKind)
    (hf : f ∈ k.emitted) : W.Runs (contentValue c kind f) (contentValue W.other kind f) fun v =>
      (∀ e ∈ v.slots, T.fine e) ∧ T.holds [f] [] [] := by
  have hreads := hr.reads hk hf
  unfold contentValue
  rw [hreads.knows.namedStore? f.expr.mem_nodes_self]
  split
  · refine (tallies_restricted hr hk hf _ _).bind fun v => .pure fun hv => ⟨?_, hv.2⟩
    simpa [ArgumentValue.slots] using hv.1
  · subst hk
    split
    · next st hst =>
      have hmem : st ∈ c.activity.stores := LowerContext.namedStore?_mem hst
      refine (View.runs_location hmem).bind fun l => .pure fun hl => ⟨?_, T.inbound hf fun _ => ?_⟩
      · simpa [ArgumentValue.slots, hl] using T.handle st hmem
      · rw [hst]
        rfl
    · refine .report (W.plain rfl rfl hreads.span) fun hstrict =>
        ⟨?_, T.inbound hf (absurd · hstrict)⟩
      simpa [ArgumentValue.slots] using T.null hstrict

theorem tallies_content (hk : c.activity.kind id = k) (kind : ServiceKind) {m : Option Content}
    (hm : ∀ f ∈ m.toList.flatMap Content.fragments, f ∈ k.emitted) :
    W.Runs (optionalContent c kind m) (optionalContent W.other kind m) fun r =>
      (∀ e ∈ r.toList.flatMap MessageContent.slots, T.fine e) ∧
        T.holds (m.toList.flatMap Content.fragments) [] [] := by
  cases m with
  | none => exact .pure ⟨fun _ he => (by cases he), T.nil⟩
  | some m =>
    simp only [toList_some, List.flatMap_singleton] at hm ⊢
    suffices hcontent : W.Runs (content c kind m) (content W.other kind m) fun r =>
        (∀ e ∈ r.slots, T.fine e) ∧ T.holds m.fragments [] [] from
      hcontent.map fun r hr => by simpa using hr
    cases m with
    | message f =>
      exact (tallies_contentValue hr hk kind (hm f (by simp [Content.fragments]))).bind fun v =>
        .pure fun hv => hv
    | parameters params =>
      exact (runs_slots (T := T) (s := fun p : String × ArgumentValue => p.2.slots) fun p hp =>
        (tallies_contentValue hr hk kind (hm p.value (List.mem_map_of_mem hp))).bind fun v =>
          .pure fun hv => hv).bind fun ps => .pure fun hps => hps

theorem tallies_messaging {op : ServiceOperation} (hk : c.activity.kind id = .service op) :
    W.Runs (messaging c id op) (messaging W.other id op) fun n => T.holds [] [id] [n] := by
  have hop : c.activity.service? id = some op := Activity.service?_eq_some.2 hk
  have hrequest : (op.request.bind fun r => (W.other.activity.service? r).map (messagingId r)) =
      op.request.bind fun r => (c.activity.service? r).map (messagingId r) := by
    cases hq : op.request with
    | none => rfl
    | some q => simp only [bind_some, hr.included.request id op q hop hq]
  have hnode : ∀ {kind : ServiceKind} {m : MessagingNode} {name : String},
      T.draws id (messagingKind kind m) → (∀ e ∈ m.slots, T.fine e) →
      T.holds op.slots [] [] →
      T.holds [] [id] [(Node.ofKind (messagingKind kind m)).named name] := by
    intro kind m name hdraws hfine hslots
    refine T.landmark (by rw [hk]; rfl) ?_ hdraws ?_ ?_ ?_
    · cases kind <;> rfl
    · cases kind <;> simp [messagingKind]
    · cases kind <;> exact hfine
    · rw [hk]
      cases kind <;> exact hslots
  have hrun : W.Runs (messaging c id op) (messaging W.other id op) fun n => T.draws id n.kind →
      T.holds [] [id] [n] := by
    unfold messaging
    rw [hrequest]
    refine (tallies_content hr hk op.kind fun f hf => ?_).bind fun content' => ?_
    · exact List.mem_append_left _ (List.mem_append_left _ hf)
    refine (tallies_optionalLocation hr (fun k hk => .handle id op hop hk)
      [] ([·]) (Q := fun ls => ∀ e ∈ ls.map (·.handle), T.fine e) (by simp)
      fun l hl => by simpa using hl).bind fun ls => ?_
    have hwith := tallies_optionalRestricted hr hk (o := op.correlatesWith)
      (fun f hf => List.mem_append_left _ (List.mem_append_right _ (mem_toList.2 hf)))
      (some correlationHandleType) .correlation
    have hall : ∀ {correlates endpoint : Option ValueExpr},
        ((∀ e ∈ correlates.toList.map (·.expr), T.fine e) ∧
          T.holds op.correlatesWith.toList [] []) →
        ((∀ e ∈ endpoint.toList.map (·.expr), T.fine e) ∧ T.holds op.endpoint.toList [] []) →
        (∀ e ∈ ls.map (·.handle), T.fine e) →
        ((∀ e ∈ content'.toList.flatMap MessageContent.slots, T.fine e) ∧
          T.holds (op.content.toList.flatMap Content.fragments) [] []) →
        (∀ e ∈ content'.toList.flatMap MessageContent.slots ++ correlates.toList.map (·.expr) ++
            ls.map (·.handle) ++ endpoint.toList.map (·.expr), T.fine e) ∧
          T.holds op.slots [] [] := by
      intro correlates endpoint hcorrelates hendpoint hls hcontent
      simp only [List.forall_mem_append]
      exact ⟨⟨⟨⟨hcontent.1, hcorrelates.1⟩, hls⟩, hendpoint.1⟩,
        T.append (T.append hcontent.2 hcorrelates.2) hendpoint.2⟩
    split
    · next hsend =>
      refine (tallies_optionalRestricted hr hk (fun f hf => ?_) _ _).bind fun v => hwith.bind
        fun w => .pure fun hw hv hls hcontent hdraws => ?_
      · refine List.mem_append_right _ ?_
        rw [if_pos hsend]
        exact mem_toList.2 hf
      · obtain ⟨hfine, hslots⟩ := hall hw hv hls hcontent
        exact hnode hdraws hfine hslots
    · next hsend =>
      have hendpoint : T.holds op.endpoint.toList [] [] := by
        cases he : op.endpoint with
        | none => exact T.nil
        | some f => exact T.unsent hk (by simpa using hsend) he
      refine (View.Runs.pure (Q := fun v => ∀ e ∈ v.toList.map (·.expr), T.fine e) (by simp)).bind
        fun v => hwith.bind fun w => .pure fun hw hv hls hcontent hdraws => ?_
      obtain ⟨hfine, hslots⟩ := hall hw ⟨hv, hendpoint⟩ hls hcontent
      exact hnode hdraws hfine hslots
  exact (hrun.and (T.service hk)).mono fun n hn => hn.1 hn.2

end Messaging

/-! ### Statements inside -/

section Inner

variable {lower lower' : Inner} {lo id : StmtId} {k : StmtKind} (hr : T.Ready)

include hr

theorem part_range (hlo : lo ≤ id) (hk : c.activity.kind id = k) (hm : m ∈ k.parts.1) :
    lo ≤ m ∧ m < c.activity.stmts.size ∧ (c.activity.kind m).tag ∈ k.parts.2 := by
  have hchild : m ∈ (c.activity.kind id).children := hk ▸ k.parts_subset m hm
  obtain ⟨hlt, htag⟩ := part hr.wellBuilt.ordered hk m hm
  exact ⟨hlo.trans (Nat.le_of_lt hlt), hr.wellBuilt.lt_of_mem_children hchild, htag⟩

theorem stands_inner (hk : c.activity.kind id = k) (hm : m ∈ k.inner) : id < m ∧ T.Stands m := by
  subst hk
  have hchild := inner_subset _ m hm
  exact ⟨hr.wellBuilt.ordered.after id m hchild, hr.wellBuilt.lt_of_mem_children hchild,
    hr.routed.imp_right fun h => (h.2.inner id m hm).2⟩

variable (hl : T.Inside lower lower' lo) (hlo : lo ≤ id)

include hl hlo

/-- What stands inside a statement that is no sequence is lowered on its own. -/
theorem tallies_child (hk : c.activity.kind id = k) (htag : k.tag ≠ .sequence) (hm : m ∈ k.inner) :
    W.Runs (lower m) (lower' m) fun r => T.holds [] [m] r.toList := by
  obtain ⟨hlt, hstands⟩ := stands_inner hr hk hm
  have halone := (inside hr.wellBuilt.ordered hk htag m (k.inner_subset m hm)).2
  refine (hl.runs m [] (Nat.lt_of_le_of_lt hlo hlt) hstands halone.starts).mono fun r hbegins => ?_
  have hafter : c.activity.afterChain [m] = [] := by
    rw [Activity.afterChain, if_pos (Activity.isUnchained_of_chainedTo halone.unchained)]
  have hholds := hbegins [] (by rw [hafter]; exact T.nil)
  rwa [List.append_nil] at hholds

theorem tallies_option (hk : c.activity.kind id = k) (htag : k.tag ≠ .sequence)
    (ho : ∀ m ∈ o, m ∈ k.inner) :
    W.Runs (optional lower o) (optional lower' o) fun r => T.holds [] o.toList r.toList := by
  cases o with
  | none => exact .pure T.nil
  | some m => exact tallies_child hr hl hlo hk htag (ho m rfl)

omit hr hl hlo in
/-- A way out leads to one of the states, unless this does not count. -/
def LeadsTo (T : W.Tally) (states : List StmtId) (b : StmtId) : Prop :=
  T.Loose ∨ ∀ condition action r, c.activity.kind b = .transitionBody condition action r →
    (target? states r).isSome = true

variable (hid : id < c.activity.stmts.size)

include hid

/-! ### Jumps -/

theorem tallies_transitionBody (trigger : Option Nat)
    (htag : (c.activity.kind id).tag = .transitionBody) (htarget : LeadsTo T states id) :
    W.Runs (transitionBody c lower states trigger id)
      (transitionBody W.other lower' states trigger id) fun o =>
        T.Parts (fun _ => []) TransitionNode.slots TransitionNode.children [] [id] o.toList := by
  have hplaced := (hr.placed.kind id).refs
  unfold transitionBody
  rw [hr.included.kind hid]
  cases hk : c.activity.kind id
  case transitionBody condition action r =>
    dsimp only
    split
    · next hnone =>
      rcases htarget with hloose | hfound
      · refine .report (hloose.allows _ _ ?_ ?_) fun hstrict => ⟨by simp, by simp, ?_⟩
        · exact hplaced r (by rw [hk]; exact List.mem_singleton_self r)
        · simp [toString, String.toList_append]
        · exact hloose.holds hstrict _ _
      · have hsome := hfound _ _ _ hk
        rw [hnone] at hsome
        cases hsome
    · refine (tallies_optionalRestricted hr hk (by simp) _ _).bind fun v =>
        (tallies_option hr hl hlo hk (by simp [tag]) (by simp)).bind fun a =>
          .pure fun ha hv => .single ⟨by simp, hv.1, fold hk rfl (beside hv.2 ha)⟩
  all_goals simp [hk, tag] at htag

omit hlo hid in
/-- The transitions of a state, after those with the given triggers. -/
theorem tallies_transitions (hids : ∀ t ∈ ids, lo ≤ t ∧ t < c.activity.stmts.size ∧
      (c.activity.kind t).tag ∈ [StmtTag.transition])
    (htarget : ∀ t ∈ ids, ∀ b ∈ c.activity.bodiesOf t, LeadsTo T states b) (triggers : List Node) :
    W.Runs (transitions c lower states triggers ids)
      (transitions W.other lower' states triggers ids) fun r =>
        ∀ before, T.holds [] before triggers → T.Part [] (before ++ ids) []
          (r.2.flatMap TransitionNode.slots) (r.1 ++ r.2.flatMap TransitionNode.children) := by
  induction ids generalizing triggers with
  | nil => exact .pure fun before hbefore => ⟨by simp, by simp, by simpa using hbefore⟩
  | cons t rest ih =>
    obtain ⟨⟨hlo, hid, htag⟩, hrest⟩ := List.forall_mem_cons.1 hids
    obtain ⟨hbodies, hothers⟩ := List.forall_mem_cons.1 htarget
    have ih := ih hrest hothers
    rw [transitions, transitions, hr.included.kind hid]
    cases hk : c.activity.kind t
    case transition trigger bodies =>
      have hpart := fun b hb => part_range hr hlo hk (m := b) hb
      have hmem : ∀ b ∈ bodies, b ∈ c.activity.bodiesOf t := by simp [Activity.bodiesOf, hk]
      refine (tallies_option hr hl hlo hk (by simp [tag]) (by simp)).bind fun node =>
        (runs_parts fun b hb => tallies_transitionBody hr hl (hpart b hb).1 (hpart b hb).2.1 _
          (List.mem_singleton.1 (hpart b hb).2.2) (hbodies b (hmem b hb))).bind fun own =>
            (ih _).bind fun r => .pure ?_
      intro hothers hown hnode before hbefore
      have hrest := hothers _ (T.append hbefore hnode)
      refine ⟨by simp, ?_, ?_⟩
      · rw [List.flatMap_append]
        exact List.forall_mem_append.2 ⟨hown.fine, hrest.fine⟩
      have hall : T.holds [] ((transition trigger bodies).children ++ (before ++ rest))
          (r.1 ++ (own ++ r.2).flatMap TransitionNode.children) := by
        refine T.perm (T.append hown.holds hrest.holds) ?_ ?_
        · rw [← Multiset.coe_eq_coe]
          simp only [children, parts, ← Multiset.coe_add]
          abel
        · rw [← Multiset.coe_eq_coe]
          simp only [List.flatMap_append, ← Multiset.coe_add]
          abel
      exact T.perm (foldIn hk rfl hall) List.perm_middle.symm (.refl _)
    all_goals simp [hk, tag] at htag

theorem tallies_state (htag : (c.activity.kind id).tag = .state)
    (htarget : ∀ t ∈ c.activity.transitionsOf id, ∀ b ∈ c.activity.bodiesOf t, LeadsTo T states b) :
    W.Runs (state c lower states id) (state W.other lower' states id) fun o =>
      T.Parts (fun _ => []) StateNode.slots StateNode.children [] [id] o.toList := by
  unfold state
  rw [hr.included.kind hid]
  cases hk : c.activity.kind id
  case state name isFinal entry exit ts =>
    rw [Activity.transitionsOf, hk] at htarget
    have hopt : ∀ {o : Option StmtId}, (∀ m ∈ o, m ∈ entry.toList ++ exit.toList) →
        W.Runs (optional lower o) (optional lower' o) fun r => T.holds [] o.toList r.toList :=
      fun ho => tallies_option hr hl hlo hk (by simp [tag]) ho
    have hts := tallies_transitions hr hl (fun t ht => part_range hr hlo hk ht) htarget []
    refine (hopt (by simp +contextual)).bind fun entry' => (hopt (by simp +contextual)).bind
      fun exit' => hts.bind fun r => .pure fun hts hexit hentry => .single ?_
    have hts := hts [] T.nil
    refine ⟨by simp, hts.fine, fold hk rfl ?_⟩
    simpa [slotUses, parts, StateNode.children] using
      T.append (T.append hentry hexit) hts.holds
  all_goals simp [hk, tag] at htag

theorem tallies_stateMachine (hk : c.activity.kind id = .stateMachine states start first)
    (hdraws : W.Gives (stateMachine c lower id states first) (T.draws id)) :
    W.Runs (stateMachine c lower id states first) (stateMachine W.other lower' id states first)
      fun kind => T.holds [] [id] [.ofKind kind] := by
  suffices hrun : W.Runs (stateMachine c lower id states first)
      (stateMachine W.other lower' id states first) fun kind =>
        T.draws id kind → T.holds [] [id] [.ofKind kind] from
    (hrun.and hdraws).mono fun _ h => h.1 h.2
  unfold stateMachine
  have hpart := fun s hs => part_range hr hlo hk (m := s) hs
  refine (tallies_storesOf hr hid).bind fun vars => (runs_parts fun s hs =>
    tallies_state hr hl (hpart s hs).1 (hpart s hs).2.1 (List.mem_singleton.1 (hpart s hs).2.2)
      fun t ht b hb => hr.routed.imp_right fun h _ _ _ => h.2.target hk hs ht hb).bind
        fun lowered => ?_
  have hnode : ∀ {initial : Nat},
      T.Parts (fun _ => []) StateNode.slots StateNode.children [] states lowered → T.Vars vars →
      T.draws id (.stateMachine vars lowered initial) →
      T.holds [] [id] [.ofKind (.stateMachine vars lowered initial)] := fun hstates hvars hdraws =>
    T.landmark (by rw [hk]; rfl) rfl hdraws hvars.names
      (List.forall_mem_append.2 ⟨hvars.slots, hstates.fine⟩) (by rw [hk]; exact hstates.holds)
  rw [hr.included.stmtSpan hid]
  split
  · exact .pure hnode
  · next hnone =>
    rcases hr.routed with hloose | ⟨-, hrouted⟩
    · refine .report (hloose.allows _ _ (hr.placed.stmts id hid) (by decide)) fun _ => hnode
    · have hsome := hrouted.start hk
      rw [hnone] at hsome
      cases hsome

/-- A case without a target is dropped, but its key leaves nothing. -/
theorem tallies_flowNode {nodes : List StmtId}
    (htag : (c.activity.kind id).tag ∈ [StmtTag.flowStep, .flowIf, .flowSwitch]) :
    W.Runs (flowNode c lower nodes id) (flowNode W.other lower' nodes id) fun o =>
      T.Parts (fun _ => []) FlowNode.slots FlowNode.children [] [id] o.toList := by
  unfold flowNode
  rw [hr.included.kind hid]
  cases hk : c.activity.kind id
  case flowStep name action next resolved =>
    exact (tallies_child hr hl hlo hk (by simp [tag]) (by simp)).bind fun a =>
      .pure fun ha => .single ⟨by simp, by simp [FlowNode.slots], fold hk rfl ha⟩
  case flowIf name condition onTrue onFalse =>
    refine (tallies_restricted hr hk (f := condition) (by simp) _ _).bind fun v =>
      .pure fun hv => .single ⟨by simp, ?_, fold hk rfl hv.2⟩
    simpa [FlowNode.slots] using hv.1
  case flowSwitch name value cases fallback =>
    refine (tallies_restricted hr hk (f := value) (by simp) _ _).bind fun v =>
      (runs_filterMapM (T := T) (b := fun _ => []) (s := fun x : FlowSwitchCase => [x.key.expr])
        (t := fun _ => []) (F := fun x => [x.key]) (I := fun _ => []) fun case hcase => ?_).bind
          fun cs => .pure fun hcs hv => .single ⟨by simp, ?_, fold hk rfl ?_⟩
    · refine (tallies_restricted hr hk (f := case.key) ?_ _ _).bind fun key => .pure fun hkey => ?_
      · exact List.mem_cons_of_mem _ (List.mem_map_of_mem hcase)
      · cases target? nodes case.target with
        | none => exact ⟨by simp, by simp, hkey.2⟩
        | some goal => exact .single ⟨by simp, by simpa using hkey.1, hkey.2⟩
    · have hfine := hcs.fine
      rw [← List.map_eq_flatMap] at hfine
      exact List.forall_mem_cons.2 ⟨hv.1, hfine⟩
    · have hall := T.append hv.2 hcs.holds
      rwa [flatMap_nil, flatMap_nil, ← List.map_eq_flatMap] at hall
  all_goals simp [hk, tag] at htag

theorem tallies_flowchart {nodes : List StmtId} {start : Option StmtId}
    (hk : c.activity.kind id = .flow nodes start)
    (hdraws : W.Gives (flowchart c lower id nodes start) (T.draws id)) :
    W.Runs (flowchart c lower id nodes start) (flowchart W.other lower' id nodes start)
      fun kind => T.holds [] [id] [.ofKind kind] := by
  suffices hrun : W.Runs (flowchart c lower id nodes start)
      (flowchart W.other lower' id nodes start) fun kind =>
        T.draws id kind → T.holds [] [id] [.ofKind kind] from
    (hrun.and hdraws).mono fun _ h => h.1 h.2
  have hpart := fun m hm => part_range hr hlo hk (m := m) hm
  refine (tallies_storesOf hr hid).bind fun vars => (runs_parts fun m hm =>
    tallies_flowNode hr hl (hpart m hm).1 (hpart m hm).2.1 (hpart m hm).2.2).bind
      fun lowered => .pure fun hnodes hvars hdraws => ?_
  exact T.landmark (by rw [hk]; rfl) rfl hdraws hvars.names
    (List.forall_mem_append.2 ⟨hvars.slots, hnodes.fine⟩) (by rw [hk]; exact hnodes.holds)

end Inner

/-! ### Statements -/

section Statements

variable {lower lower' : Inner} {lo id : StmtId} {k : StmtKind} (hr : T.Ready)

include hr

theorem tallies_hosted (hm : W.Runs (lower m) (lower' m) fun r => T.holds [] [m] r.toList)
    (hstores : ∀ k ∈ stores, c.activity.NamesStore k) :
    W.Runs (hosted c lower m stores) (hosted W.other lower' m stores) fun r =>
      T.holds [] [m] r.toList := by
  refine hm.bind fun r => ?_
  split
  · exact .pure fun hr => hr
  · exact (tallies_variablesOf hr hstores).bind fun vars => .pure fun hvars hr => hvars.sequence hr

omit hr in
/-- The heads of chains are lowered to all that is in the chains. -/
theorem tallies_heads (hl : T.Inside lower lower' lo) (hin : ∀ m ∈ ms, lo < m ∧ T.Stands m)
    (hruns : ∀ t ∈ c.activity.headTails false ms, c.activity.chainFragments t ∈ c.activity.runs)
    (hchain : c.activity.chainsForward ms = true) (hasc : ms.Pairwise (· < ·)) :
    W.Runs ((c.activity.heads false ms).filterMapM lower)
      ((c.activity.heads false ms).filterMapM lower') (T.holds [] ms) := by
  induction hn : ms.length using Nat.strong_induction_on generalizing ms with
  | _ n ih =>
    cases ms with
    | nil => exact .pure T.nil
    | cons m rest =>
      have hsub := Activity.afterChain_sublist (a := c.activity) (m :: rest)
      have hshort := Activity.length_afterChain_cons (a := c.activity) m rest
      rw [Activity.headTails_cons, List.forall_mem_cons] at hruns
      have hafter := ih _ (by rw [List.length_cons] at hn; omega)
        (fun m hmem => hin m (hsub.subset hmem)) hruns.2 (Activity.chainsForward_afterChain hchain)
        (hasc.sublist hsub) rfl
      obtain ⟨hlt, hstands⟩ := hin m List.mem_cons_self
      rw [Activity.heads_cons, List.filterMapM_cons, List.filterMapM_cons]
      refine (hl.runs m rest hlt hstands ⟨hruns.1, hchain, hasc⟩).bind fun o => ?_
      cases o with
      | none => exact hafter.mono fun ns hns hbegins => hbegins ns hns
      | some n => exact hafter.bind fun ns => .pure fun hns hbegins => hbegins ns hns

omit hr in
theorem holds_steppedLoop (hflag : IsHolder flag) (hh : T.Lifts [f] h) (hcondition : T.fine condition)
    (hbody : T.holds [] [body] body'.toList) (testAfter : Bool) :
    T.holds (StmtKind.loop f body testAfter).slotUses [body]
      [steppedLoop flag h condition body' testAfter] := by
  have hevaluate := hh.vars.sequence (T.append hh.holds (T.write hflag hcondition))
  have hiteration := Vars.nil.sequence (T.append hbody hevaluate)
  have hcondition' : ∀ e ∈ [Expr.storeGet (.ident flag)], T.fine e := by
    simpa using (T.temp hflag).2
  have hloop := T.node (k := .loop { ty := some .boolean, expr := .storeGet (.ident flag) }
    (some _) testAfter) rfl (by simp) hcondition' hiteration
  have hvars : T.Vars [{ name := flag, ty := .boolean }] :=
    ⟨by simpa [VariableDecl.names] using (T.temp hflag).1, by simp [VariableDecl.slots]⟩
  cases testAfter with
  | true => exact hvars.sequence hloop
  | false => exact hvars.sequence (T.append hevaluate hloop)

variable (hl : T.Inside lower lower' lo) (hlo : lo ≤ id)

include hl hlo

theorem tallies_loop (hk : c.activity.kind id = .loop condition body testAfter) :
    W.Runs (loop c lower condition body testAfter) (loop W.other lower' condition body testAfter)
      fun n => T.holds [] [id] [n] := by
  refine (tallies_value hr hk (f := condition) (by simp) _).bind fun r =>
    (tallies_child hr hl hlo hk (by simp [tag]) (by simp)).bind fun body' => ?_
  split
  · next hempty =>
    refine .pure fun hbody hv => fold hk rfl (beside ?_ (T.node rfl (by simp) ?_ hbody))
    · have hnone := hv.2.of_isEmpty hempty
      cases testAfter with
      | true => exact hnone
      | false => exact T.append hnone hnone
    · simpa using hv.1
  · exact (View.Runs.tempVar (by simp)).bind fun flag => .pure fun hflag hbody hv =>
      fold hk rfl (holds_steppedLoop hflag hv.2 hv.1 hbody testAfter)

theorem tallies_switchCases (hk : c.activity.kind id = .switch subject cases fallback)
    (ty : Option TypeName) :
    W.Runs (cases.mapM (switchCase c lower ty)) (cases.mapM (switchCase W.other lower' ty))
      (T.Parts (fun _ => []) CaseNode.slots CaseNode.children (cases.map (·.key))
        (cases.map (·.body))) := by
  have hall := runs_mapM (T := T) (b := fun _ => []) (s := CaseNode.slots)
    (t := CaseNode.children) (F := fun x => [x.key]) (I := fun x => [x.body]) (l := cases)
    (f := switchCase c lower ty) (g := switchCase W.other lower' ty) fun case hcase => by
      refine (tallies_restricted hr hk (f := case.key) ?_ _ _).bind fun key =>
        (tallies_child hr hl hlo hk (m := case.body) (by simp [tag]) ?_).bind
          fun body => .pure fun hbody hkey => .single ⟨by simp, ?_, beside hkey.2 hbody⟩
      · exact List.mem_cons_of_mem _ (List.mem_map_of_mem hcase)
      · exact List.mem_append_left _ (List.mem_map_of_mem hcase)
      · simpa [CaseNode.slots] using hkey.1
  rwa [← List.map_eq_flatMap, ← List.map_eq_flatMap] at hall

variable (hid : id < c.activity.stmts.size)

include hid

theorem tallies_sequence (hlo' : lo = id) (hk : c.activity.kind id = .sequence members) :
    W.Runs (sequence c lower id members) (sequence W.other lower' id members) fun r =>
      T.holds [] [id] r.toList := by
  subst hlo'
  have ha := hr.wellBuilt.ordered
  have hlinked := (ha.linked lo).chained
  have hasc := ha.pairwise lo
  have hruns : ∀ t ∈ c.activity.headTails false (c.activity.kind lo).children,
      c.activity.chainFragments t ∈ c.activity.runs :=
    fun t ht => Activity.chainFragments_mem_runs ht
  rw [hk] at hlinked hasc hruns
  have hchain : c.activity.chainsForward members = true := hlinked
  have hchained : members.filterMap (chainedTo W.other.activity) =
      members.filterMap (chainedTo c.activity) := by
    refine List.filterMap_congr fun m hm => ?_
    have hm' : m < c.activity.stmts.size := hr.wellBuilt.lt_of_mem_children (by rw [hk]; exact hm)
    rw [chainedTo, chainedTo, hr.included.kind hm']
  have hheads := Activity.filter_eq_heads hchain hasc [] false (fun m _ => by simp)
    fun m _ => List.not_mem_nil
  rw [List.nil_append] at hheads
  unfold sequence
  rw [hchained]
  dsimp only
  rw [hheads]
  refine (tallies_storesOf hr hid).bind fun vars => (tallies_heads hl
    (fun m hm => stands_inner hr hk hm) hruns hchain hasc).bind fun nodes => ?_
  split
  · exact .pure fun hnodes _ => fold hk rfl hnodes
  · exact .pure fun hnodes _ => fold hk rfl hnodes
  · exact .pure fun hnodes hvars => fold hk rfl (hvars.sequence hnodes)

theorem tallies_handler (htag : (c.activity.kind id).tag = .handler) :
    W.Runs (handler c lower id) (handler W.other lower' id) fun o =>
      T.Parts CatchNode.binders (fun _ => []) CatchNode.children [] [id] o.toList := by
  unfold handler
  rw [hr.included.kind hid, hr.included.storesOf hid]
  cases hk : c.activity.kind id
  case handler exceptionType caught body =>
    have hget := hr.included.bind_stores (o := caught) fun k hcaught =>
      .part id (by rw [hk]; exact mem_toList.2 hcaught)
    dsimp only
    rw [hget]
    refine (tallies_hosted hr (tallies_child hr hl hlo hk (by simp [tag]) (by simp))
      fun k hk => ?_).bind fun r => .pure fun hbody =>
        .single ⟨fun x hx => ?_, by simp, fold hk rfl hbody⟩
    · exact .hosted (.statement id) (List.mem_filter.1 hk).1
    · obtain ⟨st, hst, rfl⟩ := map_eq_some_iff.1 (mem_toList.1 hx)
      obtain ⟨k, -, hk⟩ := bind_eq_some_iff.1 hst
      exact T.delegate st (Array.mem_of_getElem? hk)
  all_goals simp [hk, tag] at htag

theorem tallies_pickBranch (htag : (c.activity.kind id).tag = .pickBranch) :
    W.Runs (pickBranch c lower id) (pickBranch W.other lower' id) fun o =>
      T.Parts PickBranchNode.binders PickBranchNode.slots PickBranchNode.children [] [id]
        o.toList := by
  unfold pickBranch
  rw [hr.included.kind hid]
  cases hk : c.activity.kind id
  case pickBranch trigger action =>
    refine (tallies_storesOf hr hid).bind fun vars =>
      (tallies_child hr hl hlo hk (by simp [tag]) (by simp)).bind fun trigger' =>
        (tallies_option hr hl hlo hk (by simp [tag]) (by simp +contextual)).bind
          fun action' => .pure fun haction htrigger hvars => .single ?_
    exact ⟨hvars.names, hvars.slots, fold hk rfl (T.append htrigger haction)⟩
  all_goals simp [hk, tag] at htag

theorem tallies_forEach {item : StoreId} {values : Fragment} {atOnce : Bool}
    {completion : Option Fragment}
    (hk : c.activity.kind id = .forEach item values body atOnce completion) :
    W.Runs (forEach c lower id item values body atOnce completion)
      (forEach W.other lower' id item values body atOnce completion) fun r =>
        T.holds [] [id] r.toList := by
  obtain ⟨st, hst, -⟩ := (hr.wellBuilt.ordered.linked id).item item (by rw [hk]; rfl)
  have hmem := Array.mem_of_getElem? hst
  refine (tallies_value hr hk (f := values) (by simp) _).bind fun r => ?_
  rw [hr.included.storesOf hid,
    hr.included.stores item (.part id (by rw [hk]; exact List.mem_singleton_self item)), hst]
  refine (View.runs_storeType hmem).bind fun _ => (tallies_hosted hr
    (tallies_child hr hl hlo hk (by simp [tag]) (by simp)) fun k hk => ?_).bind fun b =>
      (tallies_optionalRestricted hr hk (o := completion) (by simp +contextual) _ _).bind fun v =>
        .pure fun hv hb _ hvalue => fold hk rfl (hvalue.2.wrap ⟨?_, ?_, beside hv.2 hb⟩ rfl rfl)
  · exact .hosted (.statement id) (List.mem_filter.1 hk).1
  · simpa using T.delegate st hmem
  · exact List.forall_mem_cons.2 ⟨hvalue.1, hv.1⟩

omit hl hlo in
/-- A statement that stands where it must not stand. -/
theorem tallies_misplaced (htext : text.toList.take 2 ≠ ['f', 'r']) (hloose : T.Loose) :
    W.Runs (misplaced c id text) (misplaced W.other id text) fun r =>
      T.holds [] [id] r.toList := by
  unfold misplaced
  rw [hr.included.stmtSpan hid]
  exact .report (hloose.allows _ _ (hr.placed.stmts id hid) htext) fun hstrict =>
    hloose.holds hstrict _ _

theorem tallies_transactedReceive {request : StmtId}
    (hk : c.activity.kind id = .transactedReceive request body) :
    W.Runs (transactedReceive c lower id request body)
      (transactedReceive W.other lower' id request body) fun r => T.holds [] [id] r.toList := by
  have hafter : id < request :=
    hr.wellBuilt.ordered.after id request (by rw [hk]; exact .head _)
  have hrequest := tallies_child hr hl hlo hk (m := request) (by simp [tag]) (by simp)
  have hbody := tallies_child hr hl hlo hk (m := body) (by simp [tag]) (by simp)
  refine (tallies_storesOf hr hid).bind fun vars => hrequest.bind_of
    (G := fun o => T.Loose ∨ o.isSome = true) (fun s => hr.routed.imp_right fun h => ?_)
    fun o ho => ?_
  · exact hl.service request (Nat.lt_of_le_of_lt hlo hafter)
      (h.2.request id request (by rw [hk]; rfl)) s
  cases o with
  | none =>
    exact (tallies_misplaced hr hid (by decide) (ho.resolve_right (by simp))).mono
      fun _ h _ _ => h
  | some request' =>
    exact hbody.bind fun b => .pure fun hb hq hvars =>
      fold hk rfl (T.node rfl hvars.names hvars.slots (T.append hq hb))

/-- Every statement but code, given what is inside it and how it is drawn itself. -/
theorem tallies_stmtWith (hlo' : lo = id) (hstands : T.Stands id)
    (hcode : (c.activity.kind id).tag ≠ .code)
    (hflow : ∀ {nodes start}, c.activity.kind id = .flow nodes start →
      W.Gives (flowchart c lower id nodes start) (T.draws id))
    (hmachine : ∀ {states start first}, c.activity.kind id = .stateMachine states start first →
      W.Gives (stateMachine c lower id states first) (T.draws id)) :
    W.Runs (stmtWith c lower id) (stmtWith W.other lower' id) fun r =>
      T.holds [] [id] r.toList := by
  have hpart := hstands.alone
  rw [hr.wellBuilt.ordered.tag] at hpart
  have hin : ∀ {k m}, c.activity.kind id = k → k.tag ≠ .sequence → m ∈ k.inner →
      W.Runs (lower m) (lower' m) fun r => T.holds [] [m] r.toList :=
    fun hk htag hm => tallies_child hr hl hlo hk htag hm
  have hopt : ∀ {k} {o : Option StmtId}, c.activity.kind id = k → k.tag ≠ .sequence →
      (∀ m ∈ o, m ∈ k.inner) →
      W.Runs (optional lower o) (optional lower' o) fun r => T.holds [] o.toList r.toList :=
    fun hk htag ho => tallies_option hr hl hlo hk htag ho
  unfold stmtWith
  rw [hr.included.kind hid]
  cases hk : c.activity.kind id
  case code => simp [hk, tag] at hcode
  case empty => exact .pure (fold hk rfl T.nil)
  case sequence => exact tallies_sequence hr hl hlo hid hlo' hk
  case conditional condition yes no =>
    refine (tallies_value hr hk (f := condition) (by simp) _).bind fun r =>
      (hin hk (by simp [tag]) (by simp)).bind fun yes' =>
        (hopt hk (by simp [tag]) (by simp +contextual)).bind fun no' =>
          .pure fun hno hyes hv => fold hk rfl (hv.2.wrap ⟨by simp, ?_, T.append hyes hno⟩ rfl rfl)
    simpa using hv.1
  case loop => exact (tallies_loop hr hl hlo hk).map fun _ h => h
  case switch subject cases fallback =>
    refine (tallies_value hr hk (f := subject) (by simp) _).bind fun r =>
      (tallies_switchCases hr hl hlo hk _).bind fun cs =>
        (hopt hk (by simp [tag]) (by simp +contextual)).bind fun d =>
          .pure fun hd hcs hv => fold hk rfl (hv.2.wrap ⟨by simp, ?_, ?_⟩ rfl rfl)
    · refine List.forall_mem_cons.2 ⟨hv.1, fun e he => ?_⟩
      obtain ⟨case, hcase, rfl⟩ := List.mem_map.1 he
      refine hcs.fine _ (List.mem_flatMap.2 ⟨case, hcase, ?_⟩)
      cases case
      exact List.mem_singleton_self _
    · have hall := T.append hcs.holds hd
      rwa [List.append_nil] at hall
  case raise exception =>
    cases exception with
    | none => exact .pure (fold hk rfl (T.node rfl (by simp) (by simp) T.nil))
    | some f =>
      refine (tallies_value hr hk (f := f) (by simp) _).bind fun r => .pure fun hv =>
        fold hk rfl (hv.2.wrap ⟨by simp, ?_, T.nil⟩ rfl rfl)
      simpa using hv.1
  case guarded body handlers final =>
    have hpart := fun m hm => part_range hr hlo hk (m := m) hm
    refine (hin hk (by simp [tag]) (by simp)).bind fun b => (runs_parts fun m hm =>
      tallies_handler hr hl (hpart m hm).1 (hpart m hm).2.1
        (List.mem_singleton.1 (hpart m hm).2.2)).bind fun hs =>
          (hopt hk (by simp [tag]) (by simp +contextual)).bind fun final' =>
            .pure fun hfinal hhs hb => fold hk rfl (T.node rfl hhs.binds (by simp) ?_)
    exact T.append (T.append hb hhs.holds) hfinal
  case forEach => exact tallies_forEach hr hl hlo hid hk
  case delay duration =>
    refine (tallies_value hr hk (f := duration) (by simp) _).bind fun r => .pure fun hv =>
      fold hk rfl (hv.2.wrap ⟨by simp, ?_, T.nil⟩ rfl rfl)
    simpa using hv.1
  case parallel branches completion =>
    refine (runs_parts (T := T) (b := fun _ => []) (s := fun _ => []) (t := fun n => [n])
      fun m hm => (hin hk (by simp [tag]) hm).mono fun r hm => ?_).bind fun ns =>
        (tallies_optionalRestricted hr hk (o := completion) (by simp +contextual) _ _).bind
          fun v => .pure fun hv hns => fold hk rfl (T.node rfl (by simp) hv.1 (beside hv.2 ?_))
    · exact ⟨by simp, by simp, by simpa using hm⟩
    · have hholds := hns.holds
      rwa [List.flatMap_singleton'] at hholds
  case pick branches =>
    have hpart := fun m hm => part_range hr hlo hk (m := m) hm
    exact (runs_parts fun m hm => tallies_pickBranch hr hl (hpart m hm).1 (hpart m hm).2.1
      (List.mem_singleton.1 (hpart m hm).2.2)).bind fun ps => .pure fun hps =>
        fold hk rfl (T.node rfl hps.binds hps.fine hps.holds)
  case stateMachine states start first =>
    exact (tallies_stateMachine hr hl hlo hid hk (hmachine hk)).bind fun _ => .pure fun h => h
  case flow nodes start =>
    exact (tallies_flowchart hr hl hlo hid hk (hflow hk)).bind fun _ => .pure fun h => h
  case transacted body timeout =>
    refine (tallies_optionalValue hr hk (o := timeout) (by simp) _).bind fun r =>
      (hin hk (by simp [tag]) (by simp)).bind fun b => .pure fun hb hv =>
        fold hk rfl (hv.2.wrap ⟨by simp, ?_, hb⟩ rfl (List.append_nil _).symm)
    exact hv.1
  case cancellable body onCancel =>
    exact (hin hk (by simp [tag]) (by simp)).bind fun b =>
      (hopt hk (by simp [tag]) (by simp +contextual)).bind fun d =>
        .pure fun hd hb => fold hk rfl (T.node rfl (by simp) (by simp) (T.append hb hd))
  case compensable body token compensation confirmation cancellation =>
    have hopt := fun o => hopt (o := o) hk (by simp [tag])
    refine (tallies_optionalLocation hr (fun k hk' => ?_) none some
      (Q := fun l : Option Location => ∀ e ∈ l.toList.map (·.handle), T.fine e) (by simp)
      (by simp)).bind fun l =>
        (hin hk (by simp [tag]) (by simp)).bind fun b => (hopt _ ?_).bind fun x =>
          (hopt _ ?_).bind fun y => (hopt _ ?_).bind fun z => .pure fun hz hy hx hb hl =>
            fold hk rfl (T.node rfl (by simp) ?_ (T.append (T.append (T.append hb hx) hy) hz))
    · exact .part id (by rw [hk]; exact mem_toList.2 hk')
    · simp +contextual
    · simp +contextual
    · simp +contextual
    · exact hl
  case confirm target | compensate target =>
    refine (tallies_optionalValue hr hk (o := target) (by simp) _).bind fun r => .pure fun hv =>
      fold hk rfl (hv.2.wrap ⟨by simp, ?_, T.nil⟩ rfl (List.append_nil _).symm)
    exact hv.1
  case persist => exact .pure (fold hk rfl (T.node rfl (by simp) (by simp) T.nil))
  case noPersist body =>
    exact (hin hk (by simp [tag]) (by simp)).bind fun b => .pure fun hb =>
      fold hk rfl (T.node rfl (by simp) (by simp) hb)
  case terminate reason exception =>
    refine (tallies_optionalValue hr hk (o := reason) (by simp +contextual) _).bind fun r =>
      (tallies_optionalValue hr hk (o := exception) (by simp +contextual) _).bind fun r' =>
        .pure fun hv' hv => fold hk rfl ((hv.2.append hv'.2).wrap ⟨by simp, ?_, T.nil⟩ rfl
          (List.append_nil _).symm)
    exact List.forall_mem_append.2 ⟨hv.1, hv'.1⟩
  case service op => exact (tallies_messaging hr hk).map fun _ h => h
  case contentCorrelation handle data =>
    refine (tallies_restricted hr hk (f := handle) (by simp) _ _).bind fun v =>
      (runs_slots (T := T) (s := fun p : String × ValueExpr => [p.2.expr]) fun p hp => ?_).bind
        fun ps => .pure fun hps hv => fold hk rfl (T.node rfl (by simp) ?_ (T.append hv.2 hps.2))
    · refine (tallies_restricted hr hk (f := p.value) ?_ _ _).bind fun v => .pure fun hv =>
        ⟨by simpa using hv.1, hv.2⟩
      exact List.mem_cons_of_mem _ (List.mem_map_of_mem hp)
    · have hfine := hps.1
      rw [← List.map_eq_flatMap] at hfine
      exact List.forall_mem_cons.2 ⟨hv.1, hfine⟩
  case transactedReceive => exact tallies_transactedReceive hr hl hlo hid hk
  -- the parts of constructs do not stand by themselves
  all_goals
    rw [hk] at hpart
    exact tallies_misplaced hr hid (by decide)
      (hpart.resolve_right (by simp [tag, StmtTag.isPart]))

end Statements

/-! ### Activities -/

section Activities

variable (hr : T.Ready)

include hr

theorem isSome_stmt {n m : Nat} (htag : c.activity.tag m = .service)
    (hn : c.activity.stmts.size - m ≤ n) (s : LowerState) :
    ((stmt c n m).run s).1.isSome = true := by
  rw [hr.wellBuilt.ordered.tag] at htag
  obtain ⟨op, hk⟩ : ∃ op, c.activity.kind m = .service op := by
    cases hk : c.activity.kind m <;> rw [hk] at htag <;> simp [tag] at htag ⊢
  have hm := Activity.lt_size_of_service? (Activity.service?_eq_some.2 hk)
  have hpos := Nat.sub_pos_of_lt hm
  obtain ⟨n, rfl⟩ : ∃ k, n = k + 1 := ⟨n - 1, by omega⟩
  rw [stmt, stmtWith, hk]
  rfl

/-- No statement lies deeper than there are statements after it. -/
theorem tallies_stmt {n n' m : Nat} {rest : List StmtId} (hn : c.activity.stmts.size - m ≤ n)
    (hn' : c.activity.stmts.size - m ≤ n') (hstands : T.Stands m)
    (hstarts : c.activity.Starts m rest) :
    W.Runs (stmt c n m) (stmt W.other n' m) (T.Begins m rest) := by
  induction n generalizing n' m rest with
  | zero =>
    have hlt : @LT.lt Nat _ m c.activity.stmts.size := hstands.lt_size
    omega
  | succ n ih =>
    have hm : @LT.lt Nat _ m c.activity.stmts.size := hstands.lt_size
    obtain ⟨n', rfl⟩ : ∃ k, n' = k + 1 := ⟨n' - 1, by omega⟩
    have hless : ∀ i : StmtId, m < i → c.activity.stmts.size - i < c.activity.stmts.size - m :=
      fun i hlt => Nat.sub_lt_sub_left hm hlt
    have hinside : T.Inside (stmt c n) (stmt W.other n') m := by
      refine ⟨fun i rest' hlt hstands hstarts => ?_, fun i hlt htag s => ?_⟩
      all_goals have hlt := hless i hlt
      · exact ih (by omega) (by omega) hstands hstarts
      · exact isSome_stmt hr htag (by omega) s
    by_cases htag : (c.activity.kind m).tag = .code
    · have hstmt : stmt c (n + 1) m = codeRun c m ∧
          stmt W.other (n' + 1) m = codeRun W.other m := by
        rw [stmt, stmt, stmtWith, stmtWith, hr.included.kind hm]
        cases hk : c.activity.kind m
        case code => exact ⟨rfl, rfl⟩
        all_goals simp [hk, tag] at htag
      rw [hstmt.1, hstmt.2]
      exact (View.runs_codeRun hr.toSees hm).gives (T.code hstarts htag)
    · have hafter : c.activity.afterChain (m :: rest) = rest := by
        rw [Activity.afterChain, Activity.isUnchained, chainedTo]
        cases hk : c.activity.kind m
        case code => simp [hk, tag] at htag
        all_goals rfl
      refine (tallies_stmtWith hr hinside (Nat.le_refl m) hm rfl hstands htag (T.flow n · hn)
        (T.machine n · hn)).mono fun r hr ns hns => ?_
      rw [hafter] at hns
      exact T.append hr hns

variable (hroot : T.Loose ∨ (c.activity.tag c.activity.root).isPart = false)

include hroot

theorem tallies_root : W.Runs (root c) (root W.other) fun n => ∃ vars body, T.Vars vars ∧
      T.holds [] [c.activity.root] body.toList ∧ n = withVariables vars body := by
  have ha := hr.wellBuilt
  have hget : ∀ k ∈ c.activity.activityStores, (W.other.activity.stores[k]?).any (·.kind == .var) =
      (c.activity.stores[k]?).any (·.kind == .var) := fun k hk => by
    rw [hr.included.stores k (.hosted .activity hk)]
  have hunchained : c.activity.isUnchained c.activity.root = true := by
    rw [Activity.isUnchained, ha.unchained, isNone_none]
  have hlt : c.activity.root < c.activity.stmts.size := by
    rw [ha.root_eq.1]
    exact ha.root_eq.2.1
  have hstarts : c.activity.Starts c.activity.root [] :=
    ⟨List.mem_cons_self, hunchained, List.pairwise_singleton ..⟩
  have hafter : c.activity.afterChain [c.activity.root] = [] := by
    rw [Activity.afterChain, if_pos hunchained]
  unfold root
  dsimp only
  rw [hr.included.own, List.filter_congr hget, hr.included.root]
  refine (tallies_variablesOf hr fun k hk => ?_).bind fun vars => (tallies_stmt hr
    (Nat.sub_le _ _) ((Nat.sub_le _ _).trans hr.included.size) ⟨hlt, hroot⟩ hstarts).bind
      fun body => .pure fun hbody hvars => ⟨vars, body, hvars, ?_, rfl⟩
  · exact .hosted .activity (List.mem_filter.1 hk).1
  · have hholds := hbody [] (by rw [hafter]; exact T.nil)
    rwa [List.append_nil] at hholds

omit hroot in
theorem tallies_arguments :
    W.Runs (arguments c) (arguments W.other) fun as => ∀ a ∈ as, T.binds a.name := by
  unfold arguments
  dsimp only
  have hnames : ∀ k ∈ c.activity.parameters ++ c.activity.result.toList,
      c.activity.NamesStore k := fun k hk =>
    (List.mem_append.1 hk).elim .parameter fun hk => .result (mem_toList.1 hk)
  rw [hr.included.parameters, hr.included.result,
    List.filterMap_congr fun k hk => hr.included.stores k (hnames k hk)]
  refine (runs_mapM (T := T) (b := fun a : ArgumentDecl => [a.name]) (s := fun _ => [])
    (t := fun _ => []) (F := fun _ => []) (I := fun _ => []) fun st hst => ?_).mono
      fun as has a ha => has.binds _ (List.mem_flatMap.2 ⟨a, ha, List.mem_singleton_self _⟩)
  obtain ⟨k, -, hk⟩ := List.mem_filterMap.1 hst
  have hmem := Array.mem_of_getElem? hk
  exact (View.runs_storeType hmem).bind fun _ => .pure fun _ =>
    .single ⟨by simpa using T.name st hmem, by simp, T.nil⟩

theorem tallies_graph (ns : Option String) : W.Runs (graph c ns) (graph W.other ns) fun g =>
      (∃ vars body, T.Vars vars ∧ T.holds [] [c.activity.root] body.toList ∧
        g.body = withVariables vars body) ∧ ∀ a ∈ g.arguments, T.binds a.name := by
  unfold graph
  rw [hr.included.name]
  exact (tallies_root hr hroot).bind fun _ => (tallies_arguments hr).bind fun _ =>
    .pure fun harguments hbody => ⟨hbody, harguments⟩

theorem holds_lower (ns : Option String)
    (hstrict : W.strict → (c.activity.lower ns c.semantics c.maxDepth).2 = []) :
    (∃ vars body, T.Vars vars ∧ T.holds [] [c.activity.root] body.toList ∧
      (c.activity.lower ns c.semantics c.maxDepth).1.body = withVariables vars body) ∧
        ∀ a ∈ (c.activity.lower ns c.semantics c.maxDepth).1.arguments, T.binds a.name :=
  (tallies_graph hr hroot ns).given {} hstrict

theorem allows_lower (ns : Option String) :
    ∀ e ∈ (c.activity.lower ns c.semantics c.maxDepth).2, W.allows e := by
  obtain ⟨new, hnew, hallows⟩ := (tallies_graph hr hroot ns).reports {}
  intro e he
  refine hallows e ?_
  rw [show new = _ from hnew.symm]
  exact he

theorem other_lower (ns : Option String)
    (hstrict : W.strict → (c.activity.lower ns c.semantics c.maxDepth).2 = []) :
    W.other.activity.lower ns W.other.semantics W.other.maxDepth =
      c.activity.lower ns c.semantics c.maxDepth := by
  have hsame := ((tallies_graph hr hroot ns).ends {} hstrict).1
  unfold Activity.lower
  exact congrArg (fun r => (r.1, r.2.errors.errors)) hsame

end Activities

end Workflow.Lower
