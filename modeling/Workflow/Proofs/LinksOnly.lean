import Workflow.Proofs.Matching

/-!
# Resolution only links

Resolution leaves the statements of an activity where they are, with the code that they hold. It
fills in targets, starts and partners. Each pair of a reply and a request that it links gets a store
of its own, with a marker that was not given out before, and all other stores stay as they were.
-/

namespace Workflow

/-- An operation with a partner filled in. A reply that has one may take over its contract and its
operation. -/
structure ServiceOperation.Completes (op op' : ServiceOperation) : Prop where
  bare : op'.bare = op.bare
  request : ∀ q, op.request = some q → op'.request = some q
  reply : ∀ r, op.reply = some r → op'.reply = some r
  store : ∀ k, op.correlationStore = some k → op'.correlationStore = some k
  contract : op.contract.isSome = true ∨ op'.request = none → op'.contract = op.contract
  operation : op.operation.isSome = true ∨ op'.request = none → op'.operation = op.operation

namespace Activity

variable {a b c : Activity} {r q : StmtId} {k : StoreId} {reply request : ServiceOperation}

/-- The reply and the request know each other, and the request holds their handle. -/
def Tied (a : Activity) (r q : StmtId) (k : StoreId) : Prop :=
  ∃ reply request, a.service? r = some reply ∧ reply.request = some q ∧
    a.service? q = some request ∧ request.reply = some r ∧ request.correlationStore = some k

/-- The first activity with links filled in, and with a handle for each pair of a reply and its
request. The markers of the handles are after `first` and up to `last`. -/
structure Links (a b : Activity) (first last : Nat) (handles : List Store) : Prop
    extends Keeps a b where
  children : ∀ i, (b.kind i).children = (a.kind i).children
  fragments : ∀ i, (b.kind i).slots = (a.kind i).slots
  operation : ∀ i op, a.service? i = some op →
    ∃ op', b.service? i = some op' ∧ op.Completes op'
  stores_eq : b.stores.toList = a.stores.toList ++ handles
  own_eq : b.activityStores = a.activityStores ++ List.range' a.stores.size handles.length
  isHandle : ∀ st ∈ handles, st.IsHandle
  distinct : (handles.map Store.marker).Nodup
  fresh : ∀ st ∈ handles, first < st.marker ∧ st.marker ≤ last
  pair : ∀ n < handles.length, ∃! p : StmtId × StmtId, b.Tied p.1 p.2 (a.stores.size + n)
  linked : ∀ r q op, b.service? r = some op → op.request = some q →
    ∃ n < handles.length, b.Tied r q (a.stores.size + n)

/-! ### One pair -/

/-- The operations of the first activity are there in the second, completed. -/
def Completes (a b : Activity) : Prop :=
  ∀ i op, a.service? i = some op → ∃ op', b.service? i = some op' ∧ op.Completes op'

theorem Completes.of_eq (h : ∀ i, b.service? i = a.service? i) : Completes a b := fun i op hop =>
  ⟨op, (h i).trans hop, rfl, fun _ => id, fun _ => id, fun _ => id, fun _ => rfl, fun _ => rfl⟩

theorem Completes.trans (h : Completes a b) (h' : Completes b c) : Completes a c := by
  intro i op hop
  obtain ⟨op', hop', h⟩ := h i op hop
  obtain ⟨op'', hop'', h'⟩ := h' i op' hop'
  have hnone : op''.request = none → op'.request = none := fun hnone => by
    cases hq : op'.request with
    | none => rfl
    | some q =>
      rw [h'.request q hq] at hnone
      cases hnone
  refine ⟨op'', hop'', h'.bare.trans h.bare, fun q hq => h'.request q (h.request q hq),
    fun r hr => h'.reply r (h.reply r hr), fun k hk => h'.store k (h.store k hk), ?_, ?_⟩
  · intro hor
    have hsame := h.contract (hor.imp_right hnone)
    exact (h'.contract (hsame ▸ hor)).trans hsame
  · intro hor
    have hsame := h.operation (hor.imp_right hnone)
    exact (h'.operation (hsame ▸ hor)).trans hsame

theorem Tied.completes (h : a.Tied r q k) (hab : Completes a b) : b.Tied r q k := by
  obtain ⟨reply, request, hr, hq, hrequest, hreply, hk⟩ := h
  obtain ⟨reply', hr', hc⟩ := hab r reply hr
  obtain ⟨request', hrequest', hc'⟩ := hab q request hrequest
  exact ⟨reply', request', hr', hc.request q hq, hrequest', hc'.reply r hreply, hc'.store k hk⟩

theorem completes_tie (handle : Store)
    (hr : a.service? r = some reply) (hq : a.service? q = some request)
    (hreply : reply.kind.isReply = true) (hrequest : request.kind.isReply = false)
    (hfree : reply.request = none) (hunclaimed : request.reply = none)
    (hopen : request.correlationStore = none) : Completes a (a.tie handle r q request) := by
  intro i op hop
  rw [service?_tie handle hr hq hreply hrequest]
  split
  case isTrue hi =>
    subst hi
    cases hr.symm.trans hop
    refine ⟨_, rfl, rfl, fun q' hq' => ?_, fun _ => id, fun _ => id, ?_, ?_⟩
    · rw [hfree] at hq'
      cases hq'
    · rintro (hsome | hnone)
      · cases hc : reply.contract with
        | none => simp [hc] at hsome
        | some _ => rfl
      · cases hnone
    · rintro (hsome | hnone)
      · cases ho : reply.operation with
        | none => simp [ho] at hsome
        | some _ => rfl
      · cases hnone
  case isFalse =>
    split
    case isTrue hi =>
      subst hi
      cases hq.symm.trans hop
      refine ⟨_, rfl, rfl, fun _ => id, fun r' hr' => ?_, fun k' hk' => ?_, fun _ => rfl,
        fun _ => rfl⟩
      · rw [hunclaimed] at hr'
        cases hr'
      · rw [hopen] at hk'
        cases hk'
    case isFalse =>
      exact ⟨op, hop, rfl, fun _ => id, fun _ => id, fun _ => id, fun _ => rfl, fun _ => rfl⟩

/-! ### All pairs -/

/-- The operations of the first activity were completed, and each store that was added is the handle
of a pair. -/
structure Grafts (a b : Activity) : Prop where
  completes : Completes a b
  le : a.stores.size ≤ b.stores.size
  tied : ∀ k, a.stores.size ≤ k → k < b.stores.size → ∃ r q, b.Tied r q k
  later : ∀ {q op k}, b.service? q = some op → op.correlationStore = some k → a.stores.size ≤ k

theorem Grafts.tie {handle : Store} (h : Grafts a b) (hb : b.Correlated)
    (hr : b.service? r = some reply) (hq : b.service? q = some request)
    (hreply : reply.kind.isReply = true) (hrequest : request.kind.isReply = false)
    (hfree : reply.request = none) (hunclaimed : request.reply = none) :
    Grafts a (b.tie handle r q request) := by
  have hopen : request.correlationStore = none := by
    have hclaimed := hb.claimed hq
    rw [hunclaimed, Option.isSome_none] at hclaimed
    simpa using hclaimed
  have hcompletes := completes_tie handle hr hq hreply hrequest hfree hunclaimed hopen
  have hservice := service?_tie handle hr hq hreply hrequest
  have hsize : (b.tie handle r q request).stores.size = b.stores.size + 1 := by
    rw [Activity.tie, stores_modifyService, stores_modifyService, stores_addStore, Array.size_push]
  refine ⟨h.completes.trans hcompletes, by have := h.le; omega, fun k hk hlt => ?_, ?_⟩
  · rcases Nat.lt_or_ge k b.stores.size with hold | hnew
    · obtain ⟨r', q', htied⟩ := h.tied k hk hold
      exact ⟨r', q', htied.completes hcompletes⟩
    · obtain rfl : k = b.stores.size := by omega
      have hne := (reply_ne_request hr hq hreply hrequest).symm
      exact ⟨r, q, _, _, (hservice r).trans (if_pos rfl), rfl,
        (hservice q).trans ((if_neg hne).trans (if_pos rfl)), rfl, rfl⟩
  · intro i op k hop hk
    rcases tie_cases hr hq hreply hrequest hop with ⟨-, rfl⟩ | ⟨-, rfl⟩ | hop
    · exact h.later hr hk
    · cases hk
      exact h.le
    · exact h.later hop hk

theorem Grafts.look {s : ResolveState} (h : Grafts a s.activity) (ops before : List StmtId)
    {id : StmtId} (hs : s.activity.Correlated) (huntied : Resolve.Untied s.activity [id]) :
    Grafts a (Resolve.look ops before id s).activity := by
  unfold Resolve.look
  cases hop : s.activity.service? id with
  | none => exact h
  | some op =>
    dsimp only
    split
    case isFalse => exact h
    case isTrue hreply =>
      have htemps : ∀ n, Grafts a { s.activity with temps := n } := fun n =>
        ⟨h.completes, h.le, h.tied, h.later⟩
      rcases Resolve.correlateReply_cases ops before hop with
        ⟨e, n, ids, -, ht⟩ | ⟨q, request, handle, n, ids, hq, hrequest, -, hunclaimed, -, ht⟩
      · rw [ht]
        exact htemps n
      · rw [ht]
        exact (htemps n).tie (hs.temps n) hop hq hreply hrequest
          (huntied id List.mem_cons_self op hop hreply) hunclaimed

/-- Correlation completes the operations as they were built. -/
theorem WellBuilt.grafts_resolve (ha : a.WellBuilt) (hf : a.Formed) (ids : Ids)
    (errors : Diagnostics) : Grafts a (a.resolve ids errors).1 := by
  have hunlinked := ha.unlinked_jumped hf ids errors
  have hservice := ha.service?_partsAfter (List.nodup_range (n := a.stmts.size))
  have hstart : Grafts a (a.jumped ids errors).activity := by
    refine ⟨.of_eq fun i => congrFun hservice i, Nat.le_refl _, fun k hk hlt => ?_,
      fun hop hk => ?_⟩
    · exact absurd hlt (Nat.not_lt.2 hk)
    · rw [(hunlinked _ _ hop).2.2] at hk
      cases hk
  rw [ha.resolve_eq]
  exact Resolve.correlateFrom_preserves (P := fun s => Grafts a s.activity) a.serviceOperations []
    (fun before id t ht huntied h => h.look _ before ht huntied)
    (hf.sorted.imp fun h => Nat.ne_of_lt h) (correlated_of_unlinked hunlinked)
    (fun r _ op hop _ => (hunlinked r op hop).1) hstart

end Activity

/-- Resolution only links: it leaves everything else of an activity as it is, adds the handles of
the pairs that it links, and reports its errors after those that were there. -/
theorem resolve_links_only {ids ids' : Ids} {unit : Nat} {node : ParseNode} {a : Activity}
    (h : Activity.build ids unit node = (.ok a, ids')) (last : Ids) (errors : Diagnostics) :
    (∃ handles, a.Links (a.resolve last errors).1 last.markers (a.resolve last errors).2.1.markers
      handles) ∧ errors.errors <+: (a.resolve last errors).2.2.errors := by
  have ha := (Activity.build_ids h).1
  have hf := (Activity.formed_build h).1
  obtain ⟨es, hb, hanswers, herrors, -⟩ := ha.resolve_spec hf last errors
  have hgrafts := ha.grafts_resolve hf last errors
  have hkeeps : ResolveState.Keeps ⟨last, a, errors⟩ ⟨(a.resolve last errors).2.1,
    (a.resolve last errors).1, (a.resolve last errors).2.2⟩ := Resolve.keeps_all.2
  generalize a.resolve last errors = resolved at *
  obtain ⟨b, last', errors'⟩ := resolved
  obtain ⟨handles, hhandles⟩ := hkeeps.table
  refine ⟨⟨handles, ?_⟩, herrors ▸ List.append_assoc _ _ _ ▸ List.prefix_append _ _⟩
  dsimp only at hhandles hgrafts hanswers hb ⊢
  have hsize : b.stores.size = a.stores.size + handles.length := by
    rw [← Array.length_toList, ← hhandles, List.length_append, Array.length_toList]
  -- the markers of the handles are those that were given out for them
  have hmarkers : (handles.map Store.marker : Multiset Marker) ≤
      (Finset.Ioc last.markers last'.markers).val := by
    obtain ⟨new, hnew, hle⟩ := hkeeps.fresh
    have hadded : b.storeMarkers = a.storeMarkers + handles.map Store.marker := by
      rw [Activity.storeMarkers, Activity.storeMarkers, ← hhandles, List.map_append,
        Multiset.coe_add]
    exact le_of_eq_of_le (add_left_cancel (hadded.symm.trans hnew)) hle
  refine ⟨hkeeps.toKeeps, fun i => (hkeeps.kind i).children, fun i => (hkeeps.kind i).slots,
    hgrafts.completes, hhandles.symm, ?own, ?isHandle, ?distinct, ?fresh, ?pair, ?linked⟩
  case own => rw [hkeeps.own, hsize, Nat.add_sub_cancel_left]
  case isHandle =>
    intro st hst
    obtain ⟨n, hn⟩ := List.getElem?_of_mem hst
    have hget : b.stores[a.stores.size + n]? = some st := by
      rw [← Array.getElem?_toList, ← hhandles, ← Array.length_toList,
        List.getElem?_append_right (Nat.le_add_right _ _), Nat.add_sub_cancel_left, hn]
    refine (hanswers.stores hget).resolve_left fun hold => ?_
    exact absurd (Array.getElem?_eq_some_iff.1 hold).1 (Nat.not_lt.2 (Nat.le_add_right _ _))
  case distinct => exact Multiset.coe_nodup.1 (Multiset.nodup_of_le hmarkers (Finset.nodup _))
  case fresh =>
    exact fun st hst => Finset.mem_Ioc.1 (Multiset.mem_of_le hmarkers
      (Multiset.mem_coe.2 (List.mem_map_of_mem hst)))
  case pair =>
    intro n hn
    obtain ⟨r, q, htied⟩ := hgrafts.tied (a.stores.size + n) (Nat.le_add_right _ _) (by omega)
    refine ⟨(r, q), htied, fun p hp => ?_⟩
    obtain ⟨_, rq, -, -, hq, hr, hk⟩ := htied
    obtain ⟨_, rq', -, -, hq', hr', hk'⟩ := hp
    obtain heq : p.2 = q := hb.apart hq' hk' hq hk
    rw [heq] at hq'
    cases hq.symm.trans hq'
    exact Prod.ext (Option.some.inj (hr'.symm.trans hr)) heq
  case linked =>
    intro r q op hr hq
    obtain ⟨-, rq, hrq, -, -, hreply⟩ := hb.request hr hq
    obtain ⟨k, hk⟩ := Option.isSome_iff_exists.1 ((hb.claimed hrq).2 (by rw [hreply]; rfl))
    have hle := hgrafts.later hrq hk
    obtain ⟨-, st, hst, -⟩ := hb.handle hrq hk
    have hlt := (Array.getElem?_eq_some_iff.1 hst).1
    refine ⟨k - a.stores.size, by omega, op, rq, hr, hq, hrq, hreply, ?_⟩
    rw [hk, Nat.add_sub_cancel' hle]

theorem resolve_links_only_conversationNode : ∃ a ids',
    Activity.build {} 0 conversationNode = (.ok a, ids') ∧
    (a.stores.size = 0 ∧ (a.resolve ids' {}).1.activityStores = [0]) ∧
    (∃ handles, a.Links (a.resolve ids' {}).1 ids'.markers (a.resolve ids' {}).2.1.markers
      handles) ∧ ([] : List CompileError) <+: (a.resolve ids' {}).2.2.errors := by
  obtain ⟨a, ids', h, hstores⟩ := conversationNode.exists_of_builds
    (P := fun a ids' => a.stores.size = 0 ∧ (a.resolve ids' {}).1.activityStores = [0])
    (by decide +kernel)
  exact ⟨a, ids', h, hstores, resolve_links_only h ids' {}⟩

end Workflow
