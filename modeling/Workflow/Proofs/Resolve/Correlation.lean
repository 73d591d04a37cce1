import Workflow.Proofs.Build.Resolve
import Workflow.Proofs.Resolve.Activity

/-!
# What correlating replies does

A reply is looked at once. Either it is tied to a request of its side that no reply has claimed
before, and the two share a new store, or one error is reported for it. So what is tied together at
any time is a matching between replies and requests.
-/

namespace Workflow

open List Option

variable {op : ServiceOperation} {a : Activity} {rest : List StmtId}

def handleName (n : Nat) : String := s!"__handle{n}"

/-- A store that was declared for a correlation handle. -/
structure Store.IsHandle (st : Store) : Prop where
  name : ∃ n, st.name = handleName n
  ty : st.ty = correlationHandleType
  kind : st.kind = .var
  host : st.host = .activity
  redirect : st.redirect = none

namespace Activity

variable {a b c : Activity} {i id : StmtId}

/-! ### Operations -/

theorem service?_congr (h : b.kind i = a.kind i) : b.service? i = a.service? i := by
  rw [service?, service?, h]

section ModifyService

variable (a id) (f : ServiceOperation → ServiceOperation)

theorem service?_modifyService (i : StmtId) : (a.modifyService id f).service? i =
      if i = id then (a.service? id).map f else a.service? i := by
  unfold modifyService
  split
  case h_1 op hk =>
    have hop : a.service? id = some op := service?_eq_some.2 hk
    split
    case isTrue hi =>
      subst hi
      rw [hop, map_some, service?_eq_some,
        kind_setKind_self _ _ _ (lt_size_of_service? hop)]
    case isFalse hi => exact service?_congr (kind_setKind_of_ne _ _ _ hi)
  case h_2 hother =>
    split
    case isTrue hi =>
      subst hi
      cases hop : a.service? i with
      | none => rfl
      | some op => exact (hother op (service?_eq_some.1 hop)).elim
    case isFalse => rfl

theorem kind_modifyService (hi : a.service? i = none) :
    (a.modifyService id f).kind i = a.kind i := by
  unfold modifyService
  split
  case h_1 op hk =>
    refine kind_setKind_of_ne _ _ _ fun h => ?_
    rw [h, service?_eq_some.2 hk] at hi
    cases hi
  case h_2 => rfl

@[simp]
theorem stores_modifyService : (a.modifyService id f).stores = a.stores := by
  unfold modifyService
  split <;> rfl

@[simp]
theorem activityStores_modifyService : (a.modifyService id f).activityStores = a.activityStores := by
  unfold modifyService
  split <;> rfl

@[simp]
theorem serviceOperations_modifyService :
    (a.modifyService id f).serviceOperations = a.serviceOperations := by
  unfold modifyService
  split <;> rfl

@[simp]
theorem stmtSpan_modifyService (i : StmtId) : (a.modifyService id f).stmtSpan i = a.stmtSpan i := by
  unfold modifyService
  split
  · rw [setKind_eq_rekind, stmtSpan_rekind]
  · rfl

end ModifyService

/-- Resolving jumps leaves the messaging operations as they are. -/
theorem WellBuilt.service?_partsAfter (ha : a.WellBuilt)
    (hnodup : ids.Nodup) : (a.rekind (a.partsAfter ids)).service? = a.service? := by
  funext i
  rcases ha.partsAfter_cases hnodup i with h | ⟨id, -, hmem, -⟩
  · exact service?_congr ((ha.kind_partsAfter hnodup i).trans (h _))
  · -- a statement that is changed is no operation, before and after
    have hnone : ∀ b : Activity, (b.kind i).tag = (a.kind i).tag → b.service? i = none := by
      intro b hb
      cases hop : b.service? i with
      | none => rfl
      | some op =>
        have howner := ha.jumpOf_of_mem_touches hmem
        rw [service?_eq_some.1 hop] at hb
        rw [jumpOf, ha.ordered.tag i, ← hb] at howner
        cases howner
    rw [hnone a rfl, hnone]
    rw [ha.kind_partsAfter hnodup, ha.tag_partsAfter hnodup]

theorem lookup_activity (a : Activity) (name : String) :
    a.lookup .activity name = a.findNamed name a.activityStores := by
  rw [lookup, visible]
  cases h : a.findNamed name a.activityStores <;> simp [h]

/-! ### Matchings -/

/-- Replies and requests are matched. -/
structure Correlated (a : Activity) : Prop where
  /-- A reply that is tied to a request is known to it, and both are of the same side. -/
  request : ∀ {r q op}, a.service? r = some op → op.request = some q → op.kind.isReply = true ∧
    ∃ rq, a.service? q = some rq ∧ rq.kind.isReply = false ∧ rq.kind.side = op.kind.side ∧
      rq.reply = some r
  /-- A request that was claimed is known to the reply that claimed it. -/
  reply : ∀ {q r op}, a.service? q = some op → op.reply = some r → op.kind.isReply = false ∧
    ∃ rp, a.service? r = some rp ∧ rp.request = some q
  /-- Exactly the requests that were claimed have a handle. -/
  claimed : ∀ {q op}, a.service? q = some op →
    (op.correlationStore.isSome = true ↔ op.reply.isSome = true)
  /-- The handles are variables of the activity. -/
  handle : ∀ {q k op}, a.service? q = some op → op.correlationStore = some k →
    k ∈ a.activityStores ∧ ∃ st, a.stores[k]? = some st ∧ st.IsHandle
  /-- No two requests share a handle. -/
  apart : ∀ {q q' k op op'}, a.service? q = some op → op.correlationStore = some k →
    a.service? q' = some op' → op'.correlationStore = some k → q = q'

theorem correlated_of_unlinked (h : ∀ i op, a.service? i = some op → op.IsUnlinked) :
    a.Correlated where
  request hop hq := by
    rw [(h _ _ hop).1] at hq
    cases hq
  reply hop hr := by
    rw [(h _ _ hop).2.1] at hr
    cases hr
  claimed hop := by rw [(h _ _ hop).2.1, (h _ _ hop).2.2]
  handle hop hk := by
    rw [(h _ _ hop).2.2] at hk
    cases hk
  apart hop hk := by
    rw [(h _ _ hop).2.2] at hk
    cases hk

/-- No request is claimed by two replies. -/
theorem Correlated.injective (h : a.Correlated)
    (hr : a.service? r = some op) (hq : op.request = some q) (hr' : a.service? r' = some op')
    (hq' : op'.request = some q) : r = r' := by
  obtain ⟨-, rq, hrq, -, -, hreply⟩ := h.request hr hq
  obtain ⟨-, rq', hrq', -, -, hreply'⟩ := h.request hr' hq'
  cases hrq.symm.trans hrq'
  exact some.inj (hreply.symm.trans hreply')

/-- An unclaimed request is the request of no reply. -/
theorem Correlated.request_ne (h : a.Correlated) (hq : a.service? q = some rq)
    (hunclaimed : rq.reply = none) (hop : a.service? i = some op) : op.request ≠ some q := by
  intro hrequest
  obtain ⟨-, rq', hrq, -, -, hreply⟩ := h.request hop hrequest
  cases hq.symm.trans hrq
  rw [hunclaimed] at hreply
  cases hreply

/-- A reply without a request is the reply to none. -/
theorem Correlated.reply_ne (h : a.Correlated) (hr : a.service? r = some rp)
    (hfree : rp.request = none) (hop : a.service? i = some op) : op.reply ≠ some r := by
  intro hreply
  obtain ⟨-, rp', hrp, hrequest⟩ := h.reply hop hreply
  cases hr.symm.trans hrp
  rw [hfree] at hrequest
  cases hrequest

def isUnlinkedReply (a : Activity) (id : StmtId) : Bool :=
  (a.service? id).any fun op => op.kind.isReply && op.request.isNone

/-- The error accounts for a reply: it has no request, its request was claimed, or the name of the
shared handle is taken. -/
def Unanswered (a : Activity) (r : StmtId) (e : CompileError) : Prop :=
  ∃ reply, a.service? r = some reply ∧
    (e = (Cause.requestNotFound reply.displayName).error (a.stmtSpan r) ∨
    ∃ q request, a.service? q = some request ∧ request.kind.isReply = false ∧
      request.kind.side = reply.kind.side ∧
      ((request.reply.isSome = true ∧
        e = (Cause.requestAlreadyReferenced request.displayName).error (a.stmtSpan r)) ∨
      ∃ n, (a.lookup .activity (handleName n)).isSome = true ∧
        e = (Cause.duplicateName (handleName n)).error (a.stmtSpan q)))

/-! ### What correlation keeps -/

/-- From the first activity to the second, the replies listed were looked at. -/
structure Answers (a b : Activity) (rs : List StmtId) : Prop where
  span : ∀ i, b.stmtSpan i = a.stmtSpan i
  operations : b.serviceOperations = a.serviceOperations
  kind : ∀ i, (b.service? i).map (·.kind) = (a.service? i).map (·.kind)
  /-- Statements that are no operations are left as they are. -/
  other : ∀ {i}, a.service? i = none → b.kind i = a.kind i
  /-- Other replies are left as they are. -/
  reply : ∀ {i op}, a.service? i = some op → op.kind.isReply = true → i ∉ rs →
    b.service? i = some op
  /-- A request keeps its name and stays claimed. -/
  request : ∀ {i op}, a.service? i = some op → op.kind.isReply = false →
    ∃ op', b.service? i = some op' ∧ op'.kind = op.kind ∧ op'.displayName = op.displayName ∧
      (op.reply.isSome = true → op'.reply.isSome = true)
  stores : ∀ {k : StoreId} {st : Store}, b.stores[k]? = some st → a.stores[k]? = some st ∨ st.IsHandle
  kept : ∀ {k : StoreId} {st : Store}, a.stores[k]? = some st → b.stores[k]? = some st
  visible : ∀ k ∈ a.activityStores, k ∈ b.activityStores

namespace Answers

variable {rs rs' : List StmtId}

theorem trans (h : Answers a b rs) (h' : Answers b c rs') : Answers a c (rs ++ rs') where
  span i := (h'.span i).trans (h.span i)
  operations := h'.operations.trans h.operations
  kind i := (h'.kind i).trans (h.kind i)
  other {i} hi := by
    have hkind := h.kind i
    rw [hi, map_none, map_eq_none_iff] at hkind
    exact (h'.other hkind).trans (h.other hi)
  reply hop hreply hi := by
    rw [mem_append, not_or] at hi
    exact h'.reply (h.reply hop hreply hi.1) hreply hi.2
  request hop hreply := by
    obtain ⟨op', hop', hkind, hname, hclaimed⟩ := h.request hop hreply
    obtain ⟨op'', hop'', hkind', hname', hclaimed'⟩ := h'.request hop' (hkind ▸ hreply)
    exact ⟨op'', hop'', hkind'.trans hkind, hname'.trans hname, hclaimed' ∘ hclaimed⟩
  stores hst := by
    rcases h'.stores hst with hst | hst
    · exact h.stores hst
    · exact .inr hst
  kept hst := h'.kept (h.kept hst)
  visible k hk := h'.visible k (h.visible k hk)

theorem of_eq (hstmts : b.stmts = a.stmts) (hops : b.serviceOperations = a.serviceOperations)
    (hstores : b.stores = a.stores) (hvisible : b.activityStores = a.activityStores) :
    Answers a b rs := by
  have hkind : ∀ i, b.kind i = a.kind i := fun i => by rw [Activity.kind, Activity.kind, hstmts]
  have hservice : ∀ i, b.service? i = a.service? i := fun i => service?_congr (hkind i)
  exact {
    span i := by rw [stmtSpan, stmtSpan, hstmts]
    operations := hops
    kind i := by rw [hservice]
    other _ := hkind _
    reply hop _ _ := (hservice _).trans hop
    request hop _ := ⟨_, (hservice _).trans hop, rfl, rfl, id⟩
    stores hst := .inl (hstores ▸ hst)
    kept hst := hstores ▸ hst
    visible k hk := hvisible ▸ hk }

theorem isSome_lookup (h : Answers a b rs) {name : String}
    (hname : (a.lookup .activity name).isSome = true) : (b.lookup .activity name).isSome = true := by
  rw [lookup_activity, isSome_iff_ne_none] at hname ⊢
  refine fun hb => hname (findNamed_eq_none.2 fun k hk st hst => ?_)
  exact findNamed_eq_none.1 hb k (h.visible k hk) st (h.kept hst)

theorem isUnlinkedReply (h : Answers a b rs) (hr : r ∉ rs) :
    b.isUnlinkedReply r = a.isUnlinkedReply r := by
  have hkind := h.kind r
  rw [Activity.isUnlinkedReply, Activity.isUnlinkedReply]
  cases hop : a.service? r with
  | none =>
    rw [hop, map_none, map_eq_none_iff] at hkind
    rw [hkind]
  | some op =>
    cases hreply : op.kind.isReply with
    | true => rw [h.reply hop hreply hr]
    | false =>
      obtain ⟨op', hop', hkind', -⟩ := h.request hop hreply
      rw [hop', any_some, any_some, hkind', hreply, Bool.false_and, Bool.false_and]

/-- An error that accounts for a reply does so until the reply is looked at again. -/
theorem unanswered (h : Answers a b rs)
    (hop : a.service? r = some op) (hreply : op.kind.isReply = true) (hr : r ∉ rs)
    (he : a.Unanswered r e) : b.Unanswered r e := by
  obtain ⟨reply, hr', he⟩ := he
  cases hop.symm.trans hr'
  refine ⟨op, h.reply hop hreply hr, ?_⟩
  rw [h.span]
  refine he.imp_right ?_
  rintro ⟨q, request, hq, hrequest, hside, he⟩
  obtain ⟨request', hq', hkind, hname, hclaimed⟩ := h.request hq hrequest
  refine ⟨q, request', hq', hkind ▸ hrequest, hkind ▸ hside, ?_⟩
  rw [hname, h.span]
  refine he.imp (fun he => ⟨hclaimed he.1, he.2⟩) ?_
  rintro ⟨n, hn, he⟩
  exact ⟨n, h.isSome_lookup hn, he⟩

end Answers

/-! ### Tying a reply to its request -/

/-- A new handle ties the reply `r` to the request `q`. -/
def tie (a : Activity) (handle : Store) (r q : StmtId) (request : ServiceOperation) : Activity :=
  ((a.addStore handle).modifyService q fun op =>
    { op with reply := some r, correlationStore := some a.stores.size }).modifyService r fun op =>
    { op with
      request := some q
      contract := op.contract <|> request.contract
      operation := op.operation <|> request.operation }

section Tie

variable {handle : Store} {r q : StmtId} {reply request : ServiceOperation}
  (hr : a.service? r = some reply) (hq : a.service? q = some request)
  (hreply : reply.kind.isReply = true) (hrequest : request.kind.isReply = false)

theorem stores_tie : (a.tie handle r q request).stores = a.stores.push handle := by
  rw [tie, stores_modifyService, stores_modifyService, stores_addStore]

theorem activityStores_tie (h : handle.IsHandle) :
    (a.tie handle r q request).activityStores = a.activityStores ++ [a.stores.size] := by
  rw [tie, activityStores_modifyService, activityStores_modifyService]
  unfold addStore
  rw [h.host]

include hr hq hreply hrequest

theorem reply_ne_request : r ≠ q := by
  rintro rfl
  cases hr.symm.trans hq
  rw [hreply] at hrequest
  cases hrequest

variable (handle) in
/-- The reply and the request know each other, and all other operations are as before. -/
theorem service?_tie (i : StmtId) : (a.tie handle r q request).service? i =
      if i = r then some { reply with
          request := some q
          contract := reply.contract <|> request.contract
          operation := reply.operation <|> request.operation }
      else if i = q then
        some { request with reply := some r, correlationStore := some a.stores.size }
      else a.service? i := by
  have hne := reply_ne_request hr hq hreply hrequest
  have hadd : ∀ i, (a.addStore handle).service? i = a.service? i := fun i =>
    service?_congr (kind_addStore a handle i)
  rw [tie, service?_modifyService, service?_modifyService, service?_modifyService, if_neg hne,
    hadd, hadd, hadd, hr, hq]
  rfl

theorem tie_cases (hop : (a.tie handle r q request).service? i = some op) :
    (i = r ∧ op = { reply with
      request := some q
      contract := reply.contract <|> request.contract
      operation := reply.operation <|> request.operation }) ∨
    (i = q ∧ op = { request with reply := some r, correlationStore := some a.stores.size }) ∨
    a.service? i = some op := by
  rw [service?_tie handle hr hq hreply hrequest] at hop
  split at hop
  case isTrue hi => exact .inl ⟨hi, some.inj hop.symm⟩
  case isFalse =>
    split at hop
    case isTrue hi => exact .inr (.inl ⟨hi, some.inj hop.symm⟩)
    case isFalse => exact .inr (.inr hop)

theorem answers_tie (hhandle : handle.IsHandle) : Answers a (a.tie handle r q request) [r] := by
  have hservice := service?_tie handle hr hq hreply hrequest
  constructor
  case span =>
    intro i
    rw [tie, stmtSpan_modifyService, stmtSpan_modifyService]
    unfold addStore
    rw [hhandle.host]
    rfl
  case operations =>
    rw [tie, serviceOperations_modifyService, serviceOperations_modifyService,
      serviceOperations_addStore]
  case kind =>
    intro i
    rw [hservice]
    split
    case isTrue hi =>
      rw [hi, hr]
      rfl
    case isFalse =>
      split
      case isTrue hi =>
        rw [hi, hq]
        rfl
      case isFalse => rfl
  case other =>
    intro i hi
    have hadd : (a.addStore handle).service? i = none :=
      (service?_congr (kind_addStore a handle i)).trans hi
    have hfirst := kind_modifyService (a.addStore handle) q
      (fun op => { op with reply := some r, correlationStore := some a.stores.size }) hadd
    rw [tie, kind_modifyService _ _ _ ((service?_congr hfirst).trans hadd), hfirst, kind_addStore]
  case reply =>
    intro i op hop hop' hi
    have hiq := reply_ne_request hop hq hop' hrequest
    rw [hservice, if_neg fun h => hi (mem_singleton.2 h), if_neg hiq, hop]
  case request =>
    intro i op hop hop'
    have hir := reply_ne_request hr hop hreply hop'
    rw [hservice, if_neg hir.symm]
    split
    case isTrue hi =>
      subst hi
      cases hop.symm.trans hq
      exact ⟨_, rfl, rfl, rfl, fun _ => rfl⟩
    case isFalse => exact ⟨op, hop, rfl, rfl, id⟩
  case stores =>
    intro k st hst
    rw [stores_tie, Array.getElem?_push] at hst
    split at hst
    · cases hst
      exact .inr hhandle
    · exact .inl hst
  case kept =>
    intro k st hst
    have hlt : k < a.stores.size := (Array.getElem?_eq_some_iff.1 hst).1
    rw [stores_tie, Array.getElem?_push, if_neg (Nat.ne_of_lt hlt), hst]
  case visible =>
    intro k hk
    rw [activityStores_tie hhandle]
    exact mem_append_left _ hk

/-- Tying a reply without a request to a request without a reply keeps the matching. -/
theorem Correlated.tie (ha : a.Correlated) (hhandle : handle.IsHandle)
    (hside : request.kind.side = reply.kind.side) (hfree : reply.request = none)
    (hunclaimed : request.reply = none) : (a.tie handle r q request).Correlated := by
  have hne := reply_ne_request hr hq hreply hrequest
  have hservice := service?_tie handle hr hq hreply hrequest
  have hkeeps := answers_tie hr hq hreply hrequest hhandle
  have hold : ∀ {i op k}, a.service? i = some op → op.correlationStore = some k →
      k ≠ a.stores.size := by
    intro i op k hop hk
    obtain ⟨-, st, hst, -⟩ := ha.handle hop hk
    exact Nat.ne_of_lt (Array.getElem?_eq_some_iff.1 hst).1
  have hcases : ∀ {i op}, (a.tie handle r q request).service? i = some op → _ := fun hop =>
    tie_cases hr hq hreply hrequest hop
  constructor
  case request =>
    intro i j op hop hj
    rcases hcases hop with ⟨rfl, rfl⟩ | ⟨rfl, rfl⟩ | hop
    · cases hj
      have hq' := hservice q
      rw [if_neg hne.symm, if_pos rfl] at hq'
      exact ⟨hreply, _, hq', hrequest, hside, rfl⟩
    · exact (reply_ne_request hq hq (ha.request hq hj).1 hrequest rfl).elim
    · obtain ⟨hop', rq, hrq, hrest⟩ := ha.request hop hj
      refine ⟨hop', rq, ?_, hrest⟩
      have hjr := reply_ne_request hr hrq hreply hrest.1
      have hjq : j ≠ q := fun h => ha.request_ne hq hunclaimed hop (h ▸ hj)
      rw [hservice, if_neg hjr.symm, if_neg hjq, hrq]
  case reply =>
    intro i j op hop hj
    rcases hcases hop with ⟨rfl, rfl⟩ | ⟨rfl, rfl⟩ | hop
    · exact (reply_ne_request hr hr hreply (ha.reply hr hj).1 rfl).elim
    · cases hj
      have hr' := hservice r
      rw [if_pos rfl] at hr'
      exact ⟨hrequest, _, hr', rfl⟩
    · obtain ⟨hop', rp, hrp, hrest⟩ := ha.reply hop hj
      refine ⟨hop', rp, ?_, hrest⟩
      have hjq := reply_ne_request hrp hq (ha.request hrp hrest).1 hrequest
      have hjr : j ≠ r := fun h => ha.reply_ne hr hfree hop (h ▸ hj)
      rw [hservice, if_neg hjr, if_neg hjq, hrp]
  case claimed =>
    intro i op hop
    rcases hcases hop with ⟨rfl, rfl⟩ | ⟨rfl, rfl⟩ | hop
    · have hclaimed := ha.claimed hr
      exact hclaimed
    · exact ⟨fun _ => rfl, fun _ => rfl⟩
    · exact ha.claimed hop
  case handle =>
    have hlast : ∀ {i k op}, a.service? i = some op → op.correlationStore = some k →
        k ∈ (a.tie handle r q request).activityStores ∧
          ∃ st, (a.tie handle r q request).stores[k]? = some st ∧ st.IsHandle := by
      intro i k op hop hk
      obtain ⟨hmem, st, hst, hst'⟩ := ha.handle hop hk
      exact ⟨hkeeps.visible k hmem, st, hkeeps.kept hst, hst'⟩
    intro i k op hop hk
    rcases hcases hop with ⟨rfl, rfl⟩ | ⟨rfl, rfl⟩ | hop
    · exact hlast hr hk
    · cases hk
      refine ⟨?_, handle, ?_, hhandle⟩
      · rw [activityStores_tie hhandle]
        exact mem_append_right _ (mem_singleton.2 rfl)
      · rw [stores_tie]
        exact Array.getElem?_push_size
    · exact hlast hop hk
  case apart =>
    -- the handle that is new belongs to the request alone
    have howner : ∀ {i k op}, (a.tie handle r q request).service? i = some op →
        op.correlationStore = some k → (i = q ∧ k = a.stores.size) ∨
          ∃ op', a.service? i = some op' ∧ op'.correlationStore = some k := by
      intro i k op hop hk
      rcases hcases hop with ⟨rfl, rfl⟩ | ⟨rfl, rfl⟩ | hop
      · exact .inr ⟨reply, hr, hk⟩
      · exact .inl ⟨rfl, some.inj hk.symm⟩
      · exact .inr ⟨op, hop, hk⟩
    intro i i' k op op' hop hk hop' hk'
    rcases howner hop hk with ⟨rfl, rfl⟩ | ⟨o, ho, hok⟩ <;>
      rcases howner hop' hk' with ⟨rfl, hk'⟩ | ⟨o', ho', hok'⟩
    · rfl
    · exact (hold ho' hok' rfl).elim
    · exact (hold ho hok hk').elim
    · exact ha.apart ho hok ho' hok'

end Tie

theorem Correlated.temps (h : a.Correlated) (n : Nat) : Correlated { a with temps := n } :=
  ⟨h.request, h.reply, h.claimed, h.handle, h.apart⟩

end Activity

namespace Resolve

open Activity

theorem bind_run {α β : Type} (x : Resolve α) (f : α → Resolve β) (s : ResolveState) :
    (x >>= f) s = f (x s).1 (x s).2 := rfl

variable {s : ResolveState} {r q : StmtId} {reply : ServiceOperation} {ops before : List StmtId}

theorem isRequest_iff : isRequest a side q = true ↔
      ∃ op, a.service? q = some op ∧ op.kind.isReply = false ∧ op.kind.side = side := by
  unfold isRequest
  cases a.service? q <;> simp

theorem request_of_requestOf (h : requestOf a ops before reply = some q) :
    ∃ op, a.service? q = some op ∧ op.kind.isReply = false ∧ op.kind.side = reply.kind.side := by
  rw [← isRequest_iff]
  unfold requestOf at h
  split at h
  · have hfound := find?_some h
    exact (Bool.and_eq_true _ _ ▸ hfound).1
  · exact find?_some h

theorem declareHandle_cases (q : StmtId) (s : ResolveState) :
    (∃ n ids, (s.activity.lookup .activity (handleName n)).isSome = true ∧
      declareHandle q s = (none, {
        ids := ids
        activity := { s.activity with temps := n }
        errors := s.errors.push
          ((Cause.duplicateName (handleName n)).error (s.activity.stmtSpan q)) })) ∨
    ∃ n ids handle, handle.IsHandle ∧ declareHandle q s = (some s.activity.stores.size, { s with
        ids := ids
        activity := { s.activity with temps := n }.addStore handle }) := by
  unfold declareHandle
  dsimp only [modifyGet, MonadStateOf.modifyGet, StateT.modifyGet]
  split
  case h_1 k b hd =>
    obtain ⟨-, rfl, rfl⟩ := declare_eq_ok hd
    exact .inr ⟨s.activity.temps + 1, _, _, ⟨⟨_, rfl⟩, rfl, rfl, rfl, rfl⟩, rfl⟩
  case h_2 e he =>
    unfold declare at he
    split at he
    case h_2 => cases he
    case h_1 k hk =>
      cases he
      refine .inl ⟨s.activity.temps + 1, _, ?_, rfl⟩
      exact isSome_iff_exists.2 ⟨k, hk⟩

variable (ops before) in
/-- A reply that is looked at is tied to a request that is free, or one error accounts for it. -/
theorem correlateReply_cases (hr : s.activity.service? r = some reply) :
    (∃ e n ids, s.activity.Unanswered r e ∧ (correlateReply ops before r reply s).2 =
        { ids := ids, activity := { s.activity with temps := n }, errors := s.errors.push e }) ∨
    ∃ q request handle n ids, s.activity.service? q = some request ∧
      request.kind.isReply = false ∧ request.kind.side = reply.kind.side ∧
      request.reply = none ∧ handle.IsHandle ∧
      (correlateReply ops before r reply s).2 = { s with
        ids := ids
        activity := Activity.tie { s.activity with temps := n } handle r q request } := by
  have hread : activity s = (s.activity, s) := rfl
  unfold correlateReply
  rw [bind_run, hread]
  dsimp only
  cases hfound : requestOf s.activity ops before reply with
  | none => exact .inl ⟨_, s.activity.temps, s.ids, ⟨reply, hr, .inl rfl⟩, rfl⟩
  | some q =>
    obtain ⟨request, hq, hkind, hside⟩ := request_of_requestOf hfound
    dsimp only
    rw [hq]
    dsimp only
    split
    case isTrue hclaimed =>
      exact .inl ⟨_, s.activity.temps, s.ids,
        ⟨reply, hr, .inr ⟨q, request, hq, hkind, hside, .inl ⟨hclaimed, rfl⟩⟩⟩, rfl⟩
    case isFalse hclaimed =>
      have hfree : request.reply = none := by simpa using hclaimed
      rcases declareHandle_cases q s with ⟨n, ids, hn, hdeclare⟩ | ⟨n, ids, handle, hh, hdeclare⟩
      · refine .inl ⟨_, n, ids,
          ⟨reply, hr, .inr ⟨q, request, hq, hkind, hside, .inr ⟨n, hn, rfl⟩⟩⟩, ?_⟩
        rw [bind_run, hdeclare]
        rfl
      · refine .inr ⟨q, request, handle, n, ids, hq, hkind, hside, hfree, hh, ?_⟩
        rw [bind_run, hdeclare]
        rfl

/-- The replies among the operations that are left have no request yet. -/
def Untied (a : Activity) (rest : List StmtId) : Prop :=
  ∀ r ∈ rest, ∀ op, a.service? r = some op → op.kind.isReply = true → op.request = none

def look (ops before : List StmtId) (id : StmtId) (s : ResolveState) : ResolveState :=
  match s.activity.service? id with
  | some op => if op.kind.isReply then (correlateReply ops before id op s).2 else s
  | none => s

theorem correlateFrom_cons (id : StmtId) (rest : List StmtId) :
    correlateFrom ops before (id :: rest) s =
      correlateFrom ops (id :: before) rest (look ops before id s) := by
  have hrun : correlateFrom ops before (id :: rest) s = (match s.activity.service? id with
      | some op => if op.kind.isReply then do
          correlateReply ops before id op
          correlateFrom ops (id :: before) rest
        else correlateFrom ops (id :: before) rest
      | none => correlateFrom ops (id :: before) rest) s := rfl
  rw [hrun, look]
  cases s.activity.service? id with
  | none => rfl
  | some op =>
    dsimp only
    split <;> rfl

variable (ops before) in
theorem look_spec (id : StmtId) (hs : s.activity.Correlated) (huntied : Untied s.activity [id]) :
    (look ops before id s).activity.Correlated ∧
      Answers s.activity (look ops before id s).activity [id] ∧
      (((look ops before id s).errors = s.errors ∧
          (look ops before id s).activity.isUnlinkedReply id = false) ∨
        ∃ e, (look ops before id s).errors = s.errors.push e ∧
          (look ops before id s).activity.isUnlinkedReply id = true ∧
          (look ops before id s).activity.Unanswered id e) := by
  unfold look
  cases hop : s.activity.service? id with
  | none => exact ⟨hs, .of_eq rfl rfl rfl rfl, .inl ⟨rfl, by simp [isUnlinkedReply, hop]⟩⟩
  | some op =>
    dsimp only
    split
    case isFalse hreply =>
      exact ⟨hs, .of_eq rfl rfl rfl rfl, .inl ⟨rfl, by simp [isUnlinkedReply, hop, hreply]⟩⟩
    case isTrue hreply =>
      have hfree := huntied id mem_cons_self op hop hreply
      rcases correlateReply_cases ops before hop with
        ⟨e, n, ids, he, ht⟩ | ⟨q, request, handle, n, ids, hq, hrequest, hside, hunclaimed, hh, ht⟩
      · rw [ht]
        refine ⟨hs.temps n, .of_eq rfl rfl rfl rfl, .inr ⟨e, rfl, ?_, he⟩⟩
        change s.activity.isUnlinkedReply id = true
        simp [isUnlinkedReply, hop, hreply, hfree]
      · rw [ht]
        have hsame : Answers s.activity { s.activity with temps := n } [] := .of_eq rfl rfl rfl rfl
        refine ⟨(hs.temps n).tie hop hq hreply hrequest hh hside hfree hunclaimed,
          hsame.trans (answers_tie hop hq hreply hrequest hh), .inl ⟨rfl, ?_⟩⟩
        have htied := service?_tie (a := { s.activity with temps := n }) handle hop hq
          hreply hrequest id
        rw [isUnlinkedReply, htied, if_pos rfl]
        simp

theorem Untied.answers {b : Activity} {id : StmtId} (h : Untied a (id :: rest)) (hid : id ∉ rest)
    (hab : Answers a b [id]) : Untied b rest := by
  intro r hr op hop hreply
  obtain ⟨op', hop', hkind⟩ : ∃ op', a.service? r = some op' ∧ op'.kind = op.kind := by
    have hkind := hab.kind r
    rw [hop] at hkind
    exact map_eq_some_iff.1 hkind.symm
  have hsame := hab.reply hop' (hkind ▸ hreply) fun h => hid (mem_singleton.1 h ▸ hr)
  cases hop.symm.trans hsame
  exact h r (mem_cons_of_mem _ hr) op hop' hreply

theorem Untied.first {id : StmtId} (h : Untied a (id :: rest)) : Untied a [id] :=
  fun r hr => h r (mem_singleton.1 hr ▸ mem_cons_self)

/-- What looking at an operation preserves is preserved by looking at all. -/
theorem correlateFrom_preserves {P : ResolveState → Prop} (ops before : List StmtId)
    (hlook : ∀ before id t, t.activity.Correlated → Untied t.activity [id] → P t →
      P (look ops before id t)) (hnodup : rest.Nodup)
    (hs : s.activity.Correlated) (huntied : Untied s.activity rest) (hP : P s) :
    P (correlateFrom ops before rest s).2 := by
  induction rest generalizing s before with
  | nil => exact hP
  | cons id rest ih =>
    obtain ⟨hid, hnodup⟩ := nodup_cons.1 hnodup
    obtain ⟨ht, hst, -⟩ := look_spec ops before id hs huntied.first
    rw [correlateFrom_cons]
    exact ih (id :: before) hnodup ht (huntied.answers hid hst)
      (hlook before id s hs huntied.first hP)

/-- Every reply that is looked at stays without a request exactly if an error accounts for it. -/
theorem correlateFrom_spec (ops before : List StmtId) (hnodup : rest.Nodup)
    (hs : s.activity.Correlated) (huntied : Untied s.activity rest) :
    ∃ t es, correlateFrom ops before rest s = ((), t) ∧ t.activity.Correlated ∧
      Answers s.activity t.activity rest ∧ t.errors.errors = s.errors.errors ++ es ∧
      Forall₂ t.activity.Unanswered (rest.filter t.activity.isUnlinkedReply) es := by
  induction rest generalizing s before with
  | nil =>
    exact ⟨s, [], rfl, hs, .of_eq rfl rfl rfl rfl, (append_nil _).symm, .nil⟩
  | cons id rest ih =>
    obtain ⟨hid, hnodup⟩ := nodup_cons.1 hnodup
    obtain ⟨ht, hst, hlook⟩ := look_spec ops before id hs huntied.first
    rw [correlateFrom_cons]
    generalize look ops before id s = t at ht hst hlook ⊢
    obtain ⟨u, es, hrest, hu, htu, herrors, hes⟩ :=
      ih (id :: before) hnodup ht (huntied.answers hid hst)
    have hlinked := htu.isUnlinkedReply hid
    rw [hrest]
    rcases hlook with ⟨hnone, hfalse⟩ | ⟨e, hone, htrue, he⟩
    · refine ⟨u, es, rfl, hu, hst.trans htu, by rw [herrors, hnone], ?_⟩
      rw [filter_cons, hlinked, hfalse]
      exact hes
    · refine ⟨u, e :: es, rfl, hu, hst.trans htu, ?_, ?_⟩
      · rw [herrors, hone, Diagnostics.errors_push, append_assoc]
        rfl
      · rw [filter_cons, hlinked, htrue]
        refine .cons ?_ hes
        obtain ⟨op, hop, hreply⟩ : ∃ op, t.activity.service? id = some op ∧
            op.kind.isReply = true := by
          unfold isUnlinkedReply at htrue
          cases hop : t.activity.service? id with
          | none => simp [hop] at htrue
          | some op =>
            rw [hop, any_some, Bool.and_eq_true] at htrue
            exact ⟨op, rfl, htrue.1⟩
        exact htu.unanswered hop hreply hid he

end Resolve

namespace Activity

/-- The state in which all jumps are resolved. -/
def jumped (a : Activity) (ids : Ids) (errors : Diagnostics) : ResolveState where
  ids := ids
  activity := a.rekind (a.partsAfter (range a.stmts.size))
  errors := errors.extend ((range a.stmts.size).flatMap a.jumpErrors)

theorem WellBuilt.resolve_eq (ha : a.WellBuilt) (ids : Ids) (errors : Diagnostics) :
    a.resolve ids errors = let s := (Resolve.correlateFrom a.serviceOperations [] a.serviceOperations
        (a.jumped ids errors)).2
      (s.activity, s.ids, s.errors) := by
  have hjumps := Resolve.rewrites_preorder ha { ids := ids, activity := a, errors := errors } rfl
  have hsteps : Resolve.all { ids := ids, activity := a, errors := errors } =
      Resolve.correlate (a.preorder.forM Resolve.jumps
        { ids := ids, activity := a, errors := errors }).2 := rfl
  change (let s := (Resolve.all { ids := ids, activity := a, errors := errors }).2
    (s.activity, s.ids, s.errors)) = _
  rw [hsteps, hjumps]
  rfl

/-- Nothing is linked before replies are correlated. -/
theorem WellBuilt.unlinked_jumped (ha : a.WellBuilt) (hf : a.Formed) (ids : Ids)
    (errors : Diagnostics) (i : StmtId) (op : ServiceOperation)
    (hop : (a.jumped ids errors).activity.service? i = some op) : op.IsUnlinked := by
  rw [jumped, ha.service?_partsAfter (nodup_range (n := a.stmts.size))] at hop
  exact ((hf.kind i).registered op (service?_eq_some.1 hop)).2

/-- Resolution resolves all jumps as they were built, and then ties replies to requests. -/
theorem WellBuilt.resolve_spec (ha : a.WellBuilt) (hf : a.Formed) (ids : Ids)
    (errors : Diagnostics) : ∃ es, (a.resolve ids errors).1.Correlated ∧
      Answers (a.rekind (a.partsAfter (range a.stmts.size))) (a.resolve ids errors).1
        a.serviceOperations ∧
      (a.resolve ids errors).2.2.errors =
        errors.errors ++ (range a.stmts.size).flatMap a.jumpErrors ++ es ∧
      Forall₂ (a.resolve ids errors).1.Unanswered
        (a.serviceOperations.filter (a.resolve ids errors).1.isUnlinkedReply) es := by
  have hunlinked := ha.unlinked_jumped hf ids errors
  obtain ⟨t, es, hrun, ht, hkeeps, herrors, hes⟩ := Resolve.correlateFrom_spec a.serviceOperations []
    (hf.sorted.imp fun h => Nat.ne_of_lt h) (correlated_of_unlinked hunlinked)
    fun r _ op hop _ => (hunlinked r op hop).1
  rw [ha.resolve_eq, hrun]
  exact ⟨es, ht, hkeeps, herrors, hes⟩

end Activity

end Workflow
