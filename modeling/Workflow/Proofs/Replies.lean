import Workflow.Proofs.JumpTargets
import Workflow.Proofs.Matching

/-!
# Requests in a graph

The messaging nodes of a graph are those of the operations of the activity, one for each. A reply
refers to its request by the identity of the node of the request. Whether it is the only node with
the identity depends on the names of the operations: only the identities of operations without a
name are told apart by the place of the statement.
-/

namespace Workflow

open List Lower Activity Option

variable {op : ServiceOperation} {a : Activity} {m : ServiceKind × MessagingNode}

namespace Lower

theorem takeWhile_reverse_append (h : ∀ c ∈ ds, c.isDigit = true) :
    (xs ++ '_' :: ds).reverse.takeWhile Char.isDigit = ds.reverse := by
  rw [reverse_append, reverse_cons, append_assoc,
    takeWhile_append_of_pos fun c hc => h c (mem_reverse.1 hc)]
  simp

/-- The identities of operations without a name are told apart by the places of the operations. -/
theorem messagingId_inj (h : op.name = none)
    (h' : op'.name = none) (heq : messagingId i op = messagingId j op') : i = j := by
  have hlist : (sanitize op.displayName).toList ++ '_' :: Nat.toDigits 10 i =
      (sanitize op'.displayName).toList ++ '_' :: Nat.toDigits 10 j := by
    have hchars := congrArg String.toList heq
    simpa [messagingId, h, h', toString] using hchars
  have hdigit : ∀ n : Nat, ∀ c ∈ Nat.toDigits 10 n, c.isDigit = true :=
    fun n c hc => Nat.isDigit_of_mem_toDigits (by decide) (by decide) hc
  have hends := congrArg (fun xs => xs.reverse.takeWhile Char.isDigit) hlist
  simp only [takeWhile_reverse_append (hdigit _), reverse_inj] at hends
  rw [← Nat.ofDigitChars_ten_toDigits (n := i), ← Nat.ofDigitChars_ten_toDigits (n := j), hends]

theorem countP_eq_of_forall₂ {α β : Type} {R : α → β → Prop} {p : α → Bool} {q : β → Bool}
    {xs : List α} {ys : List β} (h : Forall₂ R xs ys) (hpq : ∀ x y, R x y → p x = q y) :
    ys.countP q = xs.countP p := by
  have hmap : xs.map p = ys.map q := map_eq_of_forall₂ (h.imp fun x y hxy => hpq x y hxy)
  have hcount := congrArg (countP id) hmap
  rw [countP_map, countP_map] at hcount
  exact hcount.symm

theorem countP_eq_one_iff {α : Type} {p : α → Bool} {xs : List α} {x : α} (hnodup : xs.Nodup)
    (hx : x ∈ xs) (hp : p x = true) : xs.countP p = 1 ↔ ∀ y ∈ xs, p y = true → y = x := by
  have hmem : x ∈ xs.filter p := mem_filter.2 ⟨hx, hp⟩
  rw [countP_eq_length_filter]
  constructor
  · intro hone y hy hpy
    obtain ⟨z, hz⟩ := length_eq_one_iff.1 hone
    have hy := mem_filter.2 ⟨hy, hpy⟩
    rw [hz, mem_singleton] at hmem hy
    rw [hy, hmem]
  · intro hall
    have hreplicate : xs.filter p = replicate (xs.filter p).length x :=
      eq_replicate_iff.2 ⟨rfl, fun y hy =>
        hall y (mem_filter.1 hy).1 (mem_filter.1 hy).2⟩
    have hle := hnodup.filter p
    rw [hreplicate, nodup_replicate] at hle
    exact Nat.le_antisymm hle (length_pos_of_mem hmem)

end Lower

namespace Activity

def operations (a : Activity) : List StmtId :=
  (range a.stmts.size).filter fun i => (a.service? i).isSome

theorem mem_operations (h : a.service? i = some op) : i ∈ a.operations :=
  mem_filter.2 ⟨mem_range.2 (lt_size_of_service? h), by rw [h, isSome_some]⟩

theorem nodup_operations (a : Activity) : a.operations.Nodup :=
  nodup_range.filter _

theorem Ordered.isSome_service? (h : a.Ordered) (i : StmtId) :
    (a.service? i).isSome = (a.tag i == .service) := by
  rw [h.tag, service?]
  cases a.kind i <;> rfl

end Activity

namespace LowerContext

variable {c : LowerContext} {ms : List (ServiceKind × MessagingNode)}

def DrawsOperations (c : LowerContext) (ms : List (ServiceKind × MessagingNode)) : Prop :=
  ∃ drawn, Perm drawn ms ∧
    Forall₂ (fun i m => ∃ op, c.activity.service? i = some op ∧ DrawnOperation c i op m)
      c.activity.operations drawn

namespace DrawsOperations

variable (h : c.DrawsOperations ms)
include h

theorem exists_operation (hm : m ∈ ms) :
    ∃ i op, c.activity.service? i = some op ∧ DrawnOperation c i op m := by
  obtain ⟨drawn, hperm, hdrawn⟩ := h
  obtain ⟨i, -, hi⟩ := exists_of_forall₂ hdrawn (hperm.mem_iff.2 hm)
  exact ⟨i, hi⟩

theorem exists_message (hop : c.activity.service? i = some op) :
    ∃ m ∈ ms, DrawnOperation c i op m := by
  obtain ⟨drawn, hperm, hdrawn⟩ := h
  obtain ⟨m, hm, op', hop', hi⟩ :=
    exists_of_forall₂ (Forall₂.flip hdrawn) (mem_operations hop)
  rw [hop, some.injEq] at hop'
  exact ⟨m, hperm.mem_iff.1 hm, hop' ▸ hi⟩

theorem countP_id (id : String) : ms.countP (fun m => m.2.id == id) = c.activity.operations.countP
      fun i => (c.activity.service? i).any fun op => messagingId i op == id := by
  obtain ⟨drawn, hperm, hdrawn⟩ := h
  rw [← hperm.countP_eq]
  refine countP_eq_of_forall₂ hdrawn fun i m ⟨op, hop, hm⟩ => ?_
  rw [hop, any_some, hm.id]

theorem countP_eq_one_iff (hq : c.activity.service? q = some request) :
    ms.countP (fun m => m.2.id == messagingId q request) = 1 ↔
      ∀ i op, c.activity.service? i = some op →
        Lower.messagingId i op = Lower.messagingId q request → i = q := by
  rw [h.countP_id, Lower.countP_eq_one_iff c.activity.nodup_operations
    (mem_operations hq) (by rw [hq, any_some, beq_self_eq_true])]
  constructor
  · intro hall i op hop hid
    exact hall i (mem_operations hop) (by rw [hop, any_some, hid, beq_self_eq_true])
  · intro hall i _ hi
    obtain ⟨op, hop, hid⟩ := (any_eq_true _ _).1 hi
    exact hall i op hop (beq_iff_eq.1 hid)

end DrawsOperations

/-- A message is that of a reply, and the operation of the message at a place is its request, of the
same side. -/
structure RefersTo (c : LowerContext) (ms : List (ServiceKind × MessagingNode))
    (m : ServiceKind × MessagingNode) (q : StmtId) (request : ServiceOperation) : Prop where
  reply : ∃ r op, c.activity.service? r = some op ∧ op.kind.isReply = true ∧
    op.request = some q ∧ request.reply = some r ∧ DrawnOperation c r op m
  service : c.activity.service? q = some request
  isReply : request.kind.isReply = false
  side : request.kind.side = m.1.side
  drawn : ∃ n ∈ ms, DrawnOperation c q request n

theorem DrawsOperations.refersTo (h : c.DrawsOperations ms) (hc : c.activity.Correlated)
    (hm : m ∈ ms) {id : String} (hid : m.2.request = some id) :
    ∃ q request, c.RefersTo ms m q request ∧ id = messagingId q request := by
  obtain ⟨r, op, hop, hdrawn⟩ := h.exists_operation hm
  rw [hdrawn.request] at hid
  obtain ⟨q, hq, hid⟩ := bind_eq_some_iff.1 hid
  obtain ⟨hreply, request, hrequest, hkind, hside, hback⟩ := hc.request hop hq
  rw [hrequest, map_some, some.injEq] at hid
  exact ⟨q, request, ⟨⟨r, op, hop, hreply, hq, hback, hdrawn⟩, hrequest, hkind,
    by rw [hside, hdrawn.kind], h.exists_message hrequest⟩, hid.symm⟩

/-- Where no reply is left without a request, the messages that refer to one are the replies. -/
theorem DrawsOperations.isSome_request (h : c.DrawsOperations ms) (hc : c.activity.Correlated)
    (hlinked : ∀ r op, c.activity.service? r = some op → op.kind.isReply = true →
      op.request.isSome = true) (hm : m ∈ ms) : m.2.request.isSome = m.1.isReply := by
  obtain ⟨r, op, hop, hdrawn⟩ := h.exists_operation hm
  rw [hdrawn.request, hdrawn.kind]
  cases hq : op.request with
  | none =>
    cases hreply : op.kind.isReply with
    | false => rfl
    | true =>
      have hsome := hlinked r op hop hreply
      rw [hq] at hsome
      cases hsome
  | some q =>
    obtain ⟨hreply, request, hrequest, -⟩ := hc.request hop hq
    rw [hreply, bind_some, hrequest, map_some, isSome_some]

end LowerContext

namespace Activity

/-- The messages of the graph of an activity are those of its operations. -/
theorem Aimed.drawsOperations {c : LowerContext} (h : a.Aimed c.activity)
    (hroot : a.StandsAlone a.root) (ns : Option String) :
    c.DrawsOperations (c.activity.lower ns c.semantics c.maxDepth).1.body.messages := by
  have hordered := (h.keeps.wellBuilt h.wellBuilt).ordered
  obtain ⟨kinds, hkinds, hdrawn⟩ := h.landmarks_lower hroot ns
  refine ⟨kinds.filterMap NodeKind.message?, ?_, ?_⟩
  · rw [Node.messages_eq]
    exact hkinds.filterMap _
  simp only [operations, hordered.isSome_service?]
  rw [← filter_landmarks c.activity (p := (· == .service)) fun tag htag => by
    rw [beq_iff_eq.1 htag]; rfl]
  refine forall₂_filterMap hdrawn (fun i kind hik htag => ?_) fun i kind hik htag => ?_
  · rcases h.tag_landmark hik with ⟨hjump, -⟩ | ⟨-, -, op, m, hop, hm, hdrawn⟩
    · rw [beq_iff_eq.1 htag] at hjump
      cases hjump
    · exact ⟨m, hm, op, hop, hdrawn⟩
  · rcases h.tag_landmark hik with ⟨-, -, hmessage, -⟩ | ⟨hservice, -⟩
    · exact hmessage
    · rw [hservice] at htag
      cases htag

/-- Resolution without errors leaves no reply without a request. -/
theorem isSome_request_resolve
    (h : build ids unit node = (.ok a, ids')) (last : Ids) (errors : Diagnostics)
    (herrors : (a.resolve last errors).2.2.errors = errors.errors) :
    (a.resolve last errors).1.Correlated ∧ ∀ r op,
      (a.resolve last errors).1.service? r = some op → op.kind.isReply = true →
        op.request.isSome = true := by
  have ha := (build_ids h).1
  have hf := (formed_build h).1
  obtain ⟨es, hmatched, hkeeps, hall, hes⟩ := ha.resolve_spec hf last errors
  rw [herrors, append_assoc, self_eq_append_right, append_eq_nil_iff] at hall
  rw [hall.2, forall₂_nil_right_iff, hf.filter_operations (keeps_resolve last errors a).size
    fun i => by rw [hkeeps.kind i, ha.service?_partsAfter nodup_range]] at hes
  refine ⟨hmatched, fun r op hop hkind => ?_⟩
  have hlinked := filter_eq_nil_iff.1 hes r (mem_range.2 (lt_size_of_service? hop))
  rw [isUnlinkedReply, hop, any_some, hkind, Bool.true_and, isNone_iff_eq_none]
    at hlinked
  exact isSome_iff_ne_none.2 hlinked

end Activity

/-- In the graph of an activity that was built and is resolved without errors, there is one message
for each operation, and the messages that refer to a request are those of the replies. The reference
is the identity of the request that the reply is tied to, whose message is in the graph. That
message is the only one with the identity just if no other operation of the activity has it; among
operations without a name, none has. -/
theorem lower_replies_name_requests {ids ids' : Ids} {unit : Nat} {node : ParseNode} {a : Activity}
    (h : build ids unit node = (.ok a, ids')) (last : Ids) (errors : Diagnostics)
    (herrors : (a.resolve last errors).2.2.errors = errors.errors) (ns : Option String)
    (semantics : SemanticIndex) (maxDepth : Nat) :
    LowerContext.DrawsOperations ⟨(a.resolve last errors).1, semantics, maxDepth⟩
      ((a.resolve last errors).1.lower ns semantics maxDepth).1.body.messages ∧
    ∀ m ∈ ((a.resolve last errors).1.lower ns semantics maxDepth).1.body.messages,
      m.2.request.isSome = m.1.isReply ∧
      ∀ id, m.2.request = some id → ∃ q request,
        LowerContext.RefersTo ⟨(a.resolve last errors).1, semantics, maxDepth⟩
          ((a.resolve last errors).1.lower ns semantics maxDepth).1.body.messages m q request ∧
        id = messagingId q request ∧
        (((a.resolve last errors).1.lower ns semantics maxDepth).1.body.messages.countP
            (fun n => n.2.id == id) = 1 ↔
          ∀ i op, (a.resolve last errors).1.service? i = some op → messagingId i op = id → i = q) ∧
        (request.name = none → ∀ i op, (a.resolve last errors).1.service? i = some op →
          op.name = none → messagingId i op = id → i = q) := by
  obtain ⟨hmatched, hlinked⟩ := isSome_request_resolve h last errors herrors
  have hdraws := (aimed_resolve h last errors herrors).drawsOperations
    (c := ⟨(a.resolve last errors).1, semantics, maxDepth⟩) (formed_build h).2 ns
  refine ⟨hdraws, fun m hm => ⟨hdraws.isSome_request hmatched hlinked hm, fun id hid => ?_⟩⟩
  obtain ⟨q, request, hrefers, rfl⟩ := hdraws.refersTo hmatched hm hid
  exact ⟨q, request, hrefers, rfl, hdraws.countP_eq_one_iff hrefers.service,
    fun hunnamed i op _ hname heq => messagingId_inj hname hunnamed heq⟩

section Orders

/-- Two requests, and a reply to the first. -/
def ordersNode (second : String) : ParseNode :=
  .main (.sequence [
    operationNode "receive" (some "order 1") none,
    operationNode "receive" (some second) none,
    operationNode "send-reply" none (some "order 1")])

/-- Requests with other names are told apart, so that the reference leads to the first. -/
theorem lower_replies_name_requests_ordersNode : ∃ a ids',
    build {} 0 (ordersNode "order 2") = (.ok a, ids') ∧ (a.resolve ids' {}).2.2.errors = [] ∧
    ∃ m ∈ ((a.resolve ids' {}).1.lower none {} 64).1.body.messages,
      m.1 = .sendReply ∧ m.2.request = some "order_1" ∧
      ∃ q request, LowerContext.RefersTo ⟨(a.resolve ids' {}).1, {}, 64⟩
          ((a.resolve ids' {}).1.lower none {} 64).1.body.messages m q request ∧
        ∀ i op, (a.resolve ids' {}).1.service? i = some op →
          messagingId i op = "order_1" → i = q := by
  obtain ⟨a, ids', h, herrors, ⟨m, hm, hkind, hid⟩, hone⟩ :=
    (ordersNode "order 2").exists_of_builds
      (P := fun a ids' => (a.resolve ids' {}).2.2.errors = [] ∧
        (∃ m ∈ ((a.resolve ids' {}).1.lower none {} 64).1.body.messages,
          m.1 = .sendReply ∧ m.2.request = some "order_1") ∧
        ((a.resolve ids' {}).1.lower none {} 64).1.body.messages.countP
          (fun n => n.2.id == "order_1") = 1) (by decide +kernel)
  obtain ⟨-, hmessages⟩ := lower_replies_name_requests h ids' {} herrors none {} 64
  obtain ⟨q, request, hrefers, -, hiff, -⟩ := (hmessages m hm).2 _ hid
  exact ⟨a, ids', h, herrors, m, hm, hkind, hid, q, request, hrefers, hiff.1 hone⟩

/-- Requests whose names differ in a sign that identities leave out are given the same one, and no
error is reported. -/
theorem ordersNode_shares_identity : ∃ a ids', build {} 0 (ordersNode "order-1") = (.ok a, ids') ∧
    (a.resolve ids' {}).2.2.errors = [] ∧ ((a.resolve ids' {}).1.lower none {} 64).2 = [] ∧
    (∃ m ∈ ((a.resolve ids' {}).1.lower none {} 64).1.body.messages,
      m.1 = .sendReply ∧ m.2.request = some "order_1") ∧
    ((a.resolve ids' {}).1.lower none {} 64).1.body.messages.countP
      (fun n => n.2.id == "order_1") = 2 := by
  exact (ordersNode "order-1").exists_of_builds (by decide +kernel)

end Orders

end Workflow
