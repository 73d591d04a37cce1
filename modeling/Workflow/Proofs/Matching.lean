import Mathlib.Data.List.Sort
import Workflow.Proofs.Resolve.Correlation

/-!
# Replies and requests are matched

After resolution every reply either belongs to one request of its side, which belongs to it and to
no other reply and shares a correlation handle with it, or it has no request and one error accounts
for it. This holds whether or not resolution finds errors.
-/

namespace Workflow

open List

variable {names : String → Option StmtId} {e : CompileError}

/-- Whether the cause is about the jumps of flowcharts and state machines. -/
def Cause.isJump : Cause → Bool
  | .unresolvedReference _ | .missingFinalState | .startStateIsFinal _ | .noStartState
  | .transitionConditionRequired _ => true
  | _ => false

namespace Activity

variable {a b : Activity}

/-! ### Errors about jumps -/

theorem isJump_of_mem_missing {r : NodeRef} (he : e ∈ r.missing names) : e.cause.isJump = true := by
  unfold NodeRef.missing at he
  split at he
  · cases he
  · rw [mem_singleton.1 he]
    rfl

theorem isJump_of_mem_ambiguityErrors
    (he : e ∈ a.ambiguityErrors state bodies) : e.cause.isJump = true := by
  unfold ambiguityErrors at he
  split at he
  · obtain ⟨b, -, rfl⟩ := mem_map.1 he
    rfl
  · cases he

theorem isJump_of_mem_transitionErrors {state : String} {id : StmtId}
    (he : e ∈ a.transitionErrors names state id) : e.cause.isJump = true := by
  unfold transitionErrors at he
  split at he
  case h_2 => cases he
  case h_1 trigger bodies _ =>
    rcases mem_append.1 he with he | he
    · obtain ⟨m, -, he⟩ := mem_flatMap.1 he
      unfold bodyErrors at he
      split at he
      · exact isJump_of_mem_missing he
      · cases he
    · split at he
      · exact isJump_of_mem_ambiguityErrors he
      · cases he

theorem isJump_of_mem_stateErrors {id : StmtId} (he : e ∈ a.stateErrors names id) :
    e.cause.isJump = true := by
  unfold stateErrors at he
  split at he
  case h_2 => cases he
  case h_1 =>
    rcases mem_append.1 he with he | he
    · obtain ⟨t, -, he⟩ := mem_flatMap.1 he
      exact isJump_of_mem_transitionErrors he
    · exact isJump_of_mem_ambiguityErrors he

theorem isJump_of_mem_startErrors {machine : StmtId} {states : List StmtId}
    {start : Option NodeRef} (he : e ∈ a.startErrors machine states start) :
    e.cause.isJump = true := by
  cases start with
  | none =>
    rw [startErrors] at he
    split at he
    · rw [mem_singleton.1 he]
      rfl
    · cases he
  | some r =>
    rcases mem_append.1 he with he | he
    · exact isJump_of_mem_missing he
    · split at he
      · rw [mem_singleton.1 he]
        rfl
      · cases he

/-- What is reported for a flowchart or a machine is about jumps. -/
theorem isJump_of_mem_jumpErrors {id : StmtId} (he : e ∈ a.jumpErrors id) :
    e.cause.isJump = true := by
  unfold jumpErrors at he
  split at he
  case h_1 nodes start _ =>
    obtain ⟨m, -, he⟩ := mem_flatMap.1 he
    obtain ⟨r, -, he⟩ := mem_flatMap.1 he
    exact isJump_of_mem_missing he
  case h_2 states start first _ =>
    rcases mem_append.1 he with he | he
    · exact isJump_of_mem_startErrors he
    rcases mem_append.1 he with he | he
    · split at he
      · rw [mem_singleton.1 he]
        rfl
      · cases he
    · obtain ⟨s, -, he⟩ := mem_flatMap.1 he
      exact isJump_of_mem_stateErrors he
  case h_3 => cases he

/-! ### Replies without a request -/

def unlinkedReplies (a : Activity) : List StmtId :=
  (range a.stmts.size).filter a.isUnlinkedReply

theorem Formed.filter_operations (hf : a.Formed) (hsize : b.stmts.size = a.stmts.size)
    (hkind : ∀ i, (b.service? i).map (·.kind) = (a.service? i).map (·.kind)) :
    a.serviceOperations.filter b.isUnlinkedReply = b.unlinkedReplies := by
  have hsorted : (a.serviceOperations.filter b.isUnlinkedReply).Pairwise (· < ·) :=
    hf.sorted.sublist filter_sublist
  have hrange : b.unlinkedReplies.Pairwise (· < ·) :=
    Pairwise.sublist filter_sublist pairwise_lt_range
  refine hsorted.eq_of_mem_iff hrange fun i => ?_
  rw [unlinkedReplies, mem_filter, mem_filter, mem_range, hsize]
  refine and_congr_left fun hreply => ⟨fun hi => (hf.service i hi).1, fun _ => ?_⟩
  obtain ⟨op, hop⟩ : ∃ op, a.service? i = some op := by
    cases hop : a.service? i with
    | some op => exact ⟨op, rfl⟩
    | none =>
      have hnone := hkind i
      rw [hop, Option.map_none, Option.map_eq_none_iff] at hnone
      simp [isUnlinkedReply, hnone] at hreply
  exact ((hf.kind i).registered op (service?_eq_some.1 hop)).1

end Activity

/-- Resolution matches replies with requests: a reply and its request know each other, are of the
same side and share a handle of their own, no request is claimed twice, and nothing else has a
partner or a handle. The errors that are reported are those about jumps and then, in document order,
one for each reply that is left without a request. -/
theorem resolve_matches {ids ids' : Ids} {unit : Nat} {node : ParseNode} {a : Activity}
    (h : Activity.build ids unit node = (.ok a, ids')) (last : Ids) (errors : Diagnostics) :
    (a.resolve last errors).1.Correlated ∧
      (∀ r r' q op op', (a.resolve last errors).1.service? r = some op → op.request = some q →
        (a.resolve last errors).1.service? r' = some op' → op'.request = some q → r = r') ∧
      ∃ jumps es, (a.resolve last errors).2.2.errors = errors.errors ++ jumps ++ es ∧
        (∀ e ∈ jumps, e.cause.isJump = true) ∧
        Forall₂ (a.resolve last errors).1.Unanswered
          (a.resolve last errors).1.unlinkedReplies es := by
  have ha := (Activity.build_ids h).1
  have hf := (Activity.formed_build h).1
  obtain ⟨es, hmatched, hkeeps, herrors, hes⟩ := ha.resolve_spec hf last errors
  have hkind : ∀ i, ((a.resolve last errors).1.service? i).map (·.kind) =
      (a.service? i).map (·.kind) := fun i => by
    rw [hkeeps.kind i, ha.service?_partsAfter nodup_range]
  refine ⟨hmatched, fun r r' q op op' => hmatched.injective, _, es, herrors, fun e he => ?_, ?_⟩
  · obtain ⟨id, -, he⟩ := mem_flatMap.1 he
    exact Activity.isJump_of_mem_jumpErrors he
  · rw [← hf.filter_operations (Activity.keeps_resolve last errors a).size hkind]
    exact hes

section Conversation

def operationNode (label : String) (name request : Option String) : ParseNode where
  label := label
  text := name
  members := [("contract", .typeName "IOrders"), ("operation", .reference "Place")] ++
    request.toList.map fun q => ("request", .reference q)

/-- A request with two replies that name it, and a reply of the other side that has no request. -/
def conversationNode : ParseNode :=
  .main (.sequence [
    operationNode "send-reply" none (some "order"),
    operationNode "receive" (some "order") none,
    operationNode "send-reply" (some "late") (some "order"),
    operationNode "receive-reply" (some "stray") none])

/-- The first reply claims the request, which comes after it, and the other two replies are left. -/
theorem resolve_matches_conversationNode : ∃ a ids',
    Activity.build {} 0 conversationNode = (.ok a, ids') ∧ (a.resolve ids' {}).1.Correlated ∧
    (((a.resolve ids' {}).1.service? 1).bind (·.request) = some 2 ∧
      (a.resolve ids' {}).1.unlinkedReplies = [3, 4] ∧
      (a.resolve ids' {}).2.2.errors.map (·.cause) =
        [.requestAlreadyReferenced "order", .requestNotFound "stray"]) ∧
    ∃ es, (a.resolve ids' {}).2.2.errors = es ∧
      Forall₂ (a.resolve ids' {}).1.Unanswered [3, 4] es := by
  obtain ⟨a, ids', h, htest⟩ := conversationNode.exists_of_builds
    (P := fun a ids' => ((a.resolve ids' {}).1.service? 1).bind (·.request) = some 2 ∧
      (a.resolve ids' {}).1.unlinkedReplies = [3, 4] ∧
      (a.resolve ids' {}).2.2.errors.map (·.cause) =
        [.requestAlreadyReferenced "order", .requestNotFound "stray"]) (by decide +kernel)
  obtain ⟨hmatched, -, jumps, es, herrors, hjumps, hes⟩ := resolve_matches h ids' {}
  rw [htest.2.1] at hes
  refine ⟨a, ids', h, hmatched, htest, es, ?_, hes⟩
  -- both errors are about the replies, so none is about jumps
  cases jumps with
  | nil => simpa using herrors
  | cons e rest =>
    have hcause := htest.2.2
    rw [herrors] at hcause
    have hjump := hjumps e mem_cons_self
    simp only [nil_append, cons_append, map_cons] at hcause
    rw [(cons.inj hcause).1] at hjump
    cases hjump

end Conversation

end Workflow
