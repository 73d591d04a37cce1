import Workflow.Proofs.Resolve.Aimed

/-!
# Built activities are well formed

The parts of constructs stand exactly where their construct lists them. What depends on the
statements around it is where it may be, the constructs are complete, the names in a graph tell its
nodes apart, and code is chained to the code right after it.
-/

namespace Workflow

open StmtKind Activity

variable {a : Activity}

/-- The statements of an activity stand where they may, and refer to each other as they should. -/
structure Activity.Proper (a : Activity) : Prop where
  tag : ∀ i, a.tag i = (a.kind i).tag
  /-- No statement is listed twice, or by two statements. -/
  once : ∀ p, ∀ m ∈ (a.kind p).children, a.parent m = some p ∧ (a.kind p).children.count m = 1
  /-- What a construct lists as its parts is of the kinds of its parts, -/
  parts : ∀ p, ∀ m ∈ (a.kind p).parts.1, m ∈ (a.kind p).children ∧ a.tag m ∈ (a.kind p).parts.2
  /-- all else inside a statement is no part of anything, -/
  others : ∀ p, ∀ m ∈ (a.kind p).children, m ∉ (a.kind p).parts.1 → (a.tag m).isPart = false
  /-- and so is the root. -/
  listed : ∀ m, (a.tag m).isPart = true → m ≠ a.root ∧ ∃ p, m ∈ (a.kind p).parts.1
  rethrow : ∀ i, a.kind i = .raise none → ∃ j ∈ a.ancestors i, a.tag j = .handler
  persist : ∀ i, a.kind i = .persist → ∀ j ∈ a.ancestors i, a.tag j ≠ .noPersist
  final : ∀ i name entry exit transitions,
    a.kind i = .state name true entry exit transitions → exit = none ∧ transitions = []
  nodes : ∀ i nodes start, a.kind i = .flow nodes start → (a.nodeNames nodes).Nodup
  states : ∀ i states start start',
    a.kind i = .stateMachine states start start' → (a.nodeNames states).Nodup
  guarded : ∀ i body handlers final,
    a.kind i = .guarded body handlers final → handlers ≠ [] ∨ final.isSome = true
  bodies : ∀ i trigger bodies, a.kind i = .transition trigger bodies → bodies ≠ []
  request : ∀ i request body, a.kind i = .transactedReceive request body →
    ∃ op, a.kind request = .service op ∧ op.kind = .receive
  chained : ∀ i fragment next init, a.kind i = .code fragment next init → ∀ n, next = some n ↔
    ∃ p before after, a.kind p = .sequence (before ++ i :: n :: after) ∧ a.tag n = .code

namespace Activity

section Built

variable {ids ids' : Ids} {unit : Nat} {node : ParseNode}
  (h : build ids unit node = (.ok a, ids'))

include h

theorem sheltered_build (i : StmtId) : a.Sheltered i (a.kind i) := by
  obtain ⟨name, -, hg⟩ := grown_build h
  by_cases hi : i < a.stmts.size
  · exact (hg.first i (Nat.zero_le i) hi).2
  · rw [kind_eq_empty (Nat.le_of_not_lt hi)]
    exact sheltered_of_tag rfl

theorem others_build (hm : m ∈ (a.kind p).children)
    (hpart : m ∉ (a.kind p).parts.1) : (a.tag m).isPart = false :=
  (((formed_build h).1.kind p).inner m
    ((mem_inner_iff ((build_ids h).1.nodup_children p)).2 ⟨hm, hpart⟩)).2

theorem listed_build (hm : (a.tag m).isPart = true) : m ≠ a.root ∧ ∃ p, m ∈ (a.kind p).parts.1 := by
  have ha := (build_ids h).1
  have hne : m ≠ a.root := by
    rintro rfl
    rw [(formed_build h).2.2] at hm
    cases hm
  have hlt : m < a.stmts.size := by
    refine Nat.lt_of_not_le fun hle => ?_
    rw [tag, Array.getElem?_eq_none hle] at hm
    cases hm
  obtain ⟨p, -, -, hcount⟩ := ha.exists_parent (Nat.pos_of_ne_zero (ha.root_eq.1 ▸ hne)) hlt
  refine ⟨hne, p, by_contra fun hpart => ?_⟩
  rw [others_build h (List.count_pos_iff.1 (hcount ▸ Nat.one_pos)) hpart] at hm
  cases hm

end Built

/-- Code is followed by code in a sequence exactly if it is chained to it. -/
theorem WellBuilt.chained_iff (ha : a.WellBuilt) (hi : (a.kind i).tag = .code) :
    (a.kind i).chained = some n ↔
      ∃ p before after, a.kind p = .sequence (before ++ i :: n :: after) ∧ a.tag n = .code := by
  simp only [ha.ordered.tag]
  constructor
  · exact fun hn => ha.followed_of_chained ((chainedTo_eq a i).trans hn)
  · rintro ⟨p, before, after, hk, hn⟩
    have hfollows := (ha.ordered.linked p).follows
    rw [hk] at hfollows
    exact hfollows rfl i n ⟨before, after, by simp [children]⟩ hi hn

end Activity

/-- An activity that is built is well formed. -/
theorem proper_build {ids ids' : Ids} {unit : Nat} {node : ParseNode}
    (h : build ids unit node = (.ok a, ids')) : a.Proper := by
  have ha := (build_ids h).1
  have hruled := fun i => (ha.ordered.linked i).ruled
  have hancestors : ∀ {i j}, j ∈ i :: a.ancestors i ↔ a.Within i j :=
    mem_selfAndAncestors ha.sound.parentsFirst
  refine ⟨ha.ordered.tag, fun p m hm => ⟨ha.parent_of_mem_children hm,
    List.count_eq_one_of_mem (ha.nodup_children p) hm⟩, fun p m hm =>
    ⟨parts_subset _ m hm, (ha.ordered.linked p).parts m hm⟩,
    fun p m => others_build h, fun m => listed_build h, ?rethrow, ?persist,
    ?final, ?nodes, ?states, ?guarded, ?bodies, ?request, ?chained⟩
  case rethrow =>
    intro i hk
    obtain ⟨j, hj, htag⟩ := (sheltered_build h i).raise hk
    rcases List.mem_cons.1 (hancestors.2 hj) with rfl | hj
    · rw [ha.ordered.tag, hk] at htag
      cases htag
    · exact ⟨j, hj, htag⟩
  case persist =>
    intro i hk j hj
    exact (sheltered_build h i).persist hk j (hancestors.1 (List.mem_cons_of_mem _ hj))
  case final =>
    intro i name entry exit transitions hk
    simpa [hk, isComplete] using (hruled i).complete
  case nodes =>
    intro i nodes start hk
    simpa [hk, StmtKind.nodes] using (hruled i).names
  case states =>
    intro i states start start' hk
    simpa [hk, nodes] using (hruled i).names
  case guarded =>
    intro i body handlers final hk
    simpa [hk, isComplete] using (hruled i).complete
  case bodies =>
    intro i trigger bodies hk
    simpa [hk, isComplete] using (hruled i).complete
  case request =>
    intro i request body hk
    have hreceive := (hruled i).receive request (by rw [hk]; rfl)
    cases hr : a.kind request <;> rw [hr] at hreceive <;> first | cases hreceive | skip
    exact ⟨_, rfl, by simpa [isReceive] using hreceive⟩
  case chained =>
    intro i fragment next init hk n
    have hiff := ha.chained_iff (i := i) (n := n) (by rw [hk]; rfl)
    rwa [hk] at hiff

/-- A transaction that starts with a request, with code in it and a handler that throws again. -/
def guardedNode : ParseNode :=
  .main {
    label := "try"
    members := [("body", {
      label := "transacted-receive"
      members := [
        ("request", {
          label := "receive"
          members := [("contract", .typeName "IOrders"), ("operation", .reference "Place")] }),
        ("body", .sequence [.codeBlock [], .codeBlock [], { label := "persist" }])] })]
    items := [{ label := "catch", members := [("body", { label := "throw" })] }] }

theorem proper_build_guardedNode : ∃ a ids', build {} 0 guardedNode = (.ok a, ids') ∧
    (List.range a.stmts.size).map (fun i => ((a.kind i).tag, (a.kind i).children)) =
      [(.sequence, [1]), (.guarded, [2, 8]), (.transactedReceive, [3, 4]), (.service, []),
        (.sequence, [5, 6, 7]), (.code, []), (.code, []), (.persist, []), (.handler, [9]),
        (.raise, [])] ∧ (a.kind 5).chained = some 6 ∧ a.Proper := by
  exact ParseNode.exists_and_of_builds (by decide +kernel) fun a ids' h _ => proper_build h

end Workflow
