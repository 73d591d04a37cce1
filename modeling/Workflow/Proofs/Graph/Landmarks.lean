import Workflow.Lower.Slot
import Workflow.Proofs.Scope.Locals

/-!
# Flowcharts, state machines and messages in a graph

The flowcharts, the state machines and the messaging nodes of a tree are its landmarks, listed in
pre-order. A node of any other kind has those of the nodes inside it.
-/

namespace Workflow

open NodeKind

namespace NodeKind

def isJump : NodeKind → Bool
  | .stateMachine .. | .flowchart .. => true
  | _ => false

/-- The message of a messaging node, and what is done with it. -/
def message? : NodeKind → Option (ServiceKind × MessagingNode)
  | .receive m => some (.receive, m)
  | .send m => some (.send, m)
  | .sendReply m => some (.sendReply, m)
  | .receiveReply m => some (.receiveReply, m)
  | _ => none

def isLandmark (kind : NodeKind) : Bool := kind.isJump || kind.message?.isSome

end NodeKind

namespace Node

def jumps (n : Node) : List NodeKind := (n.nodes.map kind).filter isJump

def messages (n : Node) : List (ServiceKind × MessagingNode) :=
  (n.nodes.map kind).filterMap message?

def landmarks (n : Node) : List NodeKind := (n.nodes.map kind).filter isLandmark

theorem jumps_eq (n : Node) : n.jumps = n.landmarks.filter isJump := by
  rw [landmarks, List.filter_filter]
  refine List.filter_congr fun kind _ => ?_
  cases h : kind.isJump <;> simp [isLandmark, h]

theorem messages_eq (n : Node) : n.messages = n.landmarks.filterMap message? := by
  rw [landmarks, List.filterMap_filter]
  refine List.filterMap_congr fun kind _ => ?_
  cases h : kind.message? with
  | none => simp
  | some m => simp [isLandmark, h]

theorem landmarks_mk (name : Option String) (kind : NodeKind) : (mk name kind).landmarks =
      (if kind.isLandmark then [kind] else []) ++ kind.children.flatMap landmarks := by
  have hbelow : (kind.nodesBelow.map Node.kind).filter isLandmark =
      kind.children.flatMap landmarks := by
    rw [nodesBelow_eq, List.map_flatMap, List.filter_flatMap]
    rfl
  rw [← hbelow, landmarks, nodes, List.map_cons, List.filter_cons]
  change (if kind.isLandmark then _ else _) = _
  split <;> rfl

theorem landmarks_ofKind {kind : NodeKind} (h : kind.isLandmark = false) :
    (ofKind kind).landmarks = kind.children.flatMap landmarks := by
  rw [ofKind, landmarks_mk, h]
  rfl

@[simp]
theorem landmarks_named (name : String) (n : Node) : (n.named name).landmarks = n.landmarks := by
  obtain ⟨_, kind⟩ := n
  rw [named, landmarks_mk, landmarks_mk]

@[simp]
theorem landmarks_sequence (vars : List VariableDecl) (ns : List Node) :
    (sequence vars ns).landmarks = ns.flatMap landmarks := landmarks_ofKind rfl

@[simp]
theorem landmarks_code (body : List CodeStmt) : (code body).landmarks = [] := landmarks_ofKind rfl

end Node

def Step.landmarks : Step → List NodeKind
  | .node n => n.landmarks
  | .skip .. => []

namespace StepList

theorem landmarks_indexed (x : String) (position : Nat) (step : Step) :
    (indexed x position step).landmarks = step.landmarks := by
  have hnode : ∀ n, (Node.ofKind (.conditional
      { ty := some .boolean, expr := atPosition x position }
      (some (.sequence [] [n, .code [advance x 1]])) none)).landmarks = n.landmarks := by
    intro n
    rw [Node.landmarks_ofKind rfl]
    simp [children]
  cases step with
  | skip => exact Node.landmarks_code _
  | node n =>
    obtain ⟨name, kind⟩ := n
    cases kind
    case code body =>
      rw [Step.landmarks, Node.landmarks_mk]
      exact Node.landmarks_code _
    all_goals exact hnode _

theorem landmarks_indexedFrom (x : String) (position : Nat) (steps : List Step) :
    (indexedFrom x position steps).flatMap Node.landmarks = steps.flatMap Step.landmarks := by
  induction steps generalizing position with
  | nil => rfl
  | cons step rest ih =>
    rw [indexedFrom, List.flatMap_cons, landmarks_indexed, ih, List.flatMap_cons]

theorem landmarks_nodes (l : StepList) :
    l.nodes.flatMap Node.landmarks = l.flush.steps.flatMap Step.landmarks := by
  unfold nodes
  cases l.flush.index with
  | some x => exact landmarks_indexedFrom x 0 _
  | none =>
    dsimp only
    induction l.flush.steps with
    | nil => rfl
    | cons step rest ih =>
      rw [List.flatMap_cons, ← ih]
      cases step <;> rfl

theorem landmarks_finish (l : StepList) :
    l.finish.toList.flatMap Node.landmarks = l.nodes.flatMap Node.landmarks := by
  unfold finish
  split <;> simp_all

end StepList

end Workflow
