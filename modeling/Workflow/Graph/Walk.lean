import Workflow.Graph.Node

/-!
# Walking node graphs

The nodes of a tree in pre-order, each before those inside it.
-/

namespace Workflow

mutual
def Node.nodes : Node → List Node
  | .mk name kind => .mk name kind :: kind.nodesBelow

def NodeKind.nodesBelow : NodeKind → List Node
  | .sequence _ activities => Node.nodesList activities
  | .conditional _ yes no => Node.nodesOption yes ++ Node.nodesOption no
  | .loop _ body _ => Node.nodesOption body
  | .forEach _ _ _ body _ _ => Node.nodesOption body
  | .noPersist body => Node.nodesOption body
  | .transaction body _ => Node.nodesOption body
  | .switch _ cases fallback => CaseNode.nodesList cases ++ Node.nodesOption fallback
  | .guarded body handlers final =>
    Node.nodesOption body ++ CatchNode.nodesList handlers ++ Node.nodesOption final
  | .parallel branches _ => Node.nodesList branches
  | .pick branches => PickBranchNode.nodesList branches
  | .stateMachine _ states _ => StateNode.nodesList states
  | .flowchart _ nodes _ => FlowNode.nodesList nodes
  | .cancellable body onCancel => Node.nodesOption body ++ Node.nodesOption onCancel
  | .compensable _ body compensation confirmation cancellation =>
    Node.nodesOption body ++ Node.nodesOption compensation ++ Node.nodesOption confirmation ++
      Node.nodesOption cancellation
  | .transactedReceive _ request body => request.nodes ++ Node.nodesOption body
  | .raise .. | .reraise | .delay .. | .confirm .. | .compensate .. | .persist | .terminate ..
  | .receive .. | .send .. | .sendReply .. | .receiveReply .. | .initializeCorrelation ..
  | .invoke .. | .code .. => []

def Node.nodesList : List Node → List Node
  | [] => []
  | n :: rest => n.nodes ++ Node.nodesList rest

def Node.nodesOption : Option Node → List Node
  | none => []
  | some n => n.nodes

def CaseNode.nodesList : List CaseNode → List Node
  | [] => []
  | .mk _ body :: rest => Node.nodesOption body ++ CaseNode.nodesList rest

def CatchNode.nodesList : List CatchNode → List Node
  | [] => []
  | .mk _ _ body :: rest => Node.nodesOption body ++ CatchNode.nodesList rest

def PickBranchNode.nodesList : List PickBranchNode → List Node
  | [] => []
  | .mk _ trigger action :: rest =>
    Node.nodesOption trigger ++ Node.nodesOption action ++ PickBranchNode.nodesList rest

def StateNode.nodesList : List StateNode → List Node
  | [] => []
  | .mk _ _ entry exit triggers transitions :: rest =>
    Node.nodesOption entry ++ Node.nodesOption exit ++ Node.nodesList triggers ++
      TransitionNode.nodesList transitions ++ StateNode.nodesList rest

def TransitionNode.nodesList : List TransitionNode → List Node
  | [] => []
  | .mk _ _ action _ :: rest => Node.nodesOption action ++ TransitionNode.nodesList rest

def FlowNode.nodesList : List FlowNode → List Node
  | [] => []
  | .step _ action _ :: rest => Node.nodesOption action ++ FlowNode.nodesList rest
  | .decision .. :: rest => FlowNode.nodesList rest
  | .switch .. :: rest => FlowNode.nodesList rest
end

def NodeKind.invokedType? : NodeKind → Option String
  | .invoke nodeType _ _ => some nodeType
  | _ => none

def Node.invokedTypes (n : Node) : List String := n.nodes.filterMap (·.kind.invokedType?)

end Workflow
