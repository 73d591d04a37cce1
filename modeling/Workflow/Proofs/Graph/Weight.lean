import Mathlib.Algebra.BigOperators.Group.Multiset.Basic
import Mathlib.Tactic.Abel
import Workflow.Proofs.Lower.Staging
import Workflow.Proofs.Scope.Locals

/-!
# Weights of node graphs

A weighing gives things to the expressions, the code and the scheduled node types of a graph, and
the weight of a tree is all that is given in it. Steps keep their weight when they become nodes, if
the code that moves the position has none.
-/

namespace Workflow

open Node List

variable {l : StepList}

/-- What is given to the expressions in slots, to code, to nodes that schedule a call and to skips. -/
structure Weighing (β : Type) where
  expr : Expr → Multiset β
  body : List CodeStmt → Multiset β
  invoke : String → List NodeArgument → Option Location → Multiset β
  skip : List CodeStmt → Option Expr → List CodeStmt → Multiset β

namespace Weighing

variable {β : Type}

/-- The code that lowering adds on its own has no weight. -/
structure Lawful (w : Weighing β) : Prop where
  read : ∀ x, w.expr (.storeGet (.ident x)) = 0
  int : ∀ n, w.expr (.int n) = 0
  position : ∀ x i, w.expr (StepList.atPosition x i) = 0
  write : ∀ x e, w.expr e = 0 → w.body [.eval (.storeSet (.ident x) e)] = 0
  advance : ∀ x d, w.body [StepList.advance x d] = 0
  guarded : ∀ x i body, w.body [.branch (StepList.atPosition x i)
    (.block (body ++ [StepList.advance x 1])) none] = w.body body
  skipped : ∀ x i before condition onSkip d, w.body [.branch (StepList.atPosition x i)
    (.block (StepList.skipCode x before condition onSkip d)) none] = w.skip before condition onSkip

end Weighing

section Weight

variable {β : Type} (w : Weighing β)

def NodeKind.action : NodeKind → Multiset β
  | .code body => w.body body
  | .invoke nodeType arguments result => w.invoke nodeType arguments result
  | _ => 0

def NodeKind.weight (kind : NodeKind) : Multiset β :=
  (kind.slots.map w.expr).sum + kind.action w

def Node.weight (n : Node) : Multiset β := (n.nodes.map fun m => m.kind.weight w).sum

def Node.weights (ns : List Node) : Multiset β := (ns.map (weight w)).sum

@[simp]
theorem Node.weights_nil : weights w [] = 0 := rfl

@[simp]
theorem Node.weights_cons (n : Node) (ns : List Node) :
    weights w (n :: ns) = n.weight w + weights w ns := by
  simp [weights]

@[simp]
theorem Node.weights_append (ms ns : List Node) :
    weights w (ms ++ ns) = weights w ms + weights w ns := by
  simp [weights]

theorem Node.weight_mk (name : Option String) (kind : NodeKind) :
    (mk name kind).weight w = kind.weight w + weights w kind.children := by
  rw [weight, nodes, NodeKind.nodesBelow_eq, map_cons, sum_cons]
  congr 1
  generalize kind.children = ns
  induction ns with
  | nil => rfl
  | cons n ns ih =>
    rw [flatMap_cons, map_append, sum_append, weights_cons, ih]
    rfl

theorem Node.weight_ofKind (kind : NodeKind) :
    (ofKind kind).weight w = kind.weight w + weights w kind.children :=
  weight_mk w none kind

theorem Node.weight_named (name : String) (n : Node) : (n.named name).weight w = n.weight w := by
  obtain ⟨_, kind⟩ := n
  rw [named, weight_mk, weight_mk]

theorem Node.weight_code (body : List CodeStmt) : (code body).weight w = w.body body := by
  simp [code, weight_ofKind, NodeKind.weight, NodeKind.slots, NodeKind.action,
    NodeKind.children]

theorem Node.weight_sequence (vars : List VariableDecl) (ns : List Node) :
    (sequence vars ns).weight w = ((VariableDecl.slots vars).map w.expr).sum + weights w ns := by
  simp [sequence, weight_ofKind, NodeKind.weight, NodeKind.slots, NodeKind.action,
    NodeKind.children]

abbrev VariableDecl.Weightless (vars : List VariableDecl) : Prop :=
  ((VariableDecl.slots vars).map w.expr).sum = 0

def Step.weight : Step → Multiset β
  | .node n => n.weight w
  | .skip before condition onSkip _ => w.skip before condition onSkip

def Step.weights (steps : List Step) : Multiset β := (steps.map (Step.weight w)).sum

@[simp]
theorem Step.weights_nil : Step.weights w [] = 0 := rfl

@[simp]
theorem Step.weights_cons (step : Step) (steps : List Step) :
    Step.weights w (step :: steps) = step.weight w + Step.weights w steps := by
  simp [Step.weights]

@[simp]
theorem Step.weights_append (as bs : List Step) :
    Step.weights w (as ++ bs) = Step.weights w as + Step.weights w bs := by
  simp [Step.weights]

namespace StepList

variable {w} (hw : w.Lawful)

include hw

theorem weight_indexed (x : String) (i : Nat) (step : Step) :
    (indexed x i step).weight w = step.weight w := by
  have hnode : ∀ name kind, (ofKind (.conditional
      { ty := some .boolean, expr := atPosition x i }
      (some (.sequence [] [.mk name kind, .code [advance x 1]])) none)).weight w =
      (Node.mk name kind).weight w := by
    intro name kind
    simp [weight_ofKind, NodeKind.weight, NodeKind.slots, NodeKind.action, NodeKind.children,
      weight_sequence, VariableDecl.slots, weight_code, hw.position, hw.advance]
  cases step with
  | skip before condition onSkip d => rw [indexed, guardedCode, weight_code, hw.skipped]; rfl
  | node n =>
    obtain ⟨name, kind⟩ := n
    cases kind
    case code body =>
      rw [indexed, guardedCode, weight_code, hw.guarded]
      simp [Step.weight, weight_mk, NodeKind.weight, NodeKind.slots, NodeKind.action,
        NodeKind.children]
    all_goals exact hnode name _

theorem weights_indexedFrom (x : String) (i : Nat) (steps : List Step) :
    weights w (indexedFrom x i steps) = Step.weights w steps := by
  induction steps generalizing i with
  | nil => rfl
  | cons step steps ih =>
    rw [indexedFrom, weights_cons, ih, weight_indexed hw, Step.weights_cons]

theorem weights_nodes (hl : l.Generated) : weights w l.nodes = Step.weights w l.flush.steps := by
  unfold nodes
  split
  case h_2 x _ => exact weights_indexedFrom hw x 0 _
  case h_1 hnone =>
    have hplain := hl.flush.plain hnone
    generalize l.flush.steps = steps at hplain
    induction steps with
    | nil => rfl
    | cons step steps ih =>
      obtain ⟨n, rfl⟩ := hplain step mem_cons_self
      have ih := ih fun step hs => hplain step (mem_cons_of_mem _ hs)
      simp only [filterMap_cons, plainNode?, weights_cons, Step.weights_cons, ih]
      rfl

theorem weightless_vars (hl : l.Generated) : VariableDecl.Weightless w l.vars := by
  have hvars : ∀ v ∈ l.vars, ∀ e ∈ v.default.toList, w.expr e = 0 := by
    intro v hv e he
    rcases hl.vars v hv with ⟨-, -, hd⟩ | ⟨-, hd⟩
    · rw [hd] at he
      cases he
    · rw [hd] at he
      rw [mem_singleton.1 he]
      exact hw.int 0
  refine sum_eq_zero fun x hx => ?_
  obtain ⟨e, he, rfl⟩ := mem_map.1 hx
  obtain ⟨v, hv, he⟩ := mem_flatMap.1 he
  exact hvars v hv e he

theorem weights_finish (hl : l.Generated) :
    weights w l.finish.toList = Step.weights w l.flush.steps := by
  rw [← weights_nodes hw hl]
  have hvars := weightless_vars hw hl
  unfold finish
  split
  case h_1 _ hn => rw [hn]; rfl
  case h_2 n _ hn => rw [hn]; rfl
  case h_3 =>
    rw [Option.toList_some, weights_cons, weights_nil, add_zero, weight_sequence,
      hvars, zero_add]

end StepList

end Weight

end Workflow
