import Workflow.Proofs.Lower.Agreement

/-!
# Running steps

Steps are run from a position on. Without a variable for the position they follow each other. With
one, every step runs only if the variable is at its position and then moves it on, so that a skip
that moves it further makes the steps in between pass without effect.
-/

namespace Workflow

open StepList Option

variable {index : String} {position : Nat}
variable {ρ : World String} {q : Int}

namespace StepList

def guardedNode (index : String) (position : Nat) (n : Node) : Node :=
  .ofKind (.conditional { ty := some .boolean, expr := atPosition index position }
    (some (.sequence [] [n, .code [advance index 1]])) none)

theorem indexed_node (index : String) (position : Nat) (n : Node) :
    (∃ name body, n = .mk name (.code body)) ∨
      indexed index position (.node n) = guardedNode index position n := by
  obtain ⟨name, kind⟩ := n
  cases kind
  case code body => exact .inl ⟨name, body, rfl⟩
  all_goals exact .inr rfl

end StepList

namespace Engine

variable (H : Runtime) (answer : Answer) (bound : Nat)

attribute [local simp] exec execList execElse run runKind runList runOption

theorem execList_append (a b : List CodeStmt) (ρ : World String) :
    execList H bound (a ++ b) ρ = (execList H bound a ρ).bind (execList H bound b) := by
  induction a generalizing ρ with
  | nil => simp
  | cons s rest ih =>
    simp only [List.cons_append, execList, bind_eq_bind, bind_assoc]
    exact congrArg _ (funext fun ρ' => ih ρ')

theorem execList_singleton (s : CodeStmt) (ρ : World String) :
    execList H bound [s] ρ = exec H bound s ρ := by
  simp

theorem runList_append (a b : List Node) (ρ : World String) : runList H answer bound (a ++ b) ρ =
      (runList H answer bound a ρ).bind (runList H answer bound b) := by
  induction a generalizing ρ with
  | nil => simp
  | cons n rest ih =>
    simp only [List.cons_append, runList, bind_eq_bind, bind_assoc]
    exact congrArg _ (funext fun ρ' => ih ρ')

theorem runList_singleton (n : Node) (ρ : World String) :
    runList H answer bound [n] ρ = run H answer bound n ρ := by
  simp

theorem eval_readIndex (h : ρ.vars index = some (.int q)) :
    eval H bound (readIndex index) ρ = some (.int q, ρ) := by
  rw [readIndex, eval_storeGet H bound rfl, h, map_some]

theorem eval_atPosition (h : ρ.vars index = some (.int q)) (position : Nat) :
    eval H bound (atPosition index position) ρ = some (.bool (q == position), ρ) :=
  eval_apply_int H bound rfl (eval_readIndex H bound h) (H.eq_int q position)

theorem exec_advance (h : ρ.vars index = some (.int q)) (distance : Nat) :
    exec H bound (advance index distance) ρ = some (ρ.set index (.int (q + distance))) := by
  rw [advance, exec, eval_storeSet H bound rfl,
    eval_apply_int H bound rfl (eval_readIndex H bound h) (H.add_int q distance)]
  rfl

theorem run_guardedCode (h : ρ.vars index = some (.int position)) (body : List CodeStmt) :
    run H answer bound (guardedCode index position body) ρ = execList H bound body ρ := by
  rw [guardedCode, Node.code, Node.ofKind, run, runKind, execList_singleton, exec,
    eval_atPosition H bound h]
  simp [exec]

/-- A guarded node runs at its position only, and then moves the position on. -/
theorem run_guardedNode (h : ρ.vars index = some (.int q)) (position : Nat) (n : Node) :
    run H answer bound (guardedNode index position n) ρ = if q = position then
        (run H answer bound n ρ).bind (exec H bound (advance index 1))
      else some ρ := by
  rw [guardedNode, Node.ofKind, run, runKind, eval_atPosition H bound h]
  by_cases hq : q = position
  · simp [hq, runOption, Node.sequence, Node.ofKind, Node.code, run, runKind, start, runList,
      execList]
  · simp [hq, runOption]

/-- A step leaves everything as it is if the position is another one. -/
theorem run_indexed_of_ne (h : ρ.vars index = some (.int q)) (hne : q ≠ position) (step : Step) :
    run H answer bound (indexed index position step) ρ = some ρ := by
  have hcode : ∀ body,
      run H answer bound (guardedCode index position body) ρ = some ρ := by
    intro body
    rw [guardedCode, Node.code, Node.ofKind, run, runKind, execList_singleton, exec,
      eval_atPosition H bound h]
    simp [hne, execElse]
  cases step with
  | skip before condition onSkip distance => exact hcode _
  | node n =>
    obtain ⟨name, body, rfl⟩ | hguard := indexed_node index position n
    · exact hcode _
    · rw [hguard, run_guardedNode H answer bound h, if_neg hne]

/-- At its position a step that is a node runs the node and moves the position on. -/
theorem run_indexed_node (h : ρ.vars index = some (.int position))
    (hn : run H answer bound n ρ = some ρ') (hindex : ρ'.vars index = ρ.vars index) :
    run H answer bound (indexed index position (.node n)) ρ =
      some (ρ'.set index (.int (position + 1 : Nat))) := by
  have hmove : exec H bound (advance index 1) ρ' = _ :=
    exec_advance H bound (hindex.trans h) 1
  obtain ⟨name, body, rfl⟩ | hguard := indexed_node index position n
  · rw [run, runKind] at hn
    rw [indexed, run_guardedCode H answer bound h, execList_append, hn, bind_some,
      execList_singleton, hmove]
    rfl
  · rw [hguard, run_guardedNode H answer bound h, if_pos rfl, hn, bind_some, hmove]
    rfl

end Engine

namespace StepList

def nodesFrom (index : Option String) (position : Nat) (steps : List Step) : List Node :=
  match index with
  | none => steps.filterMap plainNode?
  | some index => indexedFrom index position steps

theorem nodes_eq_nodesFrom (l : StepList) : l.nodes = nodesFrom l.index 0 l.flush.steps := by
  have : l.flush.index = l.index := by
    unfold flush
    split <;> rfl
  rw [nodes, this]
  cases l.index <;> rfl

theorem indexedFrom_append (index : String) (position : Nat) (a b : List Step) :
    indexedFrom index position (a ++ b) =
      indexedFrom index position a ++ indexedFrom index (position + a.length) b := by
  induction a generalizing position with
  | nil => rfl
  | cons step rest ih =>
    rw [List.cons_append, indexedFrom, indexedFrom, ih, List.length_cons, List.cons_append,
      Nat.add_assoc, Nat.add_comm 1]

theorem nodesFrom_append (index : Option String) (position : Nat) (a b : List Step) :
    nodesFrom index position (a ++ b) =
      nodesFrom index position a ++ nodesFrom index (position + a.length) b := by
  cases index with
  | none => exact List.filterMap_append
  | some index => exact indexedFrom_append index position a b

/-- The variable of the position, if there is one, holds the position. -/
def Positioned (index : Option String) (position : Nat) (ρ : World String) : Prop :=
  ∀ x, index = some x → ρ.vars x = some (.int position)

def moved (index : Option String) (position : Nat) (ρ : World String) : World String :=
  match index with
  | none => ρ
  | some x => ρ.set x (.int position)

/-- The variable of the position, if there is one, was not changed. -/
def KeepsIndex (index : Option String) (ρ ρ' : World String) : Prop :=
  ∀ x, index = some x → ρ'.vars x = ρ.vars x

theorem positioned_moved (index : Option String) (position : Nat) (ρ : World String) :
    Positioned index position (moved index position ρ) := by
  rintro x rfl
  simp [moved]

theorem Positioned.of_keepsIndex {index : Option String} {ρ' : World String}
    (h : Positioned index position ρ) (hk : KeepsIndex index ρ ρ') : Positioned index position ρ' :=
  fun x hx => (hk x hx).trans (h x hx)

end StepList

namespace Engine

open StepList

variable (H : Runtime) (answer : Answer) (bound : Nat)

def runFrom (index : Option String) (position : Nat) (steps : List Step) :
    World String → Option (World String) :=
  runList H answer bound (nodesFrom index position steps)

variable {H answer bound} {index : Option String} {position : Nat} {ρ ρ' : World String}

theorem runFrom_nil : runFrom H answer bound index position [] ρ = some ρ := by
  cases index <;> rfl

theorem runFrom_append (h : runFrom H answer bound index position a ρ = some ρ') :
    runFrom H answer bound index position (a ++ b) ρ =
      runFrom H answer bound index (position + a.length) b ρ' := by
  unfold runFrom at h ⊢
  rw [nodesFrom_append, runList_append, h, bind_some]

theorem runFrom_cons_append (hstep : runFrom H answer bound index position [step] ρ = some ρ₁)
    (ha : runFrom H answer bound index (position + 1) a ρ₁ = some ρ₂) :
    runFrom H answer bound index position (step :: (a ++ b)) ρ =
      runFrom H answer bound index (position + 1 + a.length) b ρ₂ := by
  rw [← List.singleton_append, runFrom_append hstep]
  exact runFrom_append ha

theorem runFrom_node (h : Positioned index position ρ)
    (hn : run H answer bound n ρ = some ρ') (hk : KeepsIndex index ρ ρ') :
    runFrom H answer bound index position [.node n] ρ = some (moved index (position + 1) ρ') := by
  unfold runFrom
  cases index with
  | none => exact (runList_singleton H answer bound n ρ).trans hn
  | some x =>
    rw [nodesFrom, indexedFrom, indexedFrom, runList_singleton]
    exact run_indexed_node H answer bound (h x rfl) hn (hk x rfl)

theorem runFrom_code (h : Positioned index position ρ)
    (hn : execList H bound body ρ = some ρ') (hk : KeepsIndex index ρ ρ') :
    runFrom H answer bound index position [.node (.code body)] ρ =
      some (moved index (position + 1) ρ') := by
  refine runFrom_node h ?_ hk
  rw [Node.code, Node.ofKind, run, runKind, hn]

/-- Steps before the position pass without effect. -/
theorem runFrom_pass {x : String} {q : Nat} (h : ρ.vars x = some (.int q)) (steps : List Step)
    (hle : position + steps.length ≤ q) :
    runFrom H answer bound (some x) position steps ρ = some ρ := by
  induction steps generalizing position with
  | nil => exact runFrom_nil
  | cons step rest ih =>
    rw [List.length_cons] at hle
    have hne : (q : Int) ≠ position := by omega
    have hrest : runFrom H answer bound (some x) (position + 1) rest ρ = some ρ := ih (by omega)
    unfold runFrom at hrest ⊢
    rw [nodesFrom, indexedFrom, runList, run_indexed_of_ne H answer bound h hne]
    exact hrest

section Skip

variable {x : String} {before onSkip : List CodeStmt} {test : Expr} {distance : Nat}
variable {skipped : List Step} {ρ₁ ρ₂ ρ₃ : World String}

theorem runFrom_skip (h : ρ.vars x = some (.int position)) :
    runFrom H answer bound (some x) position [.skip before condition onSkip distance] ρ =
      execList H bound (skipCode x before condition onSkip distance) ρ := by
  rw [runFrom, nodesFrom, indexedFrom, indexedFrom, runList_singleton]
  exact run_guardedCode H answer bound h _

/-- The steps after a skip pass, as many as it says. -/
theorem runFrom_over (h : ρ.vars x = some (.int position)) (hskipped : skipped.length = distance)
    (hcode : execList H bound (skipCode x before condition onSkip distance) ρ =
      some (ρ'.set x (.int (position + (distance + 1) : Nat)))) :
    runFrom H answer bound (some x) position (.skip before condition onSkip distance :: skipped) ρ =
      some (moved (some x) (position + (distance + 1)) ρ') := by
  have hskip : runFrom H answer bound (some x) position
      [.skip before condition onSkip distance] ρ = _ := (runFrom_skip h).trans hcode
  rw [← List.singleton_append, runFrom_append hskip]
  refine runFrom_pass (World.vars_set_self _ _ _) skipped ?_
  rw [List.length_singleton]
  omega

/-- A skip whose condition holds. -/
theorem runFrom_taken (h : ρ.vars x = some (.int position)) (hskipped : skipped.length = distance)
    (hbefore : execList H bound before ρ = some ρ₁)
    (htest : eval H bound test ρ₁ = some (.bool true, ρ₂))
    (honSkip : execList H bound onSkip ρ₂ = some ρ₃) (hk : ρ₃.vars x = ρ.vars x) :
    runFrom H answer bound (some x) position
        (.skip before (some test) onSkip distance :: skipped) ρ =
      some (moved (some x) (position + (distance + 1)) ρ₃) := by
  refine runFrom_over h hskipped ?_
  have hmove := exec_advance H bound (hk.trans h) (distance + 1)
  simp only [skipCode, execList_append, execList_singleton, hbefore, exec, htest, honSkip, hmove,
    bind_some, bind_eq_bind, Value.asBool_bool, if_true, Int.natCast_add]

/-- A skip without a condition. -/
theorem runFrom_always (h : ρ.vars x = some (.int position)) (hskipped : skipped.length = distance)
    (hbefore : execList H bound before ρ = some ρ₁) (hk : ρ₁.vars x = ρ.vars x) :
    runFrom H answer bound (some x) position (.skip before none [] distance :: skipped) ρ =
      some (moved (some x) (position + (distance + 1)) ρ₁) := by
  refine runFrom_over h hskipped ?_
  have hmove := exec_advance H bound (hk.trans h) (distance + 1)
  simp only [skipCode, List.nil_append, execList_append, execList_singleton, hbefore, hmove,
    bind_some, Int.natCast_add]

/-- A skip whose condition does not hold. -/
theorem runFrom_untaken (h : ρ.vars x = some (.int position))
    (hbefore : execList H bound before ρ = some ρ₁)
    (htest : eval H bound test ρ₁ = some (.bool false, ρ₂)) (hk : ρ₂.vars x = ρ.vars x) :
    runFrom H answer bound (some x) position [.skip before (some test) onSkip distance] ρ =
      some (moved (some x) (position + 1) ρ₂) := by
  have hmove := exec_advance H bound (hk.trans h) 1
  rw [runFrom_skip h]
  simp only [skipCode, execList_append, execList_singleton, hbefore, exec, htest, execElse, hmove,
    bind_some, bind_eq_bind, Value.asBool_bool, Bool.false_eq_true, if_false, moved,
    Int.natCast_add]

end Skip

end Engine

end Workflow
