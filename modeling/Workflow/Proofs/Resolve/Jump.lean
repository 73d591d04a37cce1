import Mathlib.Data.List.Basic
import Workflow.Proofs.Build.Place
import Workflow.Proofs.Resolve.Rewrite

/-!
# What resolving jumps does

The nodes of a flowchart and the transition bodies of a state machine get the statements that their
references name. Which names are missing and which ways out of a state are ambiguous is read off the
statements as they were built.
-/

namespace Workflow

open List Resolve

variable {nodes : List StmtId}

def NodeRef.aim (names : String → Option StmtId) (r : NodeRef) : NodeRef :=
  match names r.name with
  | some id => { r with resolved := some id }
  | none => r

def NodeRef.missing (names : String → Option StmtId) (r : NodeRef) : List CompileError :=
  match names r.name with
  | some _ => []
  | none => [(Cause.unresolvedReference r.name).error r.span]

namespace NodeRef

variable (names : String → Option StmtId) (r : NodeRef)

@[simp]
theorem name_aim : (r.aim names).name = r.name := by
  unfold aim
  split <;> rfl

@[simp]
theorem span_aim : (r.aim names).span = r.span := by
  unfold aim
  split <;> rfl

@[simp]
theorem missing_aim : (r.aim names).missing names = r.missing names := by
  rw [missing, missing, name_aim, span_aim]

@[simp]
theorem aim_aim : (r.aim names).aim names = r.aim names := by
  unfold aim
  cases h : names r.name <;> simp [h]

variable {names r}

/-- A reference that names something leads there. -/
theorem resolved_aim_of_missing (h : r.missing names = []) :
    ∃ id, names r.name = some id ∧ (r.aim names).resolved = some id := by
  unfold missing at h
  unfold aim
  cases hn : names r.name with
  | some id => exact ⟨id, rfl, rfl⟩
  | none =>
    rw [hn] at h
    cases h

end NodeRef

namespace StmtKind

def flowRefs : StmtKind → List NodeRef
  | .flowStep _ _ next _ => next.toList
  | .flowIf _ _ onTrue onFalse => onTrue.toList ++ onFalse.toList
  | .flowSwitch _ _ cases fallback => cases.map (·.target) ++ fallback.toList
  | _ => []

/-- A flowchart node with its jumps resolved; `next` is the node after it. -/
def aimFlow (names : String → Option StmtId) (next : Option StmtId) : StmtKind → StmtKind
  | .flowStep name action none _ => .flowStep name action none next
  | .flowStep name action (some r) _ =>
    .flowStep name action (some (r.aim names)) (r.aim names).resolved
  | .flowIf name condition onTrue onFalse =>
    .flowIf name condition (onTrue.map (·.aim names)) (onFalse.map (·.aim names))
  | .flowSwitch name value cases fallback =>
    .flowSwitch name value (cases.map fun c => { c with target := c.target.aim names })
      (fallback.map (·.aim names))
  | k => k

def aimBody (names : String → Option StmtId) : StmtKind → StmtKind
  | .transitionBody condition action r => .transitionBody condition action (r.aim names)
  | k => k

@[simp]
theorem aimBody_aimBody (names : String → Option StmtId) (k : StmtKind) :
    (k.aimBody names).aimBody names = k.aimBody names := by
  cases k <;> simp [aimBody]

end StmtKind

theorem Resolve.mem_of_named {a : Activity} {ids : List StmtId} {name : String} {id : StmtId}
    (h : named a ids name = some id) : id ∈ ids ∧ (a.kind id).nodeName = some name :=
  ⟨mem_of_find?_eq_some h, by simpa using find?_some h⟩

namespace Activity

variable (a : Activity)

def bodiesOf (id : StmtId) : List StmtId :=
  match a.kind id with
  | .transition _ bodies => bodies
  | _ => []

def transitionsOf (id : StmtId) : List StmtId :=
  match a.kind id with
  | .state _ _ _ _ transitions => transitions
  | _ => []

def bodiesOfStates (states : List StmtId) : List StmtId :=
  states.flatMap fun s => (a.transitionsOf s).flatMap a.bodiesOf

def openBody (id : StmtId) : List StmtId :=
  match a.kind id with
  | .transitionBody none _ _ => [id]
  | _ => []

/-- The bodies of a transition that has no trigger, as far as they have no condition. -/
def untriggered (id : StmtId) : List StmtId :=
  match a.kind id with
  | .transition none bodies => bodies.flatMap a.openBody
  | _ => []

def startOf (states : List StmtId) : Option NodeRef → Option StmtId
  | some r => (r.aim (named a states)).resolved
  | none => states.find? fun s => !isFinalState a s

/-- What lowering expects: only statements of their own stand inside others, requests are
operations, ways out lead to states, and machines have their start. -/
structure Routed : Prop where
  inner : ∀ i, ∀ m ∈ (a.kind i).inner, a.StandsAlone m
  request : ∀ i, ∀ m ∈ (a.kind i).request, a.tag m = .service
  target : ∀ {id states start first s t b condition action r},
    a.kind id = .stateMachine states start first → s ∈ states → t ∈ a.transitionsOf s →
    b ∈ a.bodiesOf t → a.kind b = .transitionBody condition action r →
    (Lower.target? states r).isSome = true
  start : ∀ {id states start first}, a.kind id = .stateMachine states start first →
    (first.bind (Lower.position? states)).isSome = true

/-! ### Errors -/

def bodyErrors (names : String → Option StmtId) (id : StmtId) : List CompileError :=
  match a.kind id with
  | .transitionBody _ _ r => r.missing names
  | _ => []

def ambiguityErrors (state : String) (bodies : List StmtId) : List CompileError :=
  if 2 ≤ bodies.length then
    bodies.map fun b => (Cause.transitionConditionRequired state).error (a.stmtSpan b)
  else []

def transitionErrors (names : String → Option StmtId) (state : String) (id : StmtId) :
    List CompileError :=
  match a.kind id with
  | .transition trigger bodies =>
    bodies.flatMap (a.bodyErrors names) ++
      if trigger.isSome then a.ambiguityErrors state (bodies.flatMap a.openBody) else []
  | _ => []

def stateErrors (names : String → Option StmtId) (id : StmtId) : List CompileError :=
  match a.kind id with
  | .state name _ _ _ transitions =>
    transitions.flatMap (a.transitionErrors names name) ++
      a.ambiguityErrors name (transitions.flatMap a.untriggered)
  | _ => []

def startErrors (machine : StmtId) (states : List StmtId) : Option NodeRef → List CompileError
  | some r => r.missing (named a states) ++
      if (a.startOf states (some r)).any (isFinalState a) then
        [(Cause.startStateIsFinal r.name).error r.span] else []
  | none =>
    if (a.startOf states none).isNone then [Cause.noStartState.error (a.stmtSpan machine)] else []

def jumpErrors (id : StmtId) : List CompileError :=
  match a.kind id with
  | .flow nodes _ =>
    nodes.flatMap fun m => (a.kind m).flowRefs.flatMap (·.missing (named a nodes))
  | .stateMachine states start _ =>
    a.startErrors id states start ++
      ((if !states.any (isFinalState a) then
          [Cause.missingFinalState.error (a.stmtSpan id)] else []) ++
        states.flatMap (a.stateErrors (named a states)))
  | _ => []

/-! ### Parts -/

def aimNodes (names : String → Option StmtId) : List StmtId → StmtId → StmtKind → StmtKind
  | [], _, k => k
  | id :: rest, i, k => if i = id then k.aimFlow names rest.head? else aimNodes names rest i k

def aimBodies (names : String → Option StmtId) (bodies : List StmtId) (i : StmtId)
    (k : StmtKind) : StmtKind :=
  if i ∈ bodies then k.aimBody names else k

def jumpParts (id : StmtId) : StmtId → StmtKind → StmtKind :=
  match a.kind id with
  | .flow nodes _ => fun i k =>
    if i = id then .flow nodes nodes.head? else aimNodes (named a nodes) nodes i k
  | .stateMachine states start _ => fun i k =>
    if i = id then .stateMachine states start (a.startOf states start)
    else aimBodies (named a states) (a.bodiesOfStates states) i k
  | _ => fun _ k => k

/-! ### Resolved bodies -/

section Aimed

variable (names names' : String → Option StmtId) (bodies : List StmtId)

theorem kind_aimBodies (i : StmtId) :
    (a.rekind (aimBodies names bodies)).kind i = aimBodies names bodies i (a.kind i) := by
  refine kind_rekind ?_
  unfold aimBodies
  split <;> rfl

/-- Resolving a body keeps everything but its target. -/
theorem kind_aimBodies_cases (i : StmtId) :
    (a.rekind (aimBodies names bodies)).kind i = a.kind i ∨ ∃ condition action r,
      a.kind i = .transitionBody condition action r ∧
      (a.rekind (aimBodies names bodies)).kind i =
        .transitionBody condition action (r.aim names) := by
  rw [kind_aimBodies]
  unfold aimBodies
  split
  case isFalse => exact .inl rfl
  case isTrue =>
    cases a.kind i
    case transitionBody condition action r => exact .inr ⟨condition, action, r, rfl, rfl⟩
    all_goals exact .inl rfl

@[simp]
theorem openBody_aimBodies : (a.rekind (aimBodies names bodies)).openBody = a.openBody := by
  funext i
  rw [openBody, openBody]
  rcases a.kind_aimBodies_cases names bodies i with h | ⟨condition, action, r, h, h'⟩
  · rw [h]
  · rw [h, h']
    cases condition <;> rfl

@[simp]
theorem bodyErrors_aimBodies :
    (a.rekind (aimBodies names bodies)).bodyErrors names = a.bodyErrors names := by
  funext i
  rw [bodyErrors, bodyErrors]
  rcases a.kind_aimBodies_cases names bodies i with h | ⟨condition, action, r, h, h'⟩
  · rw [h]
  · rw [h, h']
    exact r.missing_aim names

@[simp]
theorem untriggered_aimBodies : (a.rekind (aimBodies names bodies)).untriggered = a.untriggered := by
  funext i
  rw [untriggered, untriggered]
  rcases a.kind_aimBodies_cases names bodies i with h | ⟨condition, action, r, h, h'⟩
  · rw [h]
    simp only [openBody_aimBodies]
  · rw [h, h']

@[simp]
theorem bodiesOf_aimBodies : (a.rekind (aimBodies names bodies)).bodiesOf = a.bodiesOf := by
  funext i
  rw [bodiesOf, bodiesOf]
  rcases a.kind_aimBodies_cases names bodies i with h | ⟨condition, action, r, h, h'⟩
  · rw [h]
  · rw [h, h']

@[simp]
theorem transitionsOf_aimBodies :
    (a.rekind (aimBodies names bodies)).transitionsOf = a.transitionsOf := by
  funext i
  rw [transitionsOf, transitionsOf]
  rcases a.kind_aimBodies_cases names bodies i with h | ⟨condition, action, r, h, h'⟩
  · rw [h]
  · rw [h, h']

@[simp]
theorem ambiguityErrors_rekind (f : StmtId → StmtKind → StmtKind) (state : String)
    (bs : List StmtId) : (a.rekind f).ambiguityErrors state bs = a.ambiguityErrors state bs := by
  simp only [ambiguityErrors, stmtSpan_rekind]

@[simp]
theorem transitionErrors_aimBodies (state : String) :
    (a.rekind (aimBodies names bodies)).transitionErrors names state =
      a.transitionErrors names state := by
  funext i
  rw [transitionErrors, transitionErrors]
  rcases a.kind_aimBodies_cases names bodies i with h | ⟨condition, action, r, h, h'⟩
  · rw [h]
    simp only [bodyErrors_aimBodies, openBody_aimBodies, ambiguityErrors_rekind]
  · rw [h, h']

@[simp]
theorem stateErrors_aimBodies :
    (a.rekind (aimBodies names bodies)).stateErrors names = a.stateErrors names := by
  funext i
  rw [stateErrors, stateErrors]
  rcases a.kind_aimBodies_cases names bodies i with h | ⟨condition, action, r, h, h'⟩
  · rw [h]
    simp only [transitionErrors_aimBodies, untriggered_aimBodies, ambiguityErrors_rekind]
  · rw [h, h']

theorem aimBodies_append (bs cs : List StmtId) (i : StmtId) (k : StmtKind) :
    aimBodies names cs i (aimBodies names bs i k) = aimBodies names (bs ++ cs) i k := by
  simp only [aimBodies, mem_append]
  by_cases hb : i ∈ bs <;> by_cases hc : i ∈ cs <;> simp [hb, hc]

end Aimed

end Activity

namespace Resolve

open Activity

variable {a : Activity} {names : String → Option StmtId}

/-! ### References and flowcharts -/

theorem rewrites_target (names : String → Option StmtId) (r : NodeRef) :
    Rewrites (target names r) a (r.aim names) (fun _ k => k) (r.missing names) := by
  unfold target NodeRef.aim NodeRef.missing
  cases names r.name with
  | some id => exact .pure _
  | none => exact (Rewrites.report _ _).still (.pure r)

theorem rewrites_optionalTarget (r : Option NodeRef) :
    Rewrites (optionalTarget names r) a (r.map (·.aim names)) (fun _ k => k)
      (r.toList.flatMap (·.missing names)) := by
  cases r with
  | none => exact .pure _
  | some r =>
    have hsome := (rewrites_target (a := a) names r).still
      (y := fun r => pure (some r)) (.pure _)
    exact hsome.errors (by simp)

theorem rewrites_cases (cases : List FlowCase) :
    Rewrites (cases.mapM fun c => do return { c with target := ← target names c.target }) a
      (cases.map fun c => { c with target := c.target.aim names }) (fun _ k => k)
      (cases.flatMap fun c => c.target.missing names) := by
  induction cases with
  | nil => exact .pure _
  | cons c cases ih =>
    have hcase := (rewrites_target (a := a) names c.target).still
      (y := fun r => pure { c with target := r }) (.pure _)
    rw [mapM_cons]
    refine Rewrites.errors (hcase.still (ih.still (.pure _))) ?_
    simp

theorem rewrites_flowNode (next : Option StmtId) (k : StmtKind) :
    Rewrites (flowNode names next k) a (k.aimFlow names next) (fun _ k => k)
      (k.flowRefs.flatMap (·.missing names)) := by
  unfold flowNode
  split
  · exact .pure _
  · next name action r _ =>
    refine Rewrites.errors ((rewrites_target _ r).still (.pure _)) ?_
    simp [StmtKind.flowRefs]
  · next name condition onTrue onFalse =>
    refine Rewrites.errors ((rewrites_optionalTarget onTrue).still
      ((rewrites_optionalTarget onFalse).still (.pure _))) ?_
    simp [StmtKind.flowRefs]
  · next name value cases fallback =>
    refine Rewrites.errors ((rewrites_cases cases).still
      ((rewrites_optionalTarget fallback).still (.pure _))) ?_
    simp [StmtKind.flowRefs, flatMap_map]
  · next hstep hstep' hif hswitch =>
    have hother : k.aimFlow names next = k ∧ k.flowRefs = [] := by
      cases k
      case flowStep name action r _ =>
        cases r with
        | none => exact (hstep _ _ _ rfl).elim
        | some r => exact (hstep' _ _ _ _ rfl).elim
      case flowIf => exact (hif _ _ _ _ rfl).elim
      case flowSwitch => exact (hswitch _ _ _ _ rfl).elim
      all_goals exact ⟨rfl, rfl⟩
    rw [hother.1, hother.2]
    exact .pure k

theorem aimNodes_of_not_mem (h : i ∉ nodes) (k : StmtKind) : aimNodes names nodes i k = k := by
  induction nodes with
  | nil => rfl
  | cons id rest ih =>
    rw [mem_cons, not_or] at h
    rw [aimNodes, if_neg h.1, ih h.2]

/-- Every node is visited once, so each is read as it was built. -/
theorem rewrites_flowNodes (hnodup : nodes.Nodup) :
    Rewrites (flowNodes names nodes) a () (aimNodes names nodes)
      (nodes.flatMap fun m => (a.kind m).flowRefs.flatMap (·.missing names)) := by
  induction nodes generalizing a with
  | nil => exact .pure _
  | cons id rest ih =>
    obtain ⟨hid, hrest⟩ := nodup_cons.1 hnodup
    have hkind : ∀ m ∈ rest, (a.setKind id ((a.kind id).aimFlow names rest.head?)).kind m =
        a.kind m := fun m hm => kind_setKind_of_ne _ _ _ fun h => hid (h ▸ hm)
    refine .bind_activity (Rewrites.cast ((rewrites_flowNode rest.head? (a.kind id)).still
      ((Rewrites.setKind id _).bind (ih hrest))) rfl ?_ ?_)
    · intro i
      rw [aimNodes]
      split
      case isTrue hi =>
        subst hi
        exact aimNodes_of_not_mem hid _
      case isFalse => rfl
    · rw [flatMap_cons, nil_append, ← setKind_eq_rekind]
      congr 1
      exact flatMap_congr fun m hm => by rw [hkind m hm]

theorem rewrites_flow {id : StmtId} {start : Option StmtId} (hk : a.kind id = .flow nodes start)
    (hnodup : nodes.Nodup) : Rewrites (flow id) a () (a.jumpParts id) (a.jumpErrors id) := by
  refine .bind_activity ?_
  rw [hk]
  refine Rewrites.cast ((rewrites_flowNodes hnodup).bind (Rewrites.setKind id _)) rfl ?_ ?_
  · intro i
    rw [jumpParts, hk]
  · rw [jumpErrors, hk, append_nil]

/-! ### State machines -/

theorem rewrites_transitionBody (id : StmtId) :
    Rewrites (transitionBody names id) a (a.openBody id) (aimBodies names [id])
      (a.bodyErrors names id) := by
  refine .bind_activity ?_
  rw [openBody, bodyErrors]
  -- the parts of the body itself are the only ones that change, and only if it is one
  have hparts : ∀ k, (a.kind id).aimBody names = k →
      ∀ i, (if i = id then k else a.kind i) = aimBodies names [id] i (a.kind i) := by
    intro k hk i
    simp only [aimBodies, mem_singleton]
    split
    case isTrue hi => rw [hi, hk]
    case isFalse => rfl
  cases hk : a.kind id
  case transitionBody condition action r =>
    refine Rewrites.cast ((rewrites_target _ r).still
      ((Rewrites.setKind id (.transitionBody condition action (r.aim names))).bind
        (.pure _))) ?_ (hparts _ (by rw [hk]; rfl)) (by simp)
    cases condition <;> rfl
  all_goals
    refine Rewrites.cast (Rewrites.pure []) rfl (fun i => ?_) rfl
    rw [← hparts _ rfl i, hk]
    split
    case isTrue hi =>
      rw [hi, hk]
      rfl
    case isFalse => rfl

theorem rewrites_bodies (bodies : List StmtId) :
    Rewrites (bodies.mapM (transitionBody names)) a (bodies.map a.openBody)
      (aimBodies names bodies) (bodies.flatMap (a.bodyErrors names)) := by
  induction bodies generalizing a with
  | nil => exact (Rewrites.pure []).cast rfl (fun i => by simp [aimBodies]) rfl
  | cons id rest ih =>
    rw [mapM_cons]
    refine Rewrites.cast ((rewrites_transitionBody id).bind (ih.bind (.pure _))) ?_ ?_ ?_
    · simp
    · exact fun i => aimBodies_append names [id] rest i _
    · simp

theorem rewrites_ambiguous (state : String) (bodies : List StmtId) :
    Rewrites (ambiguous state bodies) a () (fun _ k => k) (a.ambiguityErrors state bodies) := by
  unfold ambiguous ambiguityErrors
  split
  case isFalse => exact .pure _
  case isTrue =>
    generalize bodies = bs
    induction bs with
    | nil => exact .pure _
    | cons b bs ih =>
      rw [forM_eq_forM, forM_cons]
      have hb : Rewrites (do
          report (.transitionConditionRequired state) ((← activity).stmtSpan b)) a ()
          (fun _ k => k) [(Cause.transitionConditionRequired state).error (a.stmtSpan b)] :=
        .bind_activity (.report _ _)
      exact hb.still ih

theorem rewrites_transition (state : String) (id : StmtId) :
    Rewrites (transition names state id) a (a.untriggered id) (aimBodies names (a.bodiesOf id))
      (a.transitionErrors names state id) := by
  refine .bind_activity ?_
  rw [untriggered, bodiesOf, transitionErrors]
  cases a.kind id
  case transition trigger bodies =>
    refine Rewrites.bind (rewrites_bodies bodies) (g := fun _ k => k) ?_
    rw [← flatMap_def]
    cases trigger with
    | none => exact .pure _
    | some trigger =>
      refine Rewrites.errors ((rewrites_ambiguous state _).still (.pure [])) ?_
      simp
  all_goals exact (Rewrites.pure []).cast rfl (fun i => by simp [aimBodies]) rfl

theorem rewrites_transitions (state : String) (transitions : List StmtId) :
    Rewrites (transitions.mapM (transition names state)) a (transitions.map a.untriggered)
      (aimBodies names (transitions.flatMap a.bodiesOf))
      (transitions.flatMap (a.transitionErrors names state)) := by
  induction transitions generalizing a with
  | nil => exact (Rewrites.pure []).cast rfl (fun i => by simp [aimBodies]) rfl
  | cons id rest ih =>
    rw [mapM_cons]
    refine Rewrites.cast ((rewrites_transition state id).bind (ih.bind (.pure _))) ?_ ?_ ?_
    · simp
    · intro i
      rw [bodiesOf_aimBodies]
      exact aimBodies_append names _ _ i _
    · simp

theorem rewrites_state (id : StmtId) :
    Rewrites (state names id) a () (aimBodies names ((a.transitionsOf id).flatMap a.bodiesOf))
      (a.stateErrors names id) := by
  refine .bind_activity ?_
  rw [transitionsOf, stateErrors]
  cases a.kind id
  case state name isFinal entry exit transitions =>
    refine Rewrites.bind (rewrites_transitions name transitions) (g := fun _ k => k) ?_
    rw [← flatMap_def, ← ambiguityErrors_rekind]
    exact rewrites_ambiguous name _
  all_goals exact (Rewrites.pure ()).cast rfl (fun i => by simp [aimBodies]) rfl

theorem rewrites_states (states : List StmtId) :
    Rewrites (states.forM (state names)) a () (aimBodies names (a.bodiesOfStates states))
      (states.flatMap (a.stateErrors names)) := by
  induction states generalizing a with
  | nil =>
    exact (Rewrites.pure ()).cast rfl (fun i => by simp [aimBodies, bodiesOfStates]) rfl
  | cons id rest ih =>
    rw [forM_eq_forM, forM_cons]
    refine Rewrites.cast ((rewrites_state id).bind ih) rfl ?_ ?_
    · intro i
      simp only [bodiesOfStates, transitionsOf_aimBodies, bodiesOf_aimBodies, flatMap_cons]
      exact aimBodies_append names _ _ i _
    · simp

theorem rewrites_startState (machine : StmtId) (states : List StmtId) (start : Option NodeRef) :
    Rewrites (startState machine states start) a (a.startOf states start) (fun _ k => k)
      (a.startErrors machine states start) := by
  cases start with
  | some r =>
    refine .bind_activity (Rewrites.still (rewrites_target _ r) ?_)
    rw [NodeRef.name_aim, NodeRef.span_aim]
    have hfirst := Rewrites.ite_report (a := a)
      (c := ((r.aim (named a states)).resolved.any (isFinalState a)) = true)
      (.startStateIsFinal r.name) r.span
      (y := fun _ => pure (r.aim (named a states)).resolved) (.pure _)
    exact hfirst.errors (append_nil _)
  | none =>
    have hfirst := Rewrites.ite_report (a := a) (c := (a.startOf states none).isNone = true)
      .noStartState (a.stmtSpan machine)
      (y := fun _ => pure (a.startOf states none)) (.pure _)
    exact .bind_activity (hfirst.errors (append_nil _))

theorem rewrites_stateMachine {id : StmtId} {states : List StmtId} {start : Option NodeRef}
    {first : Option StmtId} (hk : a.kind id = .stateMachine states start first) :
    Rewrites (stateMachine id) a () (a.jumpParts id) (a.jumpErrors id) := by
  refine .bind_activity ?_
  rw [hk]
  have hstates : Rewrites (do
      states.forM (state (named a states))
      setKind id (.stateMachine states start (a.startOf states start))) a ()
      (a.jumpParts id) (states.flatMap (a.stateErrors (named a states))) := by
    refine Rewrites.cast ((rewrites_states states).bind (.setKind id _)) rfl ?_
      (append_nil _)
    intro i
    rw [jumpParts, hk]
  have herrors : a.jumpErrors id = a.startErrors id states start ++
      ((if !states.any (isFinalState a) then
          [Cause.missingFinalState.error (a.stmtSpan id)] else []) ++
        states.flatMap (a.stateErrors (named a states))) := by
    rw [jumpErrors, hk]
  rw [herrors]
  exact (rewrites_startState id states start).still (.ite_report _ _ hstates)

end Resolve

end Workflow
