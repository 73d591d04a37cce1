import Workflow.Proofs.Lower.Structure

/-!
# Branches and loops

The nodes of branches, loops and switches. A loop whose condition needs steps tests a variable: the
steps run once before each test, so that the variable holds the value of the condition whenever it is
tested.
-/

namespace Workflow

open Engine Lower Option

variable {ρ : World String} {w : World StoreId} {q : Bool × World StoreId} {condition : Fragment}

/-- A loop that comes to an end tests its condition. -/
theorem test_of_iterate {σ : Type} {test : σ → Option (Bool × σ)} {body : σ → Option σ}
    {x x' : σ} (h : iterate test body n x = some x') : ∃ q, test x = some q := by
  cases n with
  | zero => cases h
  | succ n =>
    obtain ⟨q, hq, -⟩ := bind_eq_some_iff.1 h
    exact ⟨q, hq⟩

/-- Two loops run alike: their states are related by `R` before a test and by `A` after it. -/
theorem iterate_related {σ τ : Type} {R A : σ → τ → Prop} {test : σ → Option (Bool × σ)}
    {body : σ → Option σ} {test' : τ → Option (Bool × τ)} {body' : τ → Option τ}
    (htest : ∀ x y b x', R x y → test x = some (b, x') → ∃ y', test' y = some (b, y') ∧ A x' y')
    (hbody : ∀ x y x' q, A x y → body x = some x' → test x' = some q →
      ∃ y', body' y = some y' ∧ R x' y')
    {x x' : σ} {y : τ} (hR : R x y) (h : iterate test body n x = some x') :
    ∃ y', iterate test' body' n y = some y' ∧ A x' y' := by
  induction n generalizing x y with
  | zero => cases h
  | succ n ih =>
    rw [iterate] at h
    obtain ⟨⟨b, x₁⟩, hx₁, h⟩ := bind_eq_some_iff.1 h
    obtain ⟨y₁, hy₁, hA⟩ := htest x y b x₁ hR hx₁
    cases b with
    | false =>
      cases h
      exact ⟨y₁, by rw [iterate, hy₁]; rfl, hA⟩
    | true =>
      obtain ⟨x₂, hx₂, h⟩ := bind_eq_some_iff.1 h
      -- The loop goes on, so there is a next test.
      obtain ⟨q, hq⟩ := test_of_iterate h
      obtain ⟨y₂, hy₂, hR₂⟩ := hbody x₁ y₁ x₂ q hA hx₂ hq
      obtain ⟨y', hy', hA'⟩ := ih hR₂ h
      refine ⟨y', ?_, hA'⟩
      simp only [iterate, hy₁, bind_eq_bind, bind_some, if_true, hy₂, hy']

namespace Engine

variable (H : Runtime) (answer : Answer) (bound : Nat)

def test (e : Expr) (ρ : World String) : Option (Bool × World String) := do
  let (a, ρ) ← eval H bound e ρ
  return (← a.asBool, ρ)

theorem test_eq_some (h : eval H bound e ρ = some (v, ρ')) (hb : v.asBool = some b) :
    test H bound e ρ = some (b, ρ') := by
  simp only [test, h, bind_eq_bind, bind_some, hb, pure_def]

theorem run_conditional (v : ValueExpr) (yes no : Option Node) (ρ : World String) :
    run H answer bound (.ofKind (.conditional v yes no)) ρ = (test H bound v.expr ρ).bind fun q =>
        if q.1 then runOption H answer bound yes q.2 else runOption H answer bound no q.2 := by
  rw [Node.ofKind, run, runKind, test]
  simp only [bind_eq_bind, bind_assoc, pure_def, bind_some]

theorem run_loop (v : ValueExpr) (body : Option Node) (testAfter : Bool) (ρ : World String) :
    run H answer bound (.ofKind (.loop v body testAfter)) ρ =
      (if testAfter then runOption H answer bound body ρ else some ρ).bind
        (iterate (test H bound v.expr) (runOption H answer bound body) bound) := by
  rw [Node.ofKind, run, runKind]
  cases testAfter <;> rfl

theorem run_switch (v : ValueExpr) (cases : List CaseNode) (fallback : Option Node)
    (ρ : World String) : run H answer bound (.ofKind (.switch v cases fallback)) ρ =
      (eval H bound v.expr ρ).bind fun q =>
        runCases H answer bound q.1 cases (runOption H answer bound fallback) q.2 := by
  rw [Node.ofKind, run, runKind]
  rfl

end Engine

namespace LowerContext

variable {c : LowerContext} {H : Runtime} {answer : Answer} {bound : Nat}
variable {lower : Inner} {inner : StmtId → World StoreId → Option (World StoreId)}

theorem slot_clean (H : Runtime) (answer : Answer) (bound : Nat) (hc : c.HandlesApart)
    (he : c.onStores false f.expr = true) (ty : Option TypeName) : Clean (value c f ty) fun p =>
      c.Evaluates H answer bound p.2 p.1.expr (Source.eval H answer c f.expr) :=
  (value_clean H answer bound hc he ty).mono fun _ hp =>
    hp.of_le (Source.faithful_of_orderly (.of_onStores he) (readOnly he).orderly)

theorem Evaluates.test (hK : c.Evaluates H answer bound h e (ev f.expr)) (hag : c.Agrees w ρ)
    (hq : Source.test ev f w = some q) : ∃ ρ₁, prepare H answer bound h ρ = some ρ₁ ∧
      ∃ ρ₂, test H bound e ρ₁ = some (q.1, ρ₂) ∧ c.Agrees q.2 ρ₂ := by
  obtain ⟨⟨v, w₁⟩, hv, hq⟩ := bind_eq_some_iff.1 hq
  obtain ⟨b, hb, hq⟩ := bind_eq_some_iff.1 hq
  cases hq
  obtain ⟨ρ₁, hprepare, ρ₂, heval, hag₂⟩ := hK w ρ _ hag hv
  exact ⟨ρ₁, hprepare, ρ₂, test_eq_some H bound heval hb, hag₂⟩

theorem optional_clean (hfit : c.Fitting H answer bound lower inner ms) (hmem : no.toList ⊆ ms)
    (hno : no.all c.activity.isUnchained = true) : Clean (optional lower no) fun node =>
      c.Does H answer bound node (Source.runOptional inner no) := by
  cases no with
  | none =>
    refine .pure fun w ρ w' hag hT => ?_
    cases hT
    exact ⟨ρ, by rw [runOption], hag⟩
  | some id => exact hfit.node id (hmem (by simp)) hno

theorem conditional_clean (hc : c.HandlesApart)
    (he : c.onStores false condition.expr = true) (hyes : c.activity.isUnchained yes = true)
    (hno : no.all c.activity.isUnchained = true)
    (hfit : c.Fitting H answer bound lower inner (yes :: no.toList)) : Clean (do
        let (v, h) ← value c condition (some .boolean)
        let yes ← lower yes
        let no ← optional lower no
        return some (h.wrap (.ofKind (.conditional v yes no)))) fun node =>
      c.Does H answer bound node fun w =>
        (Source.test (Source.eval H answer c) condition w).bind fun q =>
          if q.1 then inner yes q.2 else Source.runOptional inner no q.2 := by
  refine (slot_clean H answer bound hc he _).bind fun p => ?_
  refine (hfit.node yes List.mem_cons_self hyes).bind fun yesNode => ?_
  refine (optional_clean hfit (List.subset_cons_self yes _) hno).bind fun noNode => ?_
  refine .pure fun hnoNode hyesNode hp w ρ w' hag hT => ?_
  obtain ⟨⟨b, w₁⟩, htest, hT⟩ := bind_eq_some_iff.1 hT
  obtain ⟨ρ₁, hprepare, ρ₂, htest', hag₂⟩ := hp.test hag htest
  rw [runOption, run_wrap, hprepare, bind_some, run_conditional,
    htest', bind_some]
  cases b with
  | true => exact hyesNode w₁ ρ₂ w' hag₂ hT
  | false => exact hnoNode w₁ ρ₂ w' hag₂ hT

theorem does_loop (hv : c.Evaluates H answer bound h v.expr (ev condition.expr))
    (hempty : h.isEmpty = true) (hbody : c.Does H answer bound node (inner body))
    (testAfter : Bool) : c.Does H answer bound (some (.ofKind (.loop v node testAfter))) fun w =>
      (if testAfter then inner body w else some w).bind
        (iterate (Source.test ev condition) (inner body) bound) := by
  intro w ρ w' hag hT
  obtain ⟨w₁, hw₁, hT⟩ := bind_eq_some_iff.1 hT
  rw [runOption, run_loop]
  obtain ⟨ρ₁, hρ₁, hag₁⟩ : ∃ ρ₁, (if testAfter then runOption H answer bound node ρ
      else some ρ) = some ρ₁ ∧ c.Agrees w₁ ρ₁ := by
    cases testAfter with
    | true => exact hbody w ρ w₁ hag hw₁
    | false =>
      cases hw₁
      exact ⟨ρ, rfl, hag⟩
  rw [hρ₁, bind_some]
  refine iterate_related (R := c.Agrees) (A := c.Agrees) (fun w ρ b w' hag htest => ?_)
    (fun w ρ w' _ hag hw _ => hbody w ρ w' hag hw) hag₁ hT
  obtain ⟨ρ₀, hprepare, ρ₂, htest', hag₂⟩ := hv.test hag htest
  rw [prepare_of_isEmpty H answer bound hempty] at hprepare
  cases hprepare
  exact ⟨ρ₂, htest', hag₂⟩

section SteppedLoop

variable {flag : String} {h : Hoisted} {e : Expr} {condition : Fragment} {ev : Source.Evaluator}

def evaluation (flag : String) (h : Hoisted) (e : Expr) : Node :=
  .sequence h.vars (h.nodes ++ [.code [.eval (.storeSet (.ident flag) e)]])

/-- The variable holds the value of the condition, if it has one, and its effects are made. -/
def Flagged (c : LowerContext) (flag : String) (test : World StoreId → Option (Bool × World StoreId))
    (w : World StoreId) (ρ : World String) : Prop :=
  ∀ b w', test w = some (b, w') → ρ.vars flag = some (.bool b) ∧ c.Agrees w' ρ

theorem run_evaluation (hflag : ¬ c.IsHandle flag)
    (hv : c.Evaluates H answer bound h e (ev condition.expr)) (hag : c.Agrees w ρ)
    (hq : Source.test ev condition w = some q) :
    ∃ ρ', run H answer bound (evaluation flag h e) ρ = some ρ' ∧
      c.Flagged flag (Source.test ev condition) w ρ' := by
  obtain ⟨⟨v, w₁⟩, hv', hrest⟩ := bind_eq_some_iff.1 hq
  obtain ⟨b, hb, hpair⟩ := bind_eq_some_iff.1 hrest
  obtain ⟨ρ₁, hprepare, ρ₂, heval, hag₂⟩ := hv w ρ _ hag hv'
  refine ⟨ρ₂.set flag v, ?_, fun b' w' htest => ?_⟩
  · rw [evaluation, run_sequence]
    have hcode : runList H answer bound [.code [.eval (.storeSet (.ident flag) e)]] ρ₁ =
        some (ρ₂.set flag v) := by
      rw [runList_singleton, Node.code, Node.ofKind, run, runKind,
        execList_singleton]
      exact exec_setVar heval
    obtain ⟨ρ₀, hstart, hnodes⟩ := bind_eq_some_iff.1 hprepare
    rw [hstart, bind_some, runList_append, hnodes, bind_some, hcode]
  · rw [hq] at htest
    cases hpair
    cases htest
    refine ⟨?_, hag₂.set_of_not_isHandle hflag v⟩
    rw [World.vars_set_self, Value.eq_bool_of_asBool hb]

variable {body : StmtId} {node : Option Node}

/-- An iteration ends with the evaluation of the condition. -/
theorem run_iteration (hflag : ¬ c.IsHandle flag)
    (hv : c.Evaluates H answer bound h e (ev condition.expr))
    (hbody : c.Does H answer bound node (inner body)) (hag : c.Agrees w ρ)
    (hw₁ : inner body w = some w₁) (hq : Source.test ev condition w₁ = some q) :
    ∃ ρ', run H answer bound (.sequence [] (node.toList ++ [evaluation flag h e])) ρ =
      some ρ' ∧ c.Flagged flag (Source.test ev condition) w₁ ρ' := by
  obtain ⟨ρ₁, hrun, hag₁⟩ := hbody w ρ w₁ hag hw₁
  obtain ⟨ρ', hρ', hflagged⟩ := run_evaluation hflag hv hag₁ hq
  refine ⟨ρ', ?_, hflagged⟩
  rw [run_sequence, start, bind_some, runList_append]
  have hnode : runList H answer bound node.toList ρ = some ρ₁ := by
    cases node with
    | none => rwa [toList_none, runList]
    | some n => rwa [toList_some, runList_singleton]
  rw [hnode, bind_some, runList_singleton, hρ']

theorem does_steppedLoop (hflag : ¬ c.IsHandle flag)
    (hv : c.Evaluates H answer bound h e (ev condition.expr))
    (hbody : c.Does H answer bound node (inner body)) (testAfter : Bool) :
    c.Does H answer bound (some (steppedLoop flag h e node testAfter)) fun w =>
      (if testAfter then inner body w else some w).bind
        (iterate (Source.test ev condition) (inner body) bound) := by
  intro w ρ w' hag hT
  obtain ⟨w₁, hw₁, hT⟩ := bind_eq_some_iff.1 hT
  obtain ⟨q, hq⟩ := test_of_iterate hT
  -- The variable is started, and set before the first test.
  have hag₀ := hag.set_of_not_isHandle hflag (H.start (ρ.vars flag))
  have hloop : ∀ ρ₁, c.Flagged flag (Source.test ev condition) w₁ ρ₁ →
      ∃ ρ', iterate (test H bound (.storeGet (.ident flag)))
        (runOption H answer bound
          (some (.sequence [] (node.toList ++ [evaluation flag h e])))) bound ρ₁ = some ρ' ∧
        c.Agrees w' ρ' := by
    intro ρ₁ hflagged
    refine iterate_related (R := c.Flagged flag (Source.test ev condition)) (A := c.Agrees)
      (fun w ρ b w' hR htest => ?_) (fun w ρ w' q hag hw hq => ?_) hflagged hT
    · obtain ⟨hb, hag⟩ := hR b w' htest
      exact ⟨ρ, test_eq_some H bound (eval_getVar hb) rfl, hag⟩
    · rw [runOption]
      exact run_iteration hflag hv hbody hag hw hq
  rw [runOption, steppedLoop, run_sequence, start]
  dsimp only
  rw [start, bind_some]
  cases testAfter with
  | true =>
    obtain ⟨ρ₁, hρ₁, hflagged⟩ := run_iteration hflag hv hbody hag₀ hw₁ hq
    obtain ⟨ρ', hρ', hag'⟩ := hloop ρ₁ hflagged
    refine ⟨ρ', ?_, hag'⟩
    rw [if_pos rfl, runList_singleton, run_loop, if_pos rfl, runOption]
    exact bind_eq_some_iff.2 ⟨ρ₁, hρ₁, hρ'⟩
  | false =>
    cases hw₁
    obtain ⟨ρ₁, hρ₁, hflagged⟩ := run_evaluation hflag hv hag₀ hq
    obtain ⟨ρ', hρ', hag'⟩ := hloop ρ₁ hflagged
    refine ⟨ρ', ?_, hag'⟩
    rw [if_neg (by decide), runList]
    refine bind_eq_some_iff.2 ⟨ρ₁, hρ₁, ?_⟩
    rw [runList_singleton, run_loop, if_neg (by decide), bind_some]
    exact hρ'

end SteppedLoop

theorem loop_clean (hn : c.PlainNames)
    (he : c.onStores false condition.expr = true) (hbody : c.activity.isUnchained body = true)
    (hfit : c.Fitting H answer bound lower inner [body]) (testAfter : Bool) :
    Clean (loop c lower condition body testAfter) fun node =>
      c.Does H answer bound (some node) fun w =>
        (if testAfter then inner body w else some w).bind
          (iterate (Source.test (Source.eval H answer c) condition) (inner body) bound) := by
  refine (slot_clean H answer bound hn.handlesApart he _).bind fun p => ?_
  refine (hfit.node body List.mem_cons_self hbody).bind fun node => ?_
  split
  case isTrue hempty => exact .pure fun hnode hp => does_loop hp hempty hnode testAfter
  case isFalse =>
    refine (Clean.tempVar "c").bind fun flag => .pure fun hflag hnode hp => ?_
    obtain ⟨n, rfl⟩ := hflag
    have hflag : ¬ c.IsHandle (tempName "c" n) := fun ⟨id, hx⟩ => hn.ne_tempName hx "c" n rfl
    exact does_steppedLoop hflag hp hnode testAfter

def CaseFits (c : LowerContext) (H : Runtime) (answer : Answer) (bound : Nat)
    (inner : StmtId → World StoreId → Option (World StoreId)) (case : SwitchCase) :
    CaseNode → Prop
  | .mk key body => c.Evaluates H answer bound {} key.expr (Source.eval H answer c case.key.expr) ∧
    c.Does H answer bound body (inner case.body)

theorem switchCase_clean (hc : c.HandlesApart) (he : c.onStores false case.key.expr = true)
    (hbody : c.activity.isUnchained case.body = true) (hmem : case.body ∈ ms)
    (hfit : c.Fitting H answer bound lower inner ms) (ty : Option TypeName) :
    Clean (switchCase c lower ty case) (c.CaseFits H answer bound inner case) := by
  have hkey := (restricted_clean H answer bound hc he ty .switchCase).mono fun _ hv =>
    hv.of_le (Source.faithful_of_orderly (.of_onStores he) (readOnly he).orderly)
  refine hkey.bind fun key => (hfit.node case.body hmem hbody).bind fun body => ?_
  exact .pure fun hbody hkey => ⟨hkey, hbody⟩

/-- Cases are tried in the same order, and the same one is run. -/
theorem runCases_agrees (hcases : List.Forall₂ (c.CaseFits H answer bound inner) cases nodes)
    (hfallback : c.Does H answer bound node (Source.runOptional inner fallback))
    (hag : c.Agrees w ρ)
    (hT : Source.runCases H (Source.eval H answer c) inner v fallback cases w = some w') :
    ∃ ρ', runCases H answer bound v nodes (runOption H answer bound node) ρ =
      some ρ' ∧ c.Agrees w' ρ' := by
  induction hcases generalizing w ρ with
  | nil =>
    rw [runCases]
    exact hfallback w ρ w' hag hT
  | @cons case caseNode cases nodes hcase _ ih =>
    obtain ⟨key, body⟩ := caseNode
    obtain ⟨hkey, hbody⟩ := hcase
    obtain ⟨⟨k, w₁⟩, hk, hT⟩ := bind_eq_some_iff.1 hT
    obtain ⟨r, hr, hT⟩ := bind_eq_some_iff.1 hT
    obtain ⟨b, hb, hT⟩ := bind_eq_some_iff.1 hT
    obtain ⟨ρ₁, hprepare, ρ₂, heval, hag₂⟩ := hkey w ρ _ hag hk
    rw [prepare_of_isEmpty H answer bound rfl] at hprepare
    cases hprepare
    simp only [runCases, heval, bind_eq_bind, bind_some, hr, hb]
    cases b with
    | true => exact hbody w₁ ρ₂ w' hag₂ hT
    | false => exact ih hag₂ hT

theorem switch_clean (hc : c.HandlesApart) (he : c.onStores false subject.expr = true)
    (hcases : ∀ case ∈ cases, c.onStores false case.key.expr = true ∧
      c.activity.isUnchained case.body = true)
    (hfallback : fallback.all c.activity.isUnchained = true)
    (hfit : c.Fitting H answer bound lower inner (cases.map (·.body) ++ fallback.toList)) :
    Clean (do
        let (v, h) ← value c subject none
        let cases ← cases.mapM (switchCase c lower v.ty)
        let fallback ← optional lower fallback
        return some (h.wrap (.ofKind (.switch v cases fallback)))) fun node =>
      c.Does H answer bound node fun w =>
        (Source.eval H answer c subject.expr w).bind fun q =>
          Source.runCases H (Source.eval H answer c) inner q.1 fallback cases q.2 := by
  refine (slot_clean H answer bound hc he _).bind fun p => ?_
  have hmapM : Clean (cases.mapM (switchCase c lower p.1.ty))
      (List.Forall₂ (c.CaseFits H answer bound inner) cases) := by
    refine .mapM fun case hcase => switchCase_clean hc (hcases case hcase).1 (hcases case hcase).2
      (List.mem_append_left _ (List.mem_map_of_mem hcase)) hfit _
  refine hmapM.bind fun nodes => ?_
  refine (optional_clean hfit (List.subset_append_right _ _) hfallback).bind fun node => ?_
  refine .pure fun hnode hnodes hp w ρ w' hag hT => ?_
  obtain ⟨⟨v, w₁⟩, hv, hT⟩ := bind_eq_some_iff.1 hT
  obtain ⟨ρ₁, hprepare, ρ₂, heval, hag₂⟩ := hp w ρ _ hag hv
  rw [runOption, run_wrap, hprepare, bind_some, run_switch, heval,
    bind_some]
  exact runCases_agrees hnodes hnode hag₂ hT

end LowerContext

end Workflow
