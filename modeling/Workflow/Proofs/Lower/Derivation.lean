import Workflow.Proofs.Lower.Staging
import Workflow.Proofs.Scope.Locals

/-!
# Derivations of staging

What staging makes of a piece of code, as a relation with one rule for each way to stage one. The
parts of an expression are staged one expression deeper, from left to right. Every staging pass that
succeeds has a derivation, so what holds along all derivations holds of what is staged.
-/

namespace Workflow

open Stage Lower LowerContext
open Option (isSome_some isSome_none)

namespace Stage

variable {s t : StageState}

theorem bind_pure_eq_ok {α β : Type} {x : Stage α} {f : α → β} {b : β}
    (h : (x >>= fun a => pure (f a)) s = .ok b t) : ∃ a, x s = .ok a t ∧ b = f a := by
  obtain ⟨a, _, ha, h⟩ := bind_eq_ok.1 h
  obtain ⟨rfl, rfl⟩ := pure_eq_ok.1 h
  exact ⟨a, ha, rfl⟩

theorem bind_bind_pure_eq_ok {α β γ : Type} {x : Stage α} {y : Stage β} {f : α → β → γ} {c : γ}
    (h : (x >>= fun a => y >>= fun b => pure (f a b)) s = .ok c t) :
    ∃ a s₁ b, x s = .ok a s₁ ∧ y s₁ = .ok b t ∧ c = f a b := by
  obtain ⟨a, s₁, ha, h⟩ := bind_eq_ok.1 h
  obtain ⟨b, hb, rfl⟩ := bind_pure_eq_ok h
  exact ⟨a, s₁, b, ha, hb, rfl⟩

theorem discard_ok {α : Type} {x : Stage α}
    (h : (x >>= fun _ => pure ()) s = .ok u t) : ∃ a, x s = .ok a t := by
  obtain ⟨a, _, ha, h⟩ := bind_eq_ok.1 h
  obtain ⟨-, rfl⟩ := pure_eq_ok.1 h
  exact ⟨a, ha⟩

section PlainCalls

variable {p : PlainArgs} {o : Origin} {discard : Bool} {f e : Expr}

theorem plainCall_of_before (hp : p.before = []) (h : plainCall o discard f p s = .ok e t) :
    e = .call o f p.args := by
  unfold plainCall at h
  rw [if_pos (by rw [hp]; rfl)] at h
  exact (pure_eq_ok.1 h).1.symm

theorem plainCall_ok (h : plainCall o discard f p s = .ok e t) : Emits s t [] ∧ t.scope = s.scope ∧
      (e = .call o f p.args ∨
        e = .block {} (p.before ++ [.eval (.call o f p.args)] ++ p.after) none ∨
        ∃ n, e = .block {} (p.before ++ [.localVar (tempName "v" n) .inferred
          (some (.call o f p.args))] ++ p.after) (some (.ident (tempName "v" n)))) := by
  unfold plainCall at h
  split at h
  · obtain ⟨rfl, rfl⟩ := pure_eq_ok.1 h
    exact ⟨.refl s, rfl, .inl rfl⟩
  · split at h
    · obtain ⟨rfl, rfl⟩ := pure_eq_ok.1 h
      exact ⟨.refl s, rfl, .inr (.inl rfl)⟩
    · cases h
      exact ⟨.of_steps_eq rfl rfl (Nat.le_succ _) id, rfl, .inr (.inr ⟨_, rfl⟩)⟩

end PlainCalls

end Stage

/-- A piece of code as it is written, and what is made of it. -/
inductive Piece where
  | expr (e e' : Expr)
  | optional (v v' : Option Expr)
  | values (args as : List Argument)
  /-- Arguments of a scheduled call from a position on. -/
  | inputs (attr : SchedulingAttribute) (i : Nat) (args : List Argument) (as : List NodeArgument)
  | plain (args : List Argument) (p : PlainArgs)
  /-- A scheduled call, with the read of its result. -/
  | send (attr : SchedulingAttribute) (result : CallResult) (o : Origin) (f : Expr)
    (args : List Argument) (read : Option Expr)
  /-- A plain call. -/
  | call (discard : Bool) (o : Origin) (f : Expr) (args : List Argument) (e' : Expr)
  | stmt (c c' : CodeStmt)
  | body (b b' : List CodeStmt)
  | branch (n n' : Option CodeStmt)

namespace Piece

def source : Piece → List Expr
  | .expr e _ => e.nodes
  | .optional v _ => Expr.nodesOpt v
  | .values args _ | .inputs _ _ args _ | .plain args _ => Argument.nodesList args
  | .send _ _ o f args _ | .call _ o f args _ => (Expr.call o f args).nodes
  | .stmt c _ => c.nodes
  | .body b _ => CodeStmt.nodesList b
  | .branch n _ => CodeStmt.nodesOpt n

def produced : Piece → List Expr
  | .expr _ e | .call _ _ _ _ e => e.nodes
  | .optional _ v => Expr.nodesOpt v
  | .values _ as => Argument.nodesList as
  | .inputs _ _ _ as => (as.flatMap (·.value.slots)).flatMap Expr.nodes
  | .plain _ p =>
    Argument.nodesList p.args ++ (CodeStmt.nodesList p.before ++ CodeStmt.nodesList p.after)
  | .send _ _ _ _ _ read => (read.getD .null).nodes
  | .stmt _ c => c.nodes
  | .body _ b => CodeStmt.nodesList b
  | .branch _ n => CodeStmt.nodesOpt n

/-- A piece is left as it is; a scheduled call never is. -/
def Same : Piece → Prop
  | .expr e e' => e' = e
  | .optional v v' => v' = v
  | .values args as => as = args
  | .inputs .. => True
  | .plain args p => p.args = args ∧ p.before = []
  | .send .. => False
  | .call _ o f args e' => e' = .call o f args
  | .stmt c c' => c' = c
  | .body b b' => b' = b
  | .branch n n' => n' = n

end Piece

/-- A piece is staged from one state to another and adds some steps. -/
inductive Staging : Site → Piece → List Step → StageState → StageState → Prop
  | literal : Staging site (.expr (.literal o v) (.literal o v)) [] s s
  | read {site : Site} (hstore : site.context.storeFor? (.name o x) = some store)
      (hlambda : site.inLambda = false) :
      Staging site (.expr (.name o x) ((Expr.storeGet store.handle).withSpan o.span)) [] s s
  | name {site : Site} (hnone : site.context.storeFor? (.name o x) = none) :
      Staging site (.expr (.name o x) (.name o x)) [] s (s.noted site.deeper o x)
  | member {site : Site} (he : Staging site.deeper (.expr e v) a s t) :
      Staging site (.expr (.member o e x) (.member o v x)) a s t
  | scheduled {site : Site} {read : Option Expr}
      (hattr : site.context.semantics.scheduling? o.id = some attr)
      (hsend : Staging site.deeper (.send attr .temp o f args read) a s t) :
      Staging site (.expr (.call o f args) (read.getD .null)) a s t
  | called {site : Site} (hcall : Staging site.deeper (.call false o f args e') a s t) :
      Staging site (.expr (.call o f args) e') a s t
  | create {site : Site} (hargs : Staging site.deeper (.values args as) a s t) :
      Staging site (.expr (.create o ty args) (.create o ty as)) a s t
  | step {site : Site} (hop : op.stepOp = some binary)
      (hstore : site.context.storeFor? e = some store) (hlambda : site.inLambda = false) :
      Staging site (.expr (.unary o op e) (storeStep op binary store)) [] s s
  | unary {site : Site} (hplain : op.stepOp = none ∨ site.context.storeFor? e = none)
      (he : Staging site.deeper (.expr e v) a s t) :
      Staging site (.expr (.unary o op e) (.unary o op v)) a s t
  | operator {site : Site}
      (hskip : (op.isShortCircuit && site.canSchedule && site.context.schedules r) = true)
      (hl : Staging site.deeper (.expr l l') a s s₁) (hr : Staging site.deeper (.expr r r') b s₂ s₃)
      (hlt : s₁.lower.counter < n) (hle : n ≤ s₂.lower.counter) (hlower : t.lower = s₃.lower)
      (hscope : s₂.scope = s₁.scope) (hscope' : t.scope = s₃.scope)
      (hem : Emits s t (a ++ operatorSteps op l' (resultName n) (heldName m) ty heldType b r')) :
      Staging site (.expr (.binary o op l r) (getVar (resultName n)))
        (a ++ operatorSteps op l' (resultName n) (heldName m) ty heldType b r') s t
  | binary {site : Site}
      (hplain : (op.isShortCircuit && site.canSchedule && site.context.schedules r) = false)
      (hl : Staging site.deeper (.expr l l') a s s₁) (hr : Staging site.deeper (.expr r r') b s₁ t) :
      Staging site (.expr (.binary o op l r) (.binary o op l' r')) (a ++ b) s t
  | choice {site : Site}
      (hskip : (site.canSchedule && (site.context.schedules y || site.context.schedules n)) = true)
      (he : Staging site.deeper (.expr e test) a s s₁)
      (hy : Staging site.deeper (.expr y y') b s₂ s₃) (hn : Staging site.deeper (.expr n n') d s₄ s₅)
      (hlt : s₁.lower.counter < i) (hle : i ≤ s₂.lower.counter)
      (hle' : s₃.lower.counter ≤ s₄.lower.counter) (hlower : t.lower = s₅.lower)
      (hscope : s₂.scope = s₁.scope) (hscope' : s₄.scope = s₃.scope)
      (hscope'' : t.scope = s₅.scope)
      (hem : Emits s t (a ++ choiceSteps test (resultName i) b y' d n')) :
      Staging site (.expr (.conditional o e y n) (getVar (resultName i)))
        (a ++ choiceSteps test (resultName i) b y' d n') s t
  | conditional {site : Site}
      (hplain : (site.canSchedule && (site.context.schedules y || site.context.schedules n)) = false)
      (he : Staging site.deeper (.expr e test) a s s₁)
      (hy : Staging site.deeper (.expr y y') b s₁ s₂) (hn : Staging site.deeper (.expr n n') d s₂ t) :
      Staging site (.expr (.conditional o e y n) (.conditional o test y' n')) (a ++ (b ++ d)) s t
  | write {site : Site} (hstore : site.context.storeFor? target = some store)
      (hlambda : site.inLambda = false) (he : Staging site.deeper (.expr e v) a s t) :
      Staging site (.expr (.assign o op target e) (storeAssign o op store v)) a s t
  | assign {site : Site} (hnone : site.context.storeFor? target = none)
      (ht : Staging site.deeper (.expr target x) a s s₁)
      (he : Staging site.deeper (.expr e v) b s₁ t) :
      Staging site (.expr (.assign o op target e) (.assign o op x v)) (a ++ b) s t
  | lambda {site : Site} (he : Staging (site.deeper.enterLambda params) (.expr e v) a s t) :
      Staging site (.expr (.lambda o params e) (.lambda o params v)) a s t
  | cast {site : Site} (he : Staging site.deeper (.expr e v) a s t) :
      Staging site (.expr (.cast o ty e) (.cast o ty v)) a s t
  | index {site : Site} (he : Staging site.deeper (.expr e v) a s s₁)
      (hi : Staging site.deeper (.expr i j) b s₁ t) :
      Staging site (.expr (.index o e i) (.index o v j)) (a ++ b) s t
  | block {site : Site} {body body' : List CodeStmt}
      (hbody : Staging site.deeper.nest (.body body body') a s s₁)
      (hvalue : Staging (site.deeper.nest.afterAll body) (.optional v v') b s₁ t) :
      Staging site (.expr (.block o body v) (.block o body' v')) (a ++ b) s t
  | absent : Staging site (.optional none none) [] s s
  | present (he : Staging site (.expr e v) a s t) : Staging site (.optional (some e) (some v)) a s t
  | valuesNil : Staging site (.values [] []) [] s s
  | valuesCons (he : Staging site (.expr e v) a s s₁)
      (hrest : Staging site (.values rest others) b s₁ t) :
      Staging site (.values (.mk d e :: rest) (.mk d v :: others)) (a ++ b) s t
  | inputsNil : Staging site (.inputs attr i [] []) [] s s
  | input (he : Staging site (.expr e v) a s s₁)
      (hrest : Staging site (.inputs attr (i + 1) rest others) b s₁ t)
      (hasked : ∀ p ∈ attr.parameters[i]?, p.direction = .input) :
      Staging site (.inputs attr i (.mk .input e :: rest) ({
        name := argumentName attr i, direction := .input
        value := .value { ty := argumentType? attr i, expr := v } } :: others)) (a ++ b) s t
  | location {site : Site} (hd : d ≠ .input) (hstore : site.context.namedStore? e = some store)
      (hhandle : loc.handle = store.handle) (hem : Emits s s₁ []) (hscope : s₁.scope = s.scope)
      (hrest : Staging site (.inputs attr (i + 1) rest others) a s₁ t)
      (hasked : ∀ p ∈ attr.parameters[i]?, p.direction = d) :
      Staging site (.inputs attr i (.mk d e :: rest) ({
        name := argumentName attr i, direction := d, value := .location loc } :: others)) a s t
  | plainNil : Staging site (.plain [] {}) [] s s
  | copied {site : Site} (hd : d ≠ .input) (hstore : site.context.namedStore? e = some store)
      (hlambda : site.inLambda = false) (hem : Emits s s₁ []) (hscope : s₁.scope = s.scope)
      (hrest : Staging site (.plain rest p) a s₁ t) :
      Staging site (.plain (.mk d e :: rest) {
        args := .mk d (.ident (tempName "v" n)) :: p.args
        before := .localVar (tempName "v" n) ty
          (if d == .byRef then some (Expr.storeGet store.handle) else none) :: p.before
        after := .eval (.storeSet store.handle (.ident (tempName "v" n))) :: p.after }) a s t
  | passed {site : Site} (hnone : d ≠ .input → site.context.namedStore? e = none)
      (he : Staging site (.expr e v) a s s₁) (hrest : Staging site (.plain rest p) b s₁ t) :
      Staging site (.plain (.mk d e :: rest) { p with args := .mk d v :: p.args }) (a ++ b) s t
  | send {site : Site} {location : Option Location} {read : Option Expr}
      (hattr : site.context.semantics.scheduling? o.id = some attr)
      (hinto : ∀ store, result = .into store → store ∈ site.context.activity.stores)
      (hcan : site.canSchedule = true)
      (hargs : Staging site (.inputs attr 0 args as) a s s₁)
      (hresult : resultLocation site attr result s₁ = .ok (location, read) s₂)
      (hem : Emits s₂ t [.node (invokeNode attr as location)])
      (hcounter : t.lower.counter = s₂.lower.counter) (hscope : t.scope = s₂.scope) :
      Staging site (.send attr result o f args read) (a ++ [.node (invokeNode attr as location)]) s t
  | call {site : Site} {discard : Bool} (hnone : site.context.semantics.scheduling? o.id = none)
      (hf : Staging site (.expr f f') a s s₁) (hargs : Staging site (.plain args p) b s₁ s₂)
      (hcall : plainCall o discard f' p s₂ = .ok e' t) :
      Staging site (.call discard o f args e') (a ++ b) s t
  | evalCall (hcall : Staging site (.call true o f args v) a s t) :
      Staging site (.stmt (.eval (.call o f args)) (.eval v)) a s t
  | eval (hne : ∀ o f args, e ≠ .call o f args) (he : Staging site (.expr e v) a s t) :
      Staging site (.stmt (.eval e) (.eval v)) a s t
  | declare (hinit : Staging site (.optional init v) a s t) :
      Staging site (.stmt (.declare x ty init span) (.declare x ty v span)) a s t
  | blockStmt {site : Site} {body body' : List CodeStmt} (hcan : site.canSchedule = false)
      (hbody : Staging site (.body body body') a s t) :
      Staging site (.stmt (.block body) (.block body')) a s t
  | branchStmt {site : Site} (he : Staging site (.expr e test) a s s₁)
      (hy : Staging site.nest (.stmt y y') b s₁ s₂) (hn : Staging site.nest (.branch n n') d s₂ t) :
      Staging site (.stmt (.branch e y n) (.branch test y' n')) (a ++ (b ++ d)) s t
  | loop {site : Site} {body body' : CodeStmt} (hcan : site.canSchedule = false)
      (he : Staging site (.expr e test) a s s₁)
      (hbody : Staging site.nest (.stmt body body') b s₁ t) :
      Staging site (.stmt (.loop e body) (.loop test body')) (a ++ b) s t
  | bodyNil : Staging site (.body [] []) [] s s
  | bodyCons {site : Site} {stmt stmt' : CodeStmt} (hcan : site.canSchedule = false)
      (hstmt : Staging site (.stmt stmt stmt') a s s₁)
      (hrest : Staging (site.after stmt) (.body rest rest') b s₁ t) :
      Staging site (.body (stmt :: rest) (stmt' :: rest')) (a ++ b) s t
  | branchNone : Staging site (.branch none none) [] s s
  | branchSome {site : Site} {stmt stmt' : CodeStmt} (hcan : site.canSchedule = false)
      (hstmt : Staging site (.stmt stmt stmt') a s t) :
      Staging site (.branch (some stmt) (some stmt')) a s t

theorem Staging.emits (h : Staging site p a s t) : Emits s t a := by
  induction h with
  | literal | read | step | absent | valuesNil | inputsNil | plainNil | bodyNil | branchNone =>
    exact .refl _
  | name => exact .noted ..
  | operator | choice => assumption
  | conditional _ _ _ _ he hy hn | branchStmt _ _ _ he hy hn => exact he.trans (hy.trans hn)
  | location _ _ _ hem _ _ _ ih | copied _ _ _ hem _ _ ih => exact hem.trans ih
  | send _ _ _ _ hresult hem _ _ ih => exact ih.trans ((resultLocation_ok hresult).1.trans hem)
  | call _ _ _ hcall hf hargs => simpa using (hf.trans hargs).trans (plainCall_ok hcall).1
  | binary _ _ _ ih ih' | assign _ _ _ ih ih' | index _ _ ih ih' | block _ _ ih ih'
  | valuesCons _ _ ih ih' | input _ _ _ ih ih' | passed _ _ _ ih ih' | loop _ _ _ ih ih'
  | bodyCons _ _ _ ih ih' => exact ih.trans ih'
  | _ => assumption

namespace Stage

theorem of_checkDirection {α : Type} {f : Unit → Stage α} {a : α}
    (h : (checkDirection attr i d span >>= f) s = .ok a t) :
    (∀ p ∈ attr.parameters[i]?, p.direction = d) ∧ f () s = .ok a t := by
  obtain ⟨_, r, hd, h⟩ := bind_eq_ok.1 h
  unfold checkDirection at hd
  cases hp : attr.parameters[i]? with
  | none =>
    simp only [hp] at hd
    obtain ⟨_, rfl⟩ := pure_eq_ok.1 hd
    exact ⟨by rintro _ ⟨⟩, h⟩
  | some p =>
    simp only [hp] at hd
    by_cases hne : (d != p.direction) = true
    · rw [if_pos hne] at hd
      exact absurd hd fail_ne_ok
    · rw [if_neg hne] at hd
      obtain ⟨_, rfl⟩ := pure_eq_ok.1 hd
      refine ⟨?_, h⟩
      rintro _ ⟨⟩
      exact (Decidable.not_not.1 (mt bne_iff_ne.2 hne)).symm

theorem argumentLocation_ok {site : Site} {attr : SchedulingAttribute} {i : Nat} {d : Direction}
    {e : Expr} {span : Span} {s t : StageState} {value : ArgumentValue}
    (h : argumentLocation site attr i d e span s = .ok value t) :
    ∃ store loc, site.context.namedStore? e = some store ∧ value = .location loc ∧
      loc.handle = store.handle ∧ Emits s t [] ∧ t.scope = s.scope := by
  unfold argumentLocation at h
  cases hstore : site.context.namedStore? e with
  | none =>
    simp only [hstore] at h
    exact absurd h fail_ne_ok
  | some store =>
    simp only [hstore] at h
    obtain ⟨loc, hloc, rfl⟩ := bind_pure_eq_ok h
    obtain ⟨hhandle, hem, hscope⟩ := location_ok hloc
    exact ⟨store, loc, rfl, rfl, hhandle, hem, hscope⟩

theorem exists_send (hinto : ∀ store, result = .into store → store ∈ site.context.activity.stores)
    (hargs : ∀ {as s₁}, scheduledArgs site attr span 0 args s = .ok as s₁ →
      ∃ a, Staging site (.inputs attr 0 args as) a s s₁)
    (h : schedule site o attr result (scheduledArgs site attr span 0 args) s = .ok r t)
    (hattr : site.context.semantics.scheduling? o.id = some attr) :
    ∃ a, Staging site (.send attr result o f args r) a s t := by
  obtain ⟨hcan, as, location, s₁, s₂, has, hresult, hem, hcounter, hscope⟩ := schedule_ok h
  obtain ⟨a, has⟩ := hargs has
  exact ⟨_, .send hattr hinto hcan has hresult hem hcounter hscope⟩

mutual
theorem exists_expr (e : Expr) (h : expr site e s = .ok e' t) :
    ∃ a, Staging site (.expr e e') a s t := by
  cases e with (rw [expr] at h; replace h := of_descend h)
  | literal o v =>
    obtain ⟨rfl, rfl⟩ := pure_eq_ok.1 h
    exact ⟨_, .literal⟩
  | name o x =>
    cases hstore : site.context.storeFor? (.name o x) with
    | some store =>
      simp only [Site.context_deeper, hstore] at h
      obtain ⟨hlambda, h⟩ := of_checkLambda h
      obtain ⟨rfl, rfl⟩ := pure_eq_ok.1 h
      exact ⟨_, .read hstore hlambda⟩
    | none =>
      simp only [Site.context_deeper, hstore] at h
      obtain ⟨_, _, hnote, h⟩ := bind_eq_ok.1 h
      rw [noteLocal_eq] at hnote
      cases hnote
      obtain ⟨rfl, rfl⟩ := pure_eq_ok.1 h
      exact ⟨_, .name hstore⟩
  | member o e x =>
    obtain ⟨v, hv, rfl⟩ := bind_pure_eq_ok h
    obtain ⟨a, hv⟩ := exists_expr e hv
    exact ⟨_, .member hv⟩
  | call o f args =>
    cases hattr : site.context.semantics.scheduling? o.id with
    | some attr =>
      simp only [scheduledCall, isScheduled, Site.context_deeper, hattr, isSome_some, if_true] at h
      obtain ⟨read, hread, rfl⟩ := bind_pure_eq_ok h
      obtain ⟨a, hsend⟩ := exists_send (by rintro _ ⟨⟩) (exists_inputs args) hread hattr
      exact ⟨_, .scheduled hattr hsend⟩
    | none =>
      simp only [isScheduled, Site.context_deeper, hattr, isSome_none, reduceCtorEq, if_false] at h
      obtain ⟨f', s₁, hf, h⟩ := bind_eq_ok.1 h
      obtain ⟨p, s₂, hp, h⟩ := bind_eq_ok.1 h
      obtain ⟨a, hf⟩ := exists_expr f hf
      obtain ⟨b, hp⟩ := exists_plain args hp
      exact ⟨_, .called (.call hattr hf hp h)⟩
  | create o ty args =>
    obtain ⟨as, has, rfl⟩ := bind_pure_eq_ok h
    obtain ⟨a, has⟩ := exists_values args has
    exact ⟨_, .create has⟩
  | unary o op e =>
    have hunary : ∀ {v}, expr site.deeper e s = .ok v t →
        (op.stepOp = none ∨ site.context.storeFor? e = none) →
        ∃ a, Staging site (.expr (.unary o op e) (.unary o op v)) a s t := by
      intro v hv hplain
      obtain ⟨a, hv⟩ := exists_expr e hv
      exact ⟨_, .unary hplain hv⟩
    cases hstep : op.stepOp with
    | none =>
      simp only [Site.context_deeper, hstep] at h
      obtain ⟨v, hv, rfl⟩ := bind_pure_eq_ok h
      exact hunary hv (.inl hstep)
    | some step =>
      cases hstore : site.context.storeFor? e with
      | none =>
        simp only [Site.context_deeper, hstep, hstore] at h
        obtain ⟨v, hv, rfl⟩ := bind_pure_eq_ok h
        exact hunary hv (.inr hstore)
      | some store =>
        simp only [Site.context_deeper, hstep, hstore] at h
        obtain ⟨hlambda, h⟩ := of_checkLambda h
        obtain ⟨rfl, rfl⟩ := pure_eq_ok.1 h
        exact ⟨_, .step hstep hstore hlambda⟩
  | binary o op l r =>
    dsimp only at h
    cases hskip : op.isShortCircuit && site.deeper.canSchedule && site.deeper.context.schedules r with
    | true =>
      rw [if_pos hskip] at h
      obtain ⟨l', r', n, m, ty, heldType, s₁, s₂, s₃, hl, hr, rfl, hlt, hle, hlower, hscope, hscope',
        hem⟩ := shortCircuit_ok h
      obtain ⟨a, hl⟩ := exists_expr l hl
      obtain ⟨b, hr⟩ := exists_expr r hr
      exact ⟨_, .operator hskip hl hr hlt hle hlower hscope hscope' (hem a b hl.emits hr.emits)⟩
    | false =>
      rw [if_neg (Bool.eq_false_iff.1 hskip)] at h
      obtain ⟨l', s₁, r', hl, hr, rfl⟩ := bind_bind_pure_eq_ok h
      obtain ⟨a, hl⟩ := exists_expr l hl
      obtain ⟨b, hr⟩ := exists_expr r hr
      exact ⟨_, .binary hskip hl hr⟩
  | conditional o e y n =>
    dsimp only at h
    cases hskip : site.deeper.canSchedule &&
        (site.deeper.context.schedules y || site.deeper.context.schedules n) with
    | true =>
      rw [if_pos hskip] at h
      obtain ⟨test, y', n', i, s₁, s₂, s₃, s₄, s₅, he, hy, hn, rfl, hlt, hle, hle', hlower, hscope,
        hscope', hscope'', hem⟩ := choice_ok h
      obtain ⟨a, he⟩ := exists_expr e he
      obtain ⟨b, hy⟩ := exists_expr y hy
      obtain ⟨d, hn⟩ := exists_expr n hn
      exact ⟨_, .choice hskip he hy hn hlt hle hle' hlower hscope hscope' hscope''
        (hem a b d he.emits hy.emits hn.emits)⟩
    | false =>
      rw [if_neg (Bool.eq_false_iff.1 hskip)] at h
      obtain ⟨test, s₁, he, h⟩ := bind_eq_ok.1 h
      obtain ⟨y', s₂, n', hy, hn, rfl⟩ := bind_bind_pure_eq_ok h
      obtain ⟨a, he⟩ := exists_expr e he
      obtain ⟨b, hy⟩ := exists_expr y hy
      obtain ⟨d, hn⟩ := exists_expr n hn
      exact ⟨_, .conditional hskip he hy hn⟩
  | assign o op target e =>
    cases hstore : site.context.storeFor? target with
    | some store =>
      simp only [Site.context_deeper, hstore] at h
      obtain ⟨hlambda, h⟩ := of_checkLambda h
      obtain ⟨v, hv, rfl⟩ := bind_pure_eq_ok h
      obtain ⟨a, hv⟩ := exists_expr e hv
      exact ⟨_, .write hstore hlambda hv⟩
    | none =>
      simp only [Site.context_deeper, hstore] at h
      obtain ⟨x, s₁, v, hx, hv, rfl⟩ := bind_bind_pure_eq_ok h
      obtain ⟨a, hx⟩ := exists_expr target hx
      obtain ⟨b, hv⟩ := exists_expr e hv
      exact ⟨_, .assign hstore hx hv⟩
  | lambda o params e =>
    obtain ⟨v, hv, rfl⟩ := bind_pure_eq_ok h
    obtain ⟨a, hv⟩ := exists_expr e hv
    exact ⟨_, .lambda hv⟩
  | cast o ty e =>
    obtain ⟨v, hv, rfl⟩ := bind_pure_eq_ok h
    obtain ⟨a, hv⟩ := exists_expr e hv
    exact ⟨_, .cast hv⟩
  | index o e i =>
    obtain ⟨x, s₁, j, hx, hj, rfl⟩ := bind_bind_pure_eq_ok h
    obtain ⟨a, hx⟩ := exists_expr e hx
    obtain ⟨b, hj⟩ := exists_expr i hj
    exact ⟨_, .index hx hj⟩
  | block o body value =>
    obtain ⟨body', s₁, value', hb, hv, rfl⟩ := bind_bind_pure_eq_ok h
    obtain ⟨a, hb⟩ := exists_body body (Site.canSchedule_nest _) hb
    obtain ⟨b, hv⟩ := exists_optional value hv
    exact ⟨_, .block hb hv⟩
termination_by structural e

theorem exists_optional (v : Option Expr) (h : optionalExpr site v s = .ok v' t) :
    ∃ a, Staging site (.optional v v') a s t := by
  cases v with rw [optionalExpr] at h
  | none =>
    obtain ⟨rfl, rfl⟩ := pure_eq_ok.1 h
    exact ⟨_, .absent⟩
  | some e =>
    obtain ⟨e', he, rfl⟩ := map_eq_ok.1 h
    obtain ⟨a, he⟩ := exists_expr e he
    exact ⟨_, .present he⟩
termination_by structural v

theorem exists_values (args : List Argument) (h : valueArgs site args s = .ok as t) :
    ∃ a, Staging site (.values args as) a s t := by
  cases args with
  | nil =>
    obtain ⟨rfl, rfl⟩ := pure_eq_ok.1 h
    exact ⟨_, .valuesNil⟩
  | cons arg rest =>
    obtain ⟨d, e⟩ := arg
    rw [valueArgs] at h
    obtain ⟨v, s₁, others, hv, hrest, rfl⟩ := bind_bind_pure_eq_ok h
    obtain ⟨a, hv⟩ := exists_expr e hv
    obtain ⟨b, hrest⟩ := exists_values rest hrest
    exact ⟨_, .valuesCons hv hrest⟩
termination_by structural args

theorem exists_inputs (args : List Argument) (h : scheduledArgs site attr span i args s = .ok as t) :
    ∃ a, Staging site (.inputs attr i args as) a s t := by
  cases args with
  | nil =>
    obtain ⟨rfl, rfl⟩ := pure_eq_ok.1 h
    exact ⟨_, .inputsNil⟩
  | cons arg rest =>
    obtain ⟨d, e⟩ := arg
    rw [scheduledArgs] at h
    obtain ⟨hasked, h⟩ := of_checkDirection h
    cases d
    case input =>
      obtain ⟨v, s₁, hv, h⟩ := bind_eq_ok.1 h
      obtain ⟨others, hrest, rfl⟩ := bind_pure_eq_ok h
      obtain ⟨a, hv⟩ := exists_expr e hv
      obtain ⟨b, hrest⟩ := exists_inputs rest hrest
      exact ⟨_, .input hv hrest hasked⟩
    all_goals
      obtain ⟨value, s₁, hvalue, h⟩ := bind_eq_ok.1 h
      obtain ⟨others, hrest, rfl⟩ := bind_pure_eq_ok h
      obtain ⟨store, loc, hstore, rfl, hhandle, hem, hscope⟩ := argumentLocation_ok hvalue
      obtain ⟨a, hrest⟩ := exists_inputs rest hrest
      exact ⟨_, .location (by decide) hstore hhandle hem hscope hrest hasked⟩
termination_by structural args

theorem exists_plain (args : List Argument) (h : plainArgs site args s = .ok p t) :
    ∃ a, Staging site (.plain args p) a s t := by
  cases args with
  | nil =>
    obtain ⟨rfl, rfl⟩ := pure_eq_ok.1 h
    exact ⟨_, .plainNil⟩
  | cons arg rest =>
    obtain ⟨d, e⟩ := arg
    rw [plainArgs] at h
    cases hstore : (if d == .input then none else site.context.namedStore? e) with
    | some store =>
      simp only [hstore] at h
      split at hstore
      · cases hstore
      · next hd =>
        obtain ⟨hlambda, h⟩ := of_checkLambda h
        unfold copiedStore at h
        obtain ⟨name, r₁, hname, h⟩ := bind_eq_ok.1 h
        obtain ⟨⟨n, rfl⟩, hem₁, hscope₁⟩ := tempVar_ok hname
        obtain ⟨ty, s₁, hty, h⟩ := bind_eq_ok.1 h
        obtain ⟨hem₂, hscope₂⟩ := storeType_ok hty
        obtain ⟨q, hq, rfl⟩ := bind_pure_eq_ok h
        obtain ⟨a, hq⟩ := exists_plain rest hq
        exact ⟨_, .copied (by simpa using hd) hstore hlambda (hem₁.trans hem₂)
          (hscope₂.trans hscope₁) hq⟩
    | none =>
      simp only [hstore] at h
      obtain ⟨v, s₁, q, hv, hq, rfl⟩ := bind_bind_pure_eq_ok h
      obtain ⟨a, hv⟩ := exists_expr e hv
      obtain ⟨b, hq⟩ := exists_plain rest hq
      exact ⟨_, .passed (fun hd => by rwa [if_neg (by simpa using hd)] at hstore) hv hq⟩
termination_by structural args

/-- In a nested scope nothing is scheduled, so a call there is a plain one. -/
theorem exists_stmt (stmt : CodeStmt) (hcan : site.canSchedule = false)
    (h : nestedStmt site stmt s = .ok stmt' t) : ∃ a, Staging site (.stmt stmt stmt') a s t := by
  cases stmt with
  | eval e =>
    cases e
    case call o f args =>
      rw [nestedStmt] at h
      cases hattr : site.context.semantics.scheduling? o.id with
      | some attr =>
        simp only [scheduledCall, isScheduled, hattr, isSome_some, if_true] at h
        obtain ⟨read, _, hread, -⟩ := bind_eq_ok.1 h
        rw [(schedule_ok hread).1] at hcan
        cases hcan
      | none =>
        simp only [isScheduled, hattr, isSome_none, reduceCtorEq, if_false] at h
        obtain ⟨f', s₁, hf, h⟩ := bind_eq_ok.1 h
        obtain ⟨p, s₂, hp, h⟩ := bind_eq_ok.1 h
        obtain ⟨v, hv, rfl⟩ := bind_pure_eq_ok h
        obtain ⟨a, hf⟩ := exists_expr f hf
        obtain ⟨b, hp⟩ := exists_plain args hp
        exact ⟨_, .evalCall (.call hattr hf hp hv)⟩
    all_goals
      simp only [nestedStmt] at h
      obtain ⟨v, hv, rfl⟩ := bind_pure_eq_ok h
      obtain ⟨a, hv⟩ := exists_expr _ hv
      exact ⟨_, .eval (by rintro _ _ _ ⟨⟩) hv⟩
  | declare x ty init span =>
    rw [nestedStmt] at h
    obtain ⟨v, hv, rfl⟩ := bind_pure_eq_ok h
    obtain ⟨a, hv⟩ := exists_optional init hv
    exact ⟨_, .declare hv⟩
  | block body =>
    rw [nestedStmt] at h
    obtain ⟨body', hb, rfl⟩ := bind_pure_eq_ok h
    obtain ⟨a, hb⟩ := exists_body body hcan hb
    exact ⟨_, .blockStmt hcan hb⟩
  | branch e y n =>
    rw [nestedStmt] at h
    obtain ⟨test, s₁, he, h⟩ := bind_eq_ok.1 h
    obtain ⟨y', s₂, n', hy, hn, rfl⟩ := bind_bind_pure_eq_ok h
    obtain ⟨a, he⟩ := exists_expr e he
    obtain ⟨b, hy⟩ := exists_stmt y (Site.canSchedule_nest _) hy
    obtain ⟨d, hn⟩ := exists_branch n (Site.canSchedule_nest _) hn
    exact ⟨_, .branchStmt he hy hn⟩
  | loop e body =>
    rw [nestedStmt] at h
    obtain ⟨test, s₁, body', he, hb, rfl⟩ := bind_bind_pure_eq_ok h
    obtain ⟨a, he⟩ := exists_expr e he
    obtain ⟨b, hb⟩ := exists_stmt body (Site.canSchedule_nest _) hb
    exact ⟨_, .loop hcan he hb⟩
termination_by structural stmt

theorem exists_body (body : List CodeStmt) (hcan : site.canSchedule = false)
    (h : nestedBody site body s = .ok body' t) : ∃ a, Staging site (.body body body') a s t := by
  cases body with
  | nil =>
    obtain ⟨rfl, rfl⟩ := pure_eq_ok.1 h
    exact ⟨_, .bodyNil⟩
  | cons stmt rest =>
    rw [nestedBody] at h
    obtain ⟨stmt', s₁, rest', hs, hr, rfl⟩ := bind_bind_pure_eq_ok h
    obtain ⟨a, hs⟩ := exists_stmt stmt hcan hs
    obtain ⟨b, hr⟩ := exists_body rest ((Site.canSchedule_after _ stmt).trans hcan) hr
    exact ⟨_, .bodyCons hcan hs hr⟩
termination_by structural body

theorem exists_branch (n : Option CodeStmt) (hcan : site.canSchedule = false)
    (h : nestedElse site n s = .ok n' t) : ∃ a, Staging site (.branch n n') a s t := by
  cases n with rw [nestedElse] at h
  | none =>
    obtain ⟨rfl, rfl⟩ := pure_eq_ok.1 h
    exact ⟨_, .branchNone⟩
  | some stmt =>
    obtain ⟨stmt', hs, rfl⟩ := map_eq_ok.1 h
    obtain ⟨a, hs⟩ := exists_stmt stmt hcan hs
    exact ⟨_, .branchSome hcan hs⟩
termination_by structural n
end

end Stage

def StageState.pushed (s : StageState) (stmt : CodeStmt) : StageState :=
  { s with
    steps := s.steps.pushPlain stmt
    locals := match stmt with
      | .declare x .. => (x, s.steps.length) :: s.locals
      | _ => s.locals }

/-- A statement that is a scheduled call as a whole, or assigns one to a store. -/
inductive Sends (site : Site) : Expr → StageState → StageState → Prop
  | discard (hattr : site.context.semantics.scheduling? o.id = some attr)
      (h : Staging site (.send attr .discard o f args r) a s t) : Sends site (.call o f args) s t
  | into (f : Expr) (hattr : site.context.semantics.scheduling? o'.id = some attr)
      (hstore : site.context.storeFor? target = some store)
      (h : Staging site (.send attr (.into store) o' f args r) a s t) :
      Sends site (.assign o .assign target (.call o' f args)) s t

namespace Stage

variable {site : Site} {s t : StageState} {e e' : Expr} {stmt : CodeStmt} {u : Unit}

theorem exists_push (hne : ∀ o f args, e ≠ .call o f args)
    (h : (expr site e >>= fun v => pushPlain (.eval v)) s = .ok u t) :
    ∃ v a s₁, Staging site (.stmt (.eval e) (.eval v)) a s s₁ ∧ t = s₁.pushed (.eval v) := by
  obtain ⟨v, s₁, hv, h⟩ := bind_eq_ok.1 h
  cases h
  obtain ⟨a, hv⟩ := exists_expr e hv
  exact ⟨v, a, s₁, .eval hne hv, rfl⟩

theorem evalStmt_ok (h : evalStmt site e s = .ok u t) : Sends site e s t ∨
      ∃ v a s₁, Staging site (.stmt (.eval e) (.eval v)) a s s₁ ∧ t = s₁.pushed (.eval v) := by
  unfold evalStmt at h
  split at h
  case h_1 o f args =>
    cases hattr : site.context.semantics.scheduling? o.id with
    | some attr =>
      simp only [scheduledCall, isScheduled, hattr, isSome_some, if_true] at h
      obtain ⟨r, hr⟩ := discard_ok h
      obtain ⟨a, hsend⟩ := exists_send (by rintro _ ⟨⟩) (exists_inputs args) hr hattr
      exact .inl (.discard hattr hsend)
    | none =>
      simp only [isScheduled, hattr, isSome_none, reduceCtorEq, if_false] at h
      obtain ⟨f', s₁, hf, h⟩ := bind_eq_ok.1 h
      obtain ⟨p, s₂, hp, h⟩ := bind_eq_ok.1 h
      obtain ⟨v, s₃, hv, h⟩ := bind_eq_ok.1 h
      cases h
      obtain ⟨a, hf⟩ := exists_expr f hf
      obtain ⟨b, hp⟩ := exists_plain args hp
      exact .inr ⟨v, _, s₃, .evalCall (.call hattr hf hp hv), rfl⟩
  case h_2 o target o' f args =>
    cases hattr : site.context.semantics.scheduling? o'.id with
    | none =>
      simp only [isScheduled, hattr, isSome_none] at h
      exact .inr (exists_push (by rintro _ _ _ ⟨⟩) h)
    | some attr =>
      cases hstore : site.context.storeFor? target with
      | none =>
        simp only [isScheduled, hattr, hstore, isSome_some] at h
        exact .inr (exists_push (by rintro _ _ _ ⟨⟩) h)
      | some store =>
        simp only [scheduledCall, isScheduled, hattr, hstore, isSome_some] at h
        obtain ⟨r, hr⟩ := discard_ok h
        obtain ⟨a, hsend⟩ := exists_send (by
          rintro _ ⟨⟩
          exact LowerContext.storeFor?_mem hstore) (exists_inputs args) hr hattr
        exact .inl (.into f hattr hstore hsend)
  case h_3 hcall _ => exact .inr (exists_push hcall h)

/-- A statement of a fragment is a scheduled call, or what is made of it becomes pending. -/
theorem stmt_ok (h : Stage.stmt site stmt s = .ok u t) : (∃ e, stmt = .eval e ∧ Sends site e s t) ∨
      ∃ site' stmt' a s₁, (site' = site ∨ site' = site.nest) ∧
        Staging site' (.stmt stmt stmt') a s s₁ ∧ t = s₁.pushed stmt' := by
  cases stmt with
  | eval e =>
    rcases evalStmt_ok h with h | ⟨v, a, s₁, hv, rfl⟩
    · exact .inl ⟨e, rfl, h⟩
    · exact .inr ⟨site, _, a, s₁, .inl rfl, hv, rfl⟩
  | declare x ty init span =>
    rw [Stage.stmt] at h
    obtain ⟨v, s₁, hv, h⟩ := bind_eq_ok.1 h
    cases h
    obtain ⟨a, hv⟩ := exists_optional init hv
    exact .inr ⟨site, _, a, s₁, .inl rfl, .declare hv, rfl⟩
  | branch e y n =>
    rw [Stage.stmt] at h
    obtain ⟨test, s₁, he, h⟩ := bind_eq_ok.1 h
    obtain ⟨y', s₂, hy, h⟩ := bind_eq_ok.1 h
    obtain ⟨n', s₃, hn, h⟩ := bind_eq_ok.1 h
    cases h
    obtain ⟨a, he⟩ := exists_expr e he
    obtain ⟨b, hy⟩ := exists_stmt y (Site.canSchedule_nest _) hy
    obtain ⟨d, hn⟩ := exists_branch n (Site.canSchedule_nest _) hn
    exact .inr ⟨site, _, _, s₃, .inl rfl, .branchStmt he hy hn, rfl⟩
  | block | loop =>
    rw [Stage.stmt] at h
    obtain ⟨stmt', s₁, hs, h⟩ := bind_eq_ok.1 h
    cases h
    obtain ⟨a, hs⟩ := exists_stmt _ (Site.canSchedule_nest _) hs
    refine .inr ⟨site.nest, _, a, s₁, .inr rfl, hs, ?_⟩
    cases hs
    rfl

theorem initializer_ok (hstore : store ∈ site.context.activity.stores)
    (h : initializer site store e s = .ok u t) : (∃ o f args attr r a, e = .call o f args ∧
      site.context.semantics.scheduling? o.id = some attr ∧
      Staging site (.send attr (.into store) o f args r) a s t) ∨
    ∃ v a s₁, Staging site (.expr e v) a s s₁ ∧
      t = s₁.pushed (.eval (.storeSet store.handle v)) := by
  have hpush : ∀ {e}, (expr site e >>= fun v => pushPlain (.eval (.storeSet store.handle v))) s =
      .ok u t → ∃ v a s₁, Staging site (.expr e v) a s s₁ ∧
        t = s₁.pushed (.eval (.storeSet store.handle v)) := by
    intro e h
    obtain ⟨v, s₁, hv, h⟩ := bind_eq_ok.1 h
    cases h
    obtain ⟨a, hv⟩ := exists_expr e hv
    exact ⟨v, a, s₁, hv, rfl⟩
  unfold initializer at h
  split at h
  case h_1 o f args =>
    cases hattr : site.context.semantics.scheduling? o.id with
    | some attr =>
      simp only [scheduledCall, isScheduled, hattr, isSome_some, if_true] at h
      obtain ⟨r, hr⟩ := discard_ok h
      obtain ⟨a, hsend⟩ := exists_send (by
        rintro _ ⟨⟩
        exact hstore) (exists_inputs args) hr hattr
      exact .inl ⟨o, f, args, attr, r, a, rfl, hattr, hsend⟩
    | none =>
      simp only [isScheduled, hattr, isSome_none, reduceCtorEq, if_false] at h
      exact .inr (hpush h)
  case h_2 => exact .inr (hpush h)

theorem checkUses_ok (h : checkUses s = .ok u t) : t = { s with uses := [] } := by
  unfold checkUses at h
  obtain ⟨_, _, hget, h⟩ := bind_eq_ok.1 h
  cases hget
  obtain ⟨_, _, hset, h⟩ := bind_eq_ok.1 h
  cases hset
  cases hfind : s.uses.find? (·.declaredAt != s.steps.length) with
  | none =>
    simp only [hfind] at h
    exact (pure_eq_ok.1 h).2.symm
  | some use =>
    simp only [hfind] at h
    exact absurd h fail_ne_ok

theorem body_cons (h : body site (stmt :: rest) s = .ok u t) :
    ∃ s₁, Stage.stmt site stmt s = .ok () s₁ ∧ checkUses s₁ = .ok () { s₁ with uses := [] } ∧
      body site rest { s₁ with uses := [] } = .ok () t := by
  rw [body] at h
  obtain ⟨_, s₁, hstmt, h⟩ := bind_eq_ok.1 h
  obtain ⟨_, s₂, hcheck, h⟩ := bind_eq_ok.1 h
  obtain rfl := checkUses_ok hcheck
  exact ⟨s₁, hstmt, hcheck, h⟩

theorem value_ok (h : value site e s = .ok e' t) :
    ∃ a s₁, Staging site (.expr e e') a s s₁ ∧ t = { s₁ with steps := s₁.steps.flush } := by
  obtain ⟨v, s₁, hv, h⟩ := bind_eq_ok.1 h
  cases h
  obtain ⟨a, hv⟩ := exists_expr e hv
  exact ⟨a, s₁, hv, rfl⟩

end Stage

end Workflow
