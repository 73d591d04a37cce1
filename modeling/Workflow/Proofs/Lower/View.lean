import Workflow.Proofs.Build.Checks
import Workflow.Proofs.Lower.Height
import Workflow.Proofs.Lower.Vocabulary

/-!
# What staging does

Staging looks up what an expression stands for and what type it has, and the types of stores. So in
another context that says the same about these it does the same. The errors are at places of the
fragment, the names in the steps come from the fragment and from the stores, and where no call may
be scheduled no step is made. All this is said at once, so that code is walked once.
-/

namespace Workflow

open Stage List

def CompileError.IsPlain (e : CompileError) : Prop := e.cause.isInternal = false

/-- Whether the cause is that expressions nest too deep. -/
def Cause.isTooDeep : Cause → Bool
  | .expressionTooDeep _ => true
  | _ => false

namespace LowerContext

/-- How lowering is watched: beside another context, with an eye on errors, places and names. -/
structure View (c : LowerContext) where
  other : LowerContext
  /-- Whether only runs without errors are compared. -/
  strict : Prop
  place : Span → Prop
  allows : CompileError → Prop
  names : c.Vocabulary
  plain : ∀ {cause : Cause} {span}, cause.isInternal = false → cause.isTooDeep = false →
    place span → allows (cause.error span)
  limit : c.maxDepth ≤ other.maxDepth
  same_limit : strict ∨ other.maxDepth = c.maxDepth
  type_eq : ∀ st ∈ c.activity.stores,
    other.semantics.declarationType? st.marker = c.semantics.declarationType? st.marker
  stores : ∀ st ∈ c.activity.stores, place st.span

namespace View

variable {c : LowerContext} (W : c.View)

/-- The other context says the same about the expressions, at their places, with expected names. -/
structure Knows (es : List Expr) (ms : List Mention) : Prop where
  symbol : ∀ e ∈ es, W.other.semantics.symbol? e.id = c.semantics.symbol? e.id
  type : ∀ e ∈ es, W.other.exprType? e = c.exprType? e
  store : ∀ e ∈ es, W.other.storeFor? e = c.storeFor? e
  placed : ∀ e ∈ es, W.place e.span
  named : W.names.All ms

namespace Knows

variable {W} {es fs : List Expr} {ms ns : List Mention} {e : Expr}

theorem mono (h : W.Knows es ms) (hes : ∀ e ∈ fs, e ∈ es) (hms : ∀ m ∈ ns, m ∈ ms) :
    W.Knows fs ns where
  symbol e he := h.symbol e (hes e he)
  type e he := h.type e (hes e he)
  store e he := h.store e (hes e he)
  placed e he := h.placed e (hes e he)
  named m hm := h.named m (hms m hm)

theorem append (h : W.Knows (es ++ fs) (ms ++ ns)) : W.Knows es ms ∧ W.Knows fs ns :=
  ⟨h.mono (fun _ => mem_append_left _) fun _ => mem_append_left _,
    h.mono (fun _ => mem_append_right _) fun _ => mem_append_right _⟩

theorem tail (h : W.Knows (e :: es) ms) : W.Knows es ms :=
  h.mono (fun _ => mem_cons_of_mem _) fun _ hm => hm

theorem scheduling? (h : W.Knows es ms) (he : e ∈ es) :
    W.other.semantics.scheduling? e.id = c.semantics.scheduling? e.id := by
  rw [SemanticIndex.scheduling?, SemanticIndex.scheduling?, h.symbol e he]

theorem namedStore? (h : W.Knows es ms) (he : e ∈ es) : W.other.namedStore? e = c.namedStore? e := by
  rw [LowerContext.namedStore?, LowerContext.namedStore?, h.store e he]

theorem schedules (h : W.Knows es ms) (he : ∀ n ∈ e.nodes, n ∈ es) :
    W.other.schedules e = c.schedules e := by
  have hsame : ∀ n ∈ e.nodes, W.other.scheduling? n = c.scheduling? n := by
    intro n hn
    rw [LowerContext.scheduling?, LowerContext.scheduling?, h.scheduling? (he n hn)]
  rw [LowerContext.schedules, LowerContext.schedules, Expr.any, Expr.any, Bool.eq_iff_iff,
    any_eq_true, any_eq_true]
  refine exists_congr fun n => and_congr_right fun hn => ?_
  rw [hsame n hn]

end Knows

/-! ### Places -/

/-- A place in a fragment of the activity. -/
structure At (site : Site) : Prop where
  context : site.context = c
  span : W.place site.span

/-- So many expressions fit below the place, unless errors about this are allowed. -/
def Reaches (site : Site) (n : Nat) : Prop :=
  (∀ span, W.place span → W.allows ((Cause.expressionTooDeep c.maxDepth).error span)) ∨
    site.depth + n ≤ c.maxDepth

end View

end LowerContext

def Site.within (site : Site) (d : LowerContext) : Site := { site with context := d }

theorem Site.after_within (site : Site) (d : LowerContext) (stmt : CodeStmt) :
    (site.within d).after stmt = (site.after stmt).within d := by
  cases stmt <;> rfl

theorem Site.afterAll_within (site : Site) (d : LowerContext) (body : List CodeStmt) :
    (site.within d).afterAll body = (site.afterAll body).within d := by
  induction body generalizing site with
  | nil => rfl
  | cons stmt rest ih =>
    rw [afterAll, afterAll, foldl_cons, foldl_cons, after_within]
    exact ih (site.after stmt)

theorem Site.depth_after (site : Site) (stmt : CodeStmt) : (site.after stmt).depth = site.depth := by
  cases stmt <;> rfl

theorem Site.depth_afterAll (site : Site) (body : List CodeStmt) :
    (site.afterAll body).depth = site.depth := by
  induction body generalizing site with
  | nil => rfl
  | cons stmt rest ih => exact (ih (site.after stmt)).trans (site.depth_after stmt)

namespace LowerContext.View

variable {c : LowerContext} {W : c.View} {site : Site}

namespace At

variable (h : W.At site)

include h

theorem deeper : W.At site.deeper := ⟨h.context, h.span⟩

theorem nest : W.At site.nest := ⟨h.context, h.span⟩

theorem after (stmt : CodeStmt) : W.At (site.after stmt) := by
  cases stmt <;> exact ⟨h.context, h.span⟩

theorem afterAll (body : List CodeStmt) : W.At (site.afterAll body) := by
  induction body generalizing site with
  | nil => exact h
  | cons stmt rest ih => exact ih (h.after stmt)

theorem spanOf (ho : W.place o.span) : W.place (site.spanOf o) := by
  unfold Site.spanOf
  split
  · exact h.span
  · exact ho

end At

theorem Reaches.mono (h : W.Reaches site n) (hm : m ≤ n) : W.Reaches site m :=
  h.imp_right fun h => by omega

theorem Reaches.inside (h : W.Reaches site n) (hm : m < n) : W.Reaches site.deeper m :=
  h.imp_right fun h => by
    change site.depth + 1 + m ≤ _
    omega

theorem Reaches.afterAll (h : W.Reaches site n) (body : List CodeStmt) :
    W.Reaches (site.afterAll body) n := by
  rwa [Reaches, Site.depth_afterAll]

/-- What is staged at a place, with all that staging has to know about it. -/
structure Covers (W : c.View) (site : Site) (es : List Expr) (ms : List Mention) (n : Nat) : Prop
    extends W.At site, W.Knows es ms where
  reaches : W.Reaches site n

namespace Covers

variable {es fs : List Expr} {ms ns : List Mention} {n m : Nat} {e : Expr}

theorem left (h : W.Covers site (es ++ fs) (ms ++ ns) (max n m)) : W.Covers site es ms n :=
  ⟨h.toAt, h.toKnows.append.1, h.reaches.mono (Nat.le_max_left n m)⟩

theorem right (h : W.Covers site (es ++ fs) (ms ++ ns) (max n m)) : W.Covers site fs ns m :=
  ⟨h.toAt, h.toKnows.append.2, h.reaches.mono (Nat.le_max_right n m)⟩

variable (h : W.Covers site es ms n)

include h

theorem nest : W.Covers site.nest es ms n := ⟨h.toAt.nest, h.toKnows, h.reaches⟩

theorem afterAll (body : List CodeStmt) : W.Covers (site.afterAll body) es ms n :=
  ⟨h.toAt.afterAll body, h.toKnows, h.reaches.afterAll body⟩

theorem storeFor? (he : e ∈ es) :
    (site.within W.other).context.storeFor? e = site.context.storeFor? e :=
  (h.store e he).trans (by rw [h.context])

theorem schedules (he : ∀ n ∈ e.nodes, n ∈ es) :
    (site.within W.other).context.schedules e = site.context.schedules e :=
  (h.toKnows.schedules he).trans (by rw [h.context])

theorem scheduling? (he : .call o f args ∈ es) :
    (site.within W.other).context.semantics.scheduling? o.id =
      site.context.semantics.scheduling? o.id :=
  (h.toKnows.scheduling? he).trans (by rw [h.context]; rfl)

end Covers

/-! ### Steps of staging -/

/-- What a step of staging leaves: it adds errors that are allowed, and no steps if it keeps
still. -/
structure Leaves (W : c.View) (still : Prop) (s t : StageState) : Prop where
  errors : ∃ new, t.lower.errors.errors = s.lower.errors.errors ++ new ∧ ∀ e ∈ new, W.allows e
  steps : still → t.steps = s.steps

/-- The steps have the names that are expected, and locals are used at places of the fragment. -/
structure Holds (W : c.View) (s : StageState) : Prop where
  steps : W.names.Steps s.steps
  uses : ∀ use ∈ s.uses, W.place use.span

def Ends {α : Type} (W : c.View) (still : Prop) (Q : α → Prop) (s : StageState) :
    EStateM.Result CompileError StageState α → EStateM.Result CompileError StageState α → Prop
  | .ok a t, r => r = .ok a t ∧ W.Leaves still s t ∧ W.Holds t ∧ Q a
  | .error e t, r => (W.strict ∨ r = .error e t) ∧ W.Leaves still s t ∧ W.allows e

def Stages {α : Type} (W : c.View) (still : Prop) (x y : Stage α) (Q : α → Prop) : Prop :=
  ∀ s, W.Holds s → W.Ends still Q s (x s) (y s)

def Reports {α : Type} (W : c.View) (x : Lower α) : Prop :=
  ∀ l, ∃ new, (x.run l).2.errors.errors = l.errors.errors ++ new ∧ ∀ e ∈ new, W.allows e

section Rules

variable {α β : Type} {still : Prop} {x y : Stage α} {f g : α → Stage β} {Q : α → Prop}
  {R : β → Prop} {s t u : StageState}

theorem Leaves.of_eq (herrors : t.lower.errors = s.lower.errors)
    (hsteps : still → t.steps = s.steps) : W.Leaves still s t :=
  ⟨⟨[], by rw [herrors, append_nil], fun _ he => by cases he⟩, hsteps⟩

theorem Leaves.trans (h : W.Leaves still s t) (h' : W.Leaves still t u) : W.Leaves still s u := by
  obtain ⟨new, hnew, hallows⟩ := h.errors
  obtain ⟨new', hnew', hallows'⟩ := h'.errors
  refine ⟨⟨new ++ new', ?_, forall_mem_append.2 ⟨hallows, hallows'⟩⟩, fun hstill => ?_⟩
  · rw [hnew', hnew, append_assoc]
  · exact (h'.steps hstill).trans (h.steps hstill)

namespace Stages

theorem of_ok (h : ∀ s, W.Holds s → ∃ a t, x s = .ok a t ∧ y s = .ok a t ∧
    W.Leaves still s t ∧ W.Holds t ∧ Q a) : W.Stages still x y Q := by
  intro s hs
  obtain ⟨a, t, hx, hy, hst, ht, ha⟩ := h s hs
  rw [hx]
  exact ⟨hy, hst, ht, ha⟩

theorem pure {a : α} (h : Q a) : W.Stages still (Pure.pure a) (Pure.pure a) Q :=
  of_ok fun s hs => ⟨a, s, rfl, rfl, .of_eq rfl fun _ => rfl, hs, h⟩

theorem bind (hx : W.Stages still x y Q) (hf : ∀ a, Q a → W.Stages still (f a) (g a) R) :
    W.Stages still (x >>= f) (y >>= g) R := by
  intro s hs
  have hbind : ∀ (x : Stage α) (f : α → Stage β), (x >>= f) s = EStateM.bind x f s :=
    fun _ _ => rfl
  have hends := hx s hs
  rw [hbind, hbind, EStateM.bind, EStateM.bind]
  cases h : x s with
  | ok a t =>
    rw [h] at hends
    obtain ⟨hy, hst, ht, ha⟩ := hends
    have hrest := hf a ha t ht
    rw [hy]
    dsimp only
    cases hb : f a t
    all_goals
      rw [hb] at hrest
      exact ⟨hrest.1, hst.trans hrest.2.1, hrest.2.2⟩
  | error e t =>
    rw [h] at hends
    exact ⟨hends.1.imp_right fun hy => by rw [hy], hends.2⟩

theorem mono {P : α → Prop} {still' : Prop} (hx : W.Stages still' x y P) (hQ : ∀ a, P a → Q a)
    (hstill : still → still') : W.Stages still x y Q := by
  intro s hs
  have hends := hx s hs
  cases h : x s with
  | ok a t =>
    rw [h] at hends
    obtain ⟨hy, hst, ht, ha⟩ := hends
    exact ⟨hy, ⟨hst.errors, fun h => hst.steps (hstill h)⟩, ht, hQ a ha⟩
  | error e t =>
    rw [h] at hends
    obtain ⟨hy, hst, he⟩ := hends
    exact ⟨hy, ⟨hst.errors, fun h => hst.steps (hstill h)⟩, he⟩

theorem loosen (hx : W.Stages still x y Q) : W.Stages False x y Q :=
  hx.mono (fun _ ha => ha) False.elim

theorem map {g : α → β} (hx : W.Stages still x y Q) (h : ∀ a, Q a → R (g a)) :
    W.Stages still (g <$> x) (g <$> y) R := by
  rw [map_eq_pure_bind, map_eq_pure_bind]
  exact hx.bind fun a ha => .pure (h a ha)

theorem fail {cause : Cause} {span : Span} (h : W.allows (cause.error span)) :
    W.Stages still (fail cause span) (fail cause span) Q :=
  fun _ _ => ⟨.inr rfl, .of_eq rfl fun _ => rfl, h⟩

theorem ofLower {x : Lower α} (hx : W.Reports x) (hQ : ∀ l, Q (x.run l).1) :
    W.Stages still (ofLower x) (ofLower x) Q :=
  of_ok fun s hs => ⟨_, _, rfl, rfl, ⟨hx s.lower, fun _ => rfl⟩, ⟨hs.steps, hs.uses⟩, hQ s.lower⟩

theorem tempVar (stem : String) : W.Stages still (Stage.ofLower (Lower.tempVar stem))
    (Stage.ofLower (Lower.tempVar stem)) fun x => ∃ n, x = Lower.tempName stem n :=
  ofLower (fun _ => ⟨[], (append_nil _).symm, fun _ he => by cases he⟩) fun _ => ⟨_, rfl⟩

theorem holder {stem : String} (hstem : stem ∈ ["r", "c", "v", "l"]) :
    W.Stages still (Stage.ofLower (Lower.tempVar stem)) (Stage.ofLower (Lower.tempVar stem))
      Lower.IsHolder :=
  (tempVar stem).mono (fun _ hx => ⟨stem, hstem, hx⟩) id

theorem modifySteps {g : StepList → StepList} (hstill : ¬ still)
    (hg : ∀ l, W.names.Steps l → W.names.Steps (g l)) :
    W.Stages still (modifySteps g) (modifySteps g) fun _ => True :=
  of_ok fun s hs => ⟨(), _, rfl, rfl, .of_eq rfl fun h => absurd h hstill,
    ⟨hg s.steps hs.steps, hs.uses⟩, trivial⟩

theorem get {f : StageState → Stage β} {g : StageState → Stage β}
    (hf : ∀ s, W.Stages still (f s) (g s) R) :
    W.Stages still (MonadState.get >>= f) (MonadState.get >>= g) R :=
  fun s hs => hf s s hs

theorem stepCount : W.Stages still stepCount stepCount fun _ => True :=
  get fun _ => pure trivial

section Steps

variable (hstill : ¬ still)

include hstill

theorem pushPlain {stmt : CodeStmt} (h : W.names.All stmt.mentions) :
    W.Stages still (pushPlain stmt) (pushPlain stmt) fun _ => True :=
  modifySteps hstill fun _ hl => hl.pushPlain h

theorem temp (ty : TypeName) :
    W.Stages still (Stage.temp "r" ty) (Stage.temp "r" ty) Lower.IsHolder :=
  (holder (by simp)).bind fun _ hx =>
    (modifySteps hstill fun _ hl => hl.declare hx ty).bind fun _ _ => pure hx

theorem ensureIndex : W.Stages still Stage.ensureIndex Stage.ensureIndex fun _ => True := by
  refine get fun s => ?_
  split
  · refine (tempVar "step").bind fun x hx => modifySteps hstill fun _ hl => ?_
    obtain ⟨n, rfl⟩ := hx
    exact hl.useIndex n
  · exact pure trivial

theorem pushSkip (h : W.names.All (Step.skip before condition onSkip 0).mentions) :
    W.Stages still (pushSkip before condition onSkip)
      (pushSkip before condition onSkip) fun _ => True :=
  (modifySteps hstill fun _ hl => hl.push h trivial).bind fun _ _ => stepCount.bind fun _ _ =>
    pure trivial

theorem skipToHere (position : Nat) :
    W.Stages still (skipToHere position) (skipToHere position) fun _ => True :=
  (modifySteps hstill fun _ hl => hl.flush).bind fun _ _ => stepCount.bind fun _ _ =>
    modifySteps hstill fun _ hl => hl.patchSkip _ _

end Steps

theorem declareLocal (name : String) :
    W.Stages still (declareLocal name) (declareLocal name) fun _ => True :=
  of_ok fun _ hs => ⟨_, _, rfl, rfl, .of_eq rfl fun _ => rfl, ⟨hs.steps, hs.uses⟩, trivial⟩

theorem checkUses : W.Stages still Stage.checkUses Stage.checkUses fun _ => True := by
  intro s hs
  have hnone : W.Holds { s with uses := [] } := ⟨hs.steps, fun _ h => by cases h⟩
  have hleaves : W.Leaves still s { s with uses := [] } := .of_eq rfl fun _ => rfl
  have hget : ∀ f : StageState → Stage Unit, (MonadState.get >>= f) s = f s s :=
    fun _ => rfl
  cases hfind : s.uses.find? (·.declaredAt != s.steps.length) with
  | none =>
    have hrun : Stage.checkUses s = .ok () { s with uses := [] } := by
      rw [Stage.checkUses, hget]
      simp only [hfind]
      rfl
    rw [hrun]
    exact ⟨rfl, hleaves, hnone, trivial⟩
  | some use =>
    have hrun : Stage.checkUses s =
        Stage.fail (.localAcrossScheduledCall use.name) use.span { s with uses := [] } := by
      rw [Stage.checkUses, hget]
      simp only [hfind]
      rfl
    rw [hrun]
    exact ⟨.inr rfl, hleaves, W.plain rfl rfl (hs.uses use (mem_of_find?_eq_some hfind))⟩

theorem descend {f g : Site → Stage β} (hsite : W.At site)
    (hspan : W.place e.span) (hreach : W.Reaches site n) (hn : 0 < n)
    (h : W.Stages still (f site.deeper) (g (site.deeper.within W.other)) R) :
    W.Stages still (descend site e >>= f) (descend (site.within W.other) e >>= g) R := by
  have hgo : ∀ (site : Site) (f : Site → Stage β), ¬ site.context.maxDepth < site.depth + 1 →
      (Stage.descend site e >>= f) = f site.deeper := by
    intro site f hdeep
    rw [Stage.descend, if_neg hdeep]
    rfl
  have hfail : ∀ (site : Site) (f : Site → Stage β), site.context.maxDepth < site.depth + 1 →
      (Stage.descend site e >>= f) = Stage.fail (.expressionTooDeep site.context.maxDepth)
        (site.spanOf e.origin) := by
    intro site f hdeep
    rw [Stage.descend, if_pos hdeep]
    rfl
  have hlimit := W.limit
  by_cases hdeep : c.maxDepth < site.depth + 1
  · have hallows := hreach.resolve_right (by omega) _ (hsite.spanOf hspan)
    rw [hfail site f (hsite.context ▸ hdeep), hsite.context]
    rcases W.same_limit with hstrict | hsame
    · exact fun s _ => ⟨.inl hstrict, .of_eq rfl fun _ => rfl, hallows⟩
    · rw [hfail (site.within W.other) g (hsame ▸ hdeep)]
      change W.Stages _ _ (Stage.fail (.expressionTooDeep W.other.maxDepth) _) _
      rw [hsame]
      exact .fail hallows
  · rw [hgo site f (hsite.context ▸ hdeep), hgo (site.within W.other) g
      (by change ¬ W.other.maxDepth < site.depth + 1; omega)]
    exact h

end Stages

end Rules

end LowerContext.View

end Workflow
