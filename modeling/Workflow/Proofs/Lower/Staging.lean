import Workflow.Lower.Stage
import Workflow.Proofs.Lower.Names

/-!
# What staging does to the steps

Staging an expression adds steps to the list, or leaves the list alone. If it adds some, the pending
statements go into a step before them and none are pending afterwards. Everything else in the list
is kept, except that variables are declared.
-/

namespace Workflow

open List Lower

variable {c : LowerContext} {store : Store} {attr : SchedulingAttribute} {position : Nat}
variable {l : StepList} {step : Step} {before onSkip : List CodeStmt} {condition : Option Expr}
  {ty : TypeName} {p : Option Location × Option Expr}

namespace LowerContext

variable {c : LowerContext} {e : Expr} {st : Store}

theorem storeFor?_mem (h : c.storeFor? e = some st) : st ∈ c.activity.stores := by
  obtain ⟨m, -, hs⟩ := Option.bind_eq_some_iff.1 h
  obtain ⟨i, -, hs⟩ := Option.bind_eq_some_iff.1 hs
  exact Array.mem_of_getElem? hs

theorem storeFor?_of_namedStore? (h : c.namedStore? e = some st) : c.storeFor? e = some st := by
  unfold namedStore? at h
  split at h
  · exact h
  · cases h

theorem namedStore?_of_storeFor? (h : c.storeFor? e = none) : c.namedStore? e = none := by
  unfold namedStore?
  split
  · exact h
  · rfl

theorem namedStore?_mem (h : c.namedStore? e = some st) : st ∈ c.activity.stores :=
  storeFor?_mem (storeFor?_of_namedStore? h)

end LowerContext

namespace StepList

/-- The list declares results, and the position if there are skips. -/
structure Generated (l : StepList) : Prop where
  vars : ∀ v ∈ l.vars, (∃ n, v.name = resultName n ∧ v.default = none) ∨
    (l.index = some v.name ∧ v.default = some (.int 0))
  index : ∀ x, l.index = some x → (∃ n, x = indexName n) ∧
    ∃ v ∈ l.vars, v.name = x ∧ v.default = some (.int 0)
  plain : l.index = none → ∀ step ∈ l.steps, ∃ n, step = .node n

theorem generated_empty : Generated {} where
  vars := by simp
  index := by simp
  plain := by simp

@[simp]
theorem index_flush (l : StepList) : l.flush.index = l.index := by
  unfold flush
  split <;> rfl

@[simp]
theorem vars_flush (l : StepList) : l.flush.vars = l.vars := by
  unfold flush
  split <;> rfl

@[simp]
theorem pending_flush (l : StepList) : l.flush.pending = [] := by
  unfold flush
  split
  case isTrue h => exact isEmpty_iff.1 h
  case isFalse => rfl

theorem steps_flush (l : StepList) : l.flush.steps =
    if l.pending = [] then l.steps else l.steps ++ [.node (.code l.pending)] := by
  cases h : l.pending <;> simp [flush, h]

theorem flush_of_pending (h : l.pending = []) : l.flush = l := by
  simp [flush, h]

theorem flush_flush (l : StepList) : l.flush.flush = l.flush :=
  flush_of_pending (pending_flush l)

theorem modify_length_append {α : Type} (xs ys : List α) (y : α) (f : α → α) :
    (xs ++ y :: ys).modify xs.length f = xs ++ f y :: ys := by
  simp [modify_eq_take_cons_drop]

theorem mem_flush_steps (h : step ∈ l.steps) : step ∈ l.flush.steps := by
  rw [steps_flush]
  split
  · exact h
  · exact mem_append_left _ h

theorem mem_steps_flush (h : step ∈ l.flush.steps) : step ∈ l.steps ∨ ∃ n, step = .node n := by
  unfold flush at h
  split at h
  · exact .inl h
  · rcases mem_append.1 h with h | h
    · exact .inl h
    · exact .inr ⟨_, mem_singleton.1 h⟩

namespace Generated

variable {l : StepList}

theorem flush (h : l.Generated) : l.flush.Generated where
  vars := by simpa using h.vars
  index := by simpa using h.index
  plain hi step hs := by
    rw [index_flush] at hi
    obtain hs | hs := mem_steps_flush hs
    · exact h.plain hi step hs
    · exact hs

theorem pushPlain (h : l.Generated) (s : CodeStmt) : (l.pushPlain s).Generated where
  vars := h.vars
  index := h.index
  plain := h.plain

theorem push (h : l.Generated)
    (hstep : l.index = none → ∃ n, step = .node n) : (l.push step).Generated where
  vars := h.flush.vars
  index := h.flush.index
  plain hi s hs := by
    rcases mem_append.1 hs with hs | hs
    · exact h.flush.plain hi s hs
    · rw [mem_singleton.1 hs]
      exact hstep ((index_flush l).symm.trans hi)

/-- The step at a position may be changed, but no node may become a skip. -/
theorem patchSkip (h : l.Generated) (position distance : Nat) :
    (l.patchSkip position distance).Generated where
  vars := h.vars
  index := h.index
  plain hi step hs := by
    obtain ⟨i, hi', rfl⟩ := mem_iff_getElem.1 hs
    simp only [StepList.patchSkip, length_modify] at hi'
    obtain ⟨n, hn⟩ := h.plain hi _ (getElem_mem hi')
    simp only [StepList.patchSkip, getElem_modify, hn]
    split
    · exact ⟨n, rfl⟩
    · exact ⟨n, rfl⟩

theorem declare (h : l.Generated) (n : Nat) (ty : TypeName) :
    (l.declare { name := resultName n, ty := ty }).Generated where
  vars v hv := by
    rcases mem_append.1 hv with hv | hv
    · exact h.vars v hv
    · rw [mem_singleton.1 hv]
      exact .inl ⟨n, rfl, rfl⟩
  index x hx := by
    obtain ⟨hn, v, hv, hname⟩ := h.index x hx
    exact ⟨hn, v, mem_append_left _ hv, hname⟩
  plain := h.plain

theorem useIndex (h : l.Generated) (hnone : l.index = none) (n : Nat) :
    (l.useIndex (indexName n)).Generated where
  vars v hv := by
    rcases mem_cons.1 hv with rfl | hv
    · exact .inr ⟨rfl, rfl⟩
    · rcases h.vars v hv with hr | ⟨hi, _⟩
      · exact .inl hr
      · rw [hnone] at hi
        cases hi
  index x hx := by
    cases hx
    exact ⟨⟨n, rfl⟩, _, mem_cons_self, rfl, rfl⟩
  plain hi := by cases hi

end Generated

end StepList

def Site.deeper (site : Site) : Site := { site with depth := site.depth + 1 }

@[simp]
theorem Site.context_deeper (site : Site) : site.deeper.context = site.context := rfl

@[simp]
theorem Site.canSchedule_deeper (site : Site) : site.deeper.canSchedule = site.canSchedule := rfl

@[simp]
theorem Site.inLambda_deeper (site : Site) : site.deeper.inLambda = site.inLambda := rfl

namespace Site

@[simp]
theorem inLambda_nest (site : Site) : site.nest.inLambda = site.inLambda := rfl

theorem canSchedule_nest (site : Site) : site.nest.canSchedule = false := by
  simp [Site.canSchedule, Site.nest]

theorem canSchedule_after (site : Site) (stmt : CodeStmt) :
    (site.after stmt).canSchedule = site.canSchedule := by
  cases stmt <;> rfl

theorem context_after (site : Site) (stmt : CodeStmt) :
    (site.after stmt).context = site.context := by
  cases stmt <;> rfl

theorem inLambda_after (site : Site) (stmt : CodeStmt) :
    (site.after stmt).inLambda = site.inLambda := by
  cases stmt <;> rfl

theorem canSchedule_afterAll (site : Site) (body : List CodeStmt) :
    (site.afterAll body).canSchedule = site.canSchedule := by
  induction body generalizing site with
  | nil => rfl
  | cons stmt rest ih => exact (ih (site.after stmt)).trans (canSchedule_after site stmt)

theorem context_afterAll (site : Site) (body : List CodeStmt) :
    (site.afterAll body).context = site.context := by
  induction body generalizing site with
  | nil => rfl
  | cons stmt rest ih => exact (ih (site.after stmt)).trans (context_after site stmt)

theorem inLambda_afterAll (site : Site) (body : List CodeStmt) :
    (site.afterAll body).inLambda = site.inLambda := by
  induction body generalizing site with
  | nil => rfl
  | cons stmt rest ih => exact (ih (site.after stmt)).trans (inLambda_after site stmt)

theorem canSchedule_enterLambda (site : Site) (params : List String) :
    (site.enterLambda params).canSchedule = false := by
  simp [canSchedule, enterLambda]

end Site

/-- What is known about the locals of the fragment: where they are declared, and their uses. -/
def StageState.scope (s : StageState) : List (String × Nat) × List LocalUse := (s.locals, s.uses)

def StageState.noted (s : StageState) (site : Site) (o : Origin) (name : String) : StageState :=
  if site.hidden.contains name then s
  else match s.locals.find? (·.1 == name) with
    | none => s
    | some (_, count) =>
      { s with uses := s.uses ++ [{ name := name, declaredAt := count, span := site.spanOf o }] }

/-- How staging changes the state: it adds the steps `added`. -/
structure Emits (s t : StageState) (added : List Step) : Prop where
  same : added = [] → t.steps.steps = s.steps.steps ∧ t.steps.pending = s.steps.pending
  append : added ≠ [] → t.steps.steps = s.steps.flush.steps ++ added ∧ t.steps.pending = []
  locals : t.locals = s.locals
  counter : s.lower.counter ≤ t.lower.counter
  errors : t.lower.errors.errors = [] → s.lower.errors.errors = []
  index : ∀ x, s.steps.index = some x → t.steps.index = some x
  generated : s.steps.Generated → t.steps.Generated

namespace Emits

variable {s t u : StageState} {a b : List Step}

theorem refl (s : StageState) : Emits s s [] where
  same _ := ⟨rfl, rfl⟩
  append h := absurd rfl h
  locals := rfl
  counter := Nat.le_refl _
  errors h := h
  index _ h := h
  generated h := h

theorem flush_eq (h : Emits s t a) : t.steps.flush.steps = s.steps.flush.steps ++ a := by
  by_cases ha : a = []
  · obtain ⟨hsteps, hpending⟩ := h.same ha
    rw [StepList.steps_flush, StepList.steps_flush, hsteps, hpending, ha, append_nil]
  · obtain ⟨hsteps, hpending⟩ := h.append ha
    rw [StepList.flush_of_pending hpending, hsteps]

theorem of_steps_eq (hsteps : t.steps = s.steps) (hlocals : t.locals = s.locals)
    (hcounter : s.lower.counter ≤ t.lower.counter)
    (herrors : t.lower.errors.errors = [] → s.lower.errors.errors = []) : Emits s t [] where
  same _ := by rw [hsteps]; exact ⟨rfl, rfl⟩
  append h := absurd rfl h
  locals := hlocals
  counter := hcounter
  errors := herrors
  index x hx := by rw [hsteps]; exact hx
  generated h := by rw [hsteps]; exact h

theorem noted (s : StageState) (site : Site) (o : Origin) (name : String) :
    Emits s (s.noted site o name) [] := by
  unfold StageState.noted
  split
  · exact refl s
  · split
    · exact refl s
    · exact of_steps_eq rfl rfl (Nat.le_refl _) id

theorem push (s : StageState) (hstep : s.steps.index = none → ∃ n, step = .node n) :
    Emits s { s with steps := s.steps.push step } [step] where
  same h := by cases h
  append _ := ⟨rfl, StepList.pending_flush s.steps⟩
  locals := rfl
  counter := Nat.le_refl _
  errors h := h
  index _ hx := (StepList.index_flush s.steps).trans hx
  generated h := h.push hstep

theorem pushNode (s : StageState) (n : Node) :
    Emits s { s with steps := s.steps.pushNode n } [.node n] :=
  push s fun _ => ⟨n, rfl⟩

theorem declare (s : StageState) (ty : TypeName) : Emits s { s with
      lower := { s.lower with counter := s.lower.counter + 1 }
      steps := s.steps.declare { name := resultName (s.lower.counter + 1), ty := ty } } [] where
  same _ := ⟨rfl, rfl⟩
  append h := absurd rfl h
  locals := rfl
  counter := Nat.le_succ _
  errors h := h
  index _ hx := hx
  generated h := h.declare _ _

theorem trans (h : Emits s t a) (h' : Emits t u b) : Emits s u (a ++ b) where
  same hab := by
    obtain ⟨rfl, rfl⟩ := append_eq_nil_iff.1 hab
    obtain ⟨hs, hp⟩ := h.same rfl
    obtain ⟨hs', hp'⟩ := h'.same rfl
    exact ⟨hs'.trans hs, hp'.trans hp⟩
  append hab := by
    by_cases hb : b = []
    · subst hb
      rw [append_nil] at hab ⊢
      obtain ⟨hs, hp⟩ := h.append hab
      obtain ⟨hs', hp'⟩ := h'.same rfl
      exact ⟨hs'.trans hs, hp'.trans hp⟩
    · obtain ⟨hs', hp'⟩ := h'.append hb
      rw [hs', h.flush_eq, append_assoc]
      exact ⟨rfl, hp'⟩
  locals := h'.locals.trans h.locals
  counter := Nat.le_trans h.counter h'.counter
  errors hu := h.errors (h'.errors hu)
  index x hx := h'.index x (h.index x hx)
  generated hs := h'.generated (h.generated hs)

theorem mem_steps (h : Emits s t a) : ∀ step ∈ s.steps.steps, step ∈ t.steps.steps := by
  intro step hs
  by_cases ha : a = []
  · rw [(h.same ha).1]
    exact hs
  · rw [(h.append ha).1]
    exact mem_append_left _ (StepList.mem_flush_steps hs)

theorem isSome_index (h : Emits s t a) (hs : s.steps.index.isSome = true) :
    t.steps.index.isSome = true := by
  obtain ⟨x, hx⟩ := Option.isSome_iff_exists.1 hs
  rw [h.index x hx]
  rfl

theorem close (h : Emits s t a) (ha : a ≠ []) (stmt : CodeStmt) :
    Emits s { t with steps := (t.steps.pushPlain stmt).flush } (a ++ [.node (.code [stmt])]) where
  same hn := by simp at hn
  append _ := by
    obtain ⟨hsteps, hpending⟩ := h.append ha
    simp [StepList.flush, StepList.pushPlain, hpending, hsteps]
  locals := h.locals
  counter := h.counter
  errors := h.errors
  index x hx := (StepList.index_flush _).trans (h.index x hx)
  generated hs := ((h.generated hs).pushPlain stmt).flush

theorem patch (h : Emits s t (a ++ .skip before condition onSkip distance :: b))
    (hposition : position = s.steps.flush.steps.length + a.length) (distance' : Nat) :
    Emits s { t with steps := t.steps.patchSkip position distance' }
      (a ++ .skip before condition onSkip distance' :: b) where
  same hn := by simp at hn
  append _ := by
    obtain ⟨hsteps, hpending⟩ := h.append (by simp)
    refine ⟨?_, hpending⟩
    rw [← length_append] at hposition
    rw [← append_assoc] at hsteps
    change t.steps.steps.modify position (StepList.setOver distance') = _
    rw [hsteps, hposition, StepList.modify_length_append, append_assoc]
    rfl
  locals := h.locals
  counter := h.counter
  errors := h.errors
  index x hx := h.index x hx
  generated hs := (h.generated hs).patchSkip _ _

end Emits

/-- Stages fragments one after the other; each comes with the store that it declares. -/
def Stage.fragments (site : Site) : List (List CodeStmt × Option StoreId) → Stage Unit
  | [] => return ()
  | f :: rest => do
    Stage.code site f.1 (f.2.bind fun id => site.context.activity.stores[id]?)
    Stage.fragments site rest

namespace Stage

variable {α β : Type} {site : Site} {s t : StageState}

theorem bind_eq_ok {x : Stage α} {f : α → Stage β} {b : β} :
    (x >>= f) s = .ok b t ↔ ∃ a r, x s = .ok a r ∧ f a r = .ok b t := by
  change EStateM.bind x f s = .ok b t ↔ _
  unfold EStateM.bind
  cases x s with
  | ok a r =>
    constructor
    · exact fun h => ⟨a, r, rfl, h⟩
    · rintro ⟨_, _, h, hf⟩
      cases h
      exact hf
  | error e r => simp

theorem pure_eq_ok {a b : α} : (pure a : Stage α) s = .ok b t ↔ a = b ∧ s = t := by
  change EStateM.Result.ok a s = .ok b t ↔ _
  simp

theorem map_eq_ok {f : α → β} {x : Stage α} {b : β} :
    (f <$> x) s = .ok b t ↔ ∃ a, x s = .ok a t ∧ f a = b := by
  change EStateM.map f x s = .ok b t ↔ _
  unfold EStateM.map
  cases x s with
  | ok a r =>
    constructor
    · intro h
      cases h
      exact ⟨a, rfl, rfl⟩
    · rintro ⟨_, h, rfl⟩
      cases h
      rfl
  | error e r => simp

theorem fail_ne_ok {cause : Cause} {span : Span} {a : α} :
    (fail cause span : Stage α) s ≠ .ok a t := by
  intro h
  cases h

theorem of_descend {f : Site → Stage α} {a : α}
    (h : (descend site e >>= f) s = .ok a t) : f site.deeper s = .ok a t := by
  obtain ⟨site', r, hd, h⟩ := bind_eq_ok.1 h
  unfold descend at hd
  split at hd
  · exact absurd hd fail_ne_ok
  · obtain ⟨rfl, rfl⟩ := pure_eq_ok.1 hd
    exact h

theorem of_checkLambda {f : Unit → Stage α} {a : α}
    (h : (checkLambda site e store >>= f) s = .ok a t) :
    site.inLambda = false ∧ f () s = .ok a t := by
  obtain ⟨_, r, hl, h⟩ := bind_eq_ok.1 h
  unfold checkLambda at hl
  split at hl
  · exact absurd hl fail_ne_ok
  case isFalse hlambda =>
    obtain ⟨_, rfl⟩ := pure_eq_ok.1 hl
    exact ⟨by simpa using hlambda, h⟩

theorem noteLocal_eq (o : Origin) (name : String) :
    noteLocal site o name s = .ok () (s.noted site o name) := by
  unfold noteLocal StageState.noted
  by_cases h : site.hidden.contains name = true
  · simp only [h, Bool.not_true, Bool.false_eq_true, if_false, if_true]
    rfl
  · simp only [h, Bool.not_false, if_true, Bool.false_eq_true, if_false]
    cases hfind : s.locals.find? (·.1 == name) with
    | none =>
      refine bind_eq_ok.2 ⟨s, s, rfl, ?_⟩
      rw [hfind]
      rfl
    | some found =>
      refine bind_eq_ok.2 ⟨s, s, rfl, ?_⟩
      rw [hfind]
      rfl

theorem temp_ok (h : temp "r" ty s = .ok name t) :
    name = resultName t.lower.counter ∧ t.lower.counter = s.lower.counter + 1 ∧
      Emits s t [] ∧ t.scope = s.scope := by
  cases h
  exact ⟨rfl, rfl, .declare s ty, rfl⟩

theorem storeType_errors {l : LowerState} : let l' := ((storeType c store).run l).2
    l'.counter = l.counter ∧ (l'.errors.errors = [] → l.errors.errors = []) := by
  unfold storeType
  split
  · exact ⟨rfl, id⟩
  · split
    · exact ⟨rfl, id⟩
    · exact ⟨rfl, fun h => (append_eq_nil_iff.1 h).1⟩

theorem tempVar_ok (h : ofLower (tempVar stem) s = .ok name t) :
    (∃ n, name = tempName stem n) ∧ Emits s t [] ∧ t.scope = s.scope := by
  cases h
  exact ⟨⟨_, rfl⟩, .of_steps_eq rfl rfl (Nat.le_succ _) id, rfl⟩

theorem storeType_ok (h : ofLower (storeType c store) s = .ok ty t) :
    Emits s t [] ∧ t.scope = s.scope := by
  unfold ofLower at h
  cases h
  have := @storeType_errors c store s.lower
  exact ⟨.of_steps_eq rfl rfl (Nat.le_of_eq this.1.symm) this.2, rfl⟩

theorem location_ok (h : ofLower (location c store) s = .ok loc t) :
    loc.handle = store.handle ∧ Emits s t [] ∧ t.scope = s.scope := by
  unfold ofLower at h
  cases h
  have := @storeType_errors c store s.lower
  exact ⟨rfl, .of_steps_eq rfl rfl (Nat.le_of_eq this.1.symm) this.2, rfl⟩

theorem resultLocation_discard (h : resultLocation site attr .discard s = .ok p t) :
    p = (none, none) ∧ t = s := by
  cases h
  exact ⟨rfl, rfl⟩

theorem resultLocation_into (hresult : attr.result.isSome = true)
    (h : resultLocation site attr (.into store) s = .ok p t) :
    ∃ loc, p.1 = some loc ∧ loc.handle = store.handle := by
  obtain ⟨ty, hty⟩ := Option.isSome_iff_exists.1 hresult
  simp only [resultLocation, hty] at h
  obtain ⟨loc, r, hloc, h⟩ := bind_eq_ok.1 h
  obtain ⟨rfl, rfl⟩ := pure_eq_ok.1 h
  exact ⟨loc, rfl, (location_ok hloc).1⟩

theorem resultLocation_temp (hresult : attr.result.isSome = true)
    (h : resultLocation site attr .temp s = .ok p t) : t.lower.counter = s.lower.counter + 1 ∧ ∃ ty,
      p = (some { ty := some ty, handle := .ident (resultName t.lower.counter) },
        some (getVar (resultName t.lower.counter))) := by
  obtain ⟨ty, hty⟩ := Option.isSome_iff_exists.1 hresult
  simp only [resultLocation, hty] at h
  obtain ⟨name, r, hname, h⟩ := bind_eq_ok.1 h
  obtain ⟨rfl, rfl⟩ := pure_eq_ok.1 h
  obtain ⟨rfl, hcounter, -⟩ := temp_ok hname
  exact ⟨hcounter, ty, rfl⟩

theorem resultLocation_ok (h : resultLocation site attr result s = .ok p t) :
    Emits s t [] ∧ t.scope = s.scope ∧
      ((∀ l ∈ p.1, attr.result.isSome = true ∧
          ∃ store, result = .into store ∧ l.handle = store.handle) ∧ p.2.getD .null = .null ∨
        ∃ n ty, attr.result = some ty ∧ p = (some { ty := some ty, handle := .ident (resultName n) },
          some (getVar (resultName n)))) := by
  cases result with
  | discard =>
    cases h
    exact ⟨.refl s, rfl, .inl ⟨by simp, rfl⟩⟩
  | into store =>
    cases hr : attr.result <;> simp only [resultLocation, hr] at h
    case none =>
      cases h
      exact ⟨.refl s, rfl, .inl ⟨by simp, rfl⟩⟩
    case some ty =>
      obtain ⟨loc, r, hloc, h⟩ := bind_eq_ok.1 h
      cases h
      obtain ⟨hhandle, hem, hscope⟩ := location_ok hloc
      exact ⟨hem, hscope, .inl ⟨by simpa [hr] using hhandle, rfl⟩⟩
  | temp =>
    cases hr : attr.result <;> simp only [resultLocation, hr] at h
    case none =>
      cases h
      exact ⟨.refl s, rfl, .inl ⟨by simp, rfl⟩⟩
    case some ty =>
      obtain ⟨name, r, hname, h⟩ := bind_eq_ok.1 h
      cases h
      obtain ⟨rfl, -, hem, hscope⟩ := temp_ok hname
      exact ⟨hem, hscope, .inr ⟨_, ty, rfl, rfl⟩⟩

def invokeNode (attr : SchedulingAttribute) (arguments : List NodeArgument)
    (location : Option Location) : Node :=
  (Node.ofKind (.invoke attr.nodeType arguments location)).named (Text.lastSegment attr.nodeType)

/-- A scheduled call stages its arguments, and adds its node after their steps. -/
theorem schedule_ok {o : Origin} {result : CallResult}
    {args : Stage (List NodeArgument)} {read : Option Expr}
    (h : schedule site o attr result args s = .ok read t) :
    site.canSchedule = true ∧ ∃ arguments location s₁ s₂, args s = .ok arguments s₁ ∧
      resultLocation site attr result s₁ = .ok (location, read) s₂ ∧
      Emits s₂ t [.node (invokeNode attr arguments location)] ∧
      t.lower.counter = s₂.lower.counter ∧ t.scope = s₂.scope := by
  unfold schedule at h
  cases hscope : site.inLambda || site.nested with
  | true =>
    simp only [hscope, if_true] at h
    exact absurd h (by intro h; cases h)
  | false =>
    simp only [hscope, Bool.false_eq_true, if_false] at h
    cases hslot : site.slot with
    | some slot =>
      simp only [hslot] at h
      exact absurd h (by intro h; cases h)
    | none =>
      simp only [hslot] at h
      have hcan : site.canSchedule = true := by
        obtain ⟨hl, hn⟩ := Bool.or_eq_false_iff.1 hscope
        simp [Site.canSchedule, hslot, hl, hn]
      obtain ⟨arguments, s₁, hargs, h⟩ := bind_eq_ok.1 h
      obtain ⟨⟨location, read'⟩, s₂, hres, h⟩ := bind_eq_ok.1 h
      cases h
      exact ⟨hcan, arguments, location, s₁, s₂, hargs, hres, .pushNode s₂ _, rfl, rfl⟩

theorem ensureIndex_ok (h : ensureIndex s = .ok u t) :
    Emits s t [] ∧ t.steps.index.isSome = true ∧ t.scope = s.scope := by
  unfold ensureIndex at h
  obtain ⟨_, _, hget, h⟩ := bind_eq_ok.1 h
  cases hget
  cases hi : s.steps.index with
  | some x =>
    simp only [hi, Option.isNone_some, Bool.false_eq_true, if_false] at h
    obtain ⟨_, rfl⟩ := pure_eq_ok.1 h
    exact ⟨.refl s, by simp [hi], rfl⟩
  | none =>
    simp only [hi, Option.isNone_none, if_true] at h
    cases h
    refine ⟨?_, rfl, rfl⟩
    exact {
      same := fun _ => ⟨rfl, rfl⟩
      append := fun h => absurd rfl h
      locals := rfl
      counter := Nat.le_succ _
      errors := id
      index := fun x hx => by rw [hi] at hx; cases hx
      generated := fun h => h.useIndex hi _ }

theorem wordSub_eq {k m n : Nat} (h : m = k + n) : wordSub m n = k := by
  rw [wordSub, if_pos (by omega)]
  omega

theorem pushSkip_ok (h : pushSkip before condition onSkip s = .ok position t)
    (hindex : s.steps.index.isSome = true) :
    position = s.steps.flush.steps.length ∧ t.lower = s.lower ∧
      Emits s t [.skip before condition onSkip 0] ∧ t.scope = s.scope := by
  cases h
  refine ⟨wordSub_eq (by simp [StepList.length, StepList.pushSkip, StepList.push]), rfl,
    .push s fun hnone => ?_, rfl⟩
  simp [hnone] at hindex

/-- What the skip of an operator runs, when it skips, and what it runs then. -/
def skipParts (op : BinaryOp) (left : Expr) (result held : String) (ty heldType : TypeName) :
    List CodeStmt × Expr × List CodeStmt :=
  match op with
  | .andAlso => ([setVar result left], .not (getVar result), [])
  | .orElse => ([setVar result left], getVar result, [])
  | _ => ([.localVar held heldType (some left)], .apply .ne (.ident held) .null,
      [setVar result (.cast {} ty (.ident held))])

def operatorStep (op : BinaryOp) (left : Expr) (result held : String) (ty heldType : TypeName)
    (distance : Nat) : Step :=
  let parts := skipParts op left result held ty heldType
  .skip parts.1 (some parts.2.1) parts.2.2 distance

theorem operatorSkip_ok (h : operatorSkip c op lhs left result ty s = .ok position t)
    (hindex : s.steps.index.isSome = true) :
    position = s.steps.flush.steps.length ∧ t.scope = s.scope ∧ ∃ n heldType,
      Emits s t [operatorStep op left result (heldName n) ty heldType 0] := by
  unfold operatorSkip at h
  split at h
  · obtain ⟨hposition, -, hem, hscope⟩ := pushSkip_ok h hindex
    exact ⟨hposition, hscope, 0, .object, hem⟩
  · obtain ⟨hposition, -, hem, hscope⟩ := pushSkip_ok h hindex
    exact ⟨hposition, hscope, 0, .object, hem⟩
  case h_3 hand hor =>
    obtain ⟨held, r, hheld, h⟩ := bind_eq_ok.1 h
    cases hheld
    obtain ⟨hposition, -, hem, hscope⟩ := pushSkip_ok h hindex
    have hcount : Emits s { s with
        lower := { s.lower with counter := s.lower.counter + 1 } } [] :=
      .of_steps_eq rfl rfl (Nat.le_succ _) id
    refine ⟨hposition, hscope, s.lower.counter + 1, (c.exprType? lhs).getD .object, ?_⟩
    have hparts : skipParts op left result (heldName (s.lower.counter + 1)) ty
        ((c.exprType? lhs).getD .object) = skipParts .coalesce left result
          (heldName (s.lower.counter + 1)) ty ((c.exprType? lhs).getD .object) := by
      cases op
      case andAlso => exact absurd rfl hand
      case orElse => exact absurd rfl hor
      all_goals rfl
    rw [operatorStep, hparts]
    exact hcount.trans hem

theorem skipToHere_rest (h : skipToHere position s = .ok u t) :
    t.lower = s.lower ∧ t.scope = s.scope := by
  cases h
  exact ⟨rfl, rfl⟩

/-- A skip passes over the steps since, and over the statement after them. -/
theorem skipToHere_ok {r : StageState} {a b : List Step} {distance : Nat} {u : Unit}
    {stmt : CodeStmt} (hem : Emits s r (a ++ .skip before condition onSkip distance :: b))
    (hposition : position = s.steps.flush.steps.length + a.length)
    (h : skipToHere position { r with steps := r.steps.pushPlain stmt } = .ok u t) : Emits s t
      (a ++ .skip before condition onSkip (b.length + 1) :: (b ++ [.node (.code [stmt])])) := by
  have hclose := hem.close (by simp) stmt
  cases h
  have hlength : (r.steps.pushPlain stmt).flush.length =
      s.steps.flush.steps.length + a.length + (b.length + 2) := by
    have := (hclose.append (by simp)).1
    have := congrArg length this
    simp only [StepList.length, length_append, length_cons, length_nil] at this ⊢
    omega
  rw [append_assoc, cons_append] at hclose
  have hdistance : wordSub (wordSub (r.steps.pushPlain stmt).flush.length position) 1 =
      b.length + 1 := wordSub_eq (wordSub_eq (by omega))
  rw [← hdistance]
  exact hclose.patch hposition _

/-- The steps of an operator whose right side may be skipped: `b` are those of the right side. -/
def operatorSteps (op : BinaryOp) (left : Expr) (result held : String) (ty heldType : TypeName)
    (b : List Step) (right : Expr) : List Step :=
  operatorStep op left result held ty heldType (b.length + 1) ::
    (b ++ [.node (.code [setVar result right])])

theorem shortCircuit_ok (h : shortCircuit c e op lhs left right s = .ok e' t) :
    ∃ l r n m ty heldType s₁ s₂ s₃, left s = .ok l s₁ ∧ right s₂ = .ok r s₃ ∧
      e' = getVar (resultName n) ∧ s₁.lower.counter < n ∧ n ≤ s₂.lower.counter ∧
      t.lower = s₃.lower ∧ s₂.scope = s₁.scope ∧ t.scope = s₃.scope ∧
      ∀ a b, Emits s s₁ a → Emits s₂ s₃ b → Emits s t (a ++
          operatorSteps op l (resultName n) (heldName m) ty heldType b r) := by
  unfold shortCircuit at h
  obtain ⟨l, s₁, hleft, h⟩ := bind_eq_ok.1 h
  obtain ⟨_, r₁, hindex, h⟩ := bind_eq_ok.1 h
  obtain ⟨hem₁, hsome, hscope₁⟩ := ensureIndex_ok hindex
  obtain ⟨name, r₂, hname, h⟩ := bind_eq_ok.1 h
  obtain ⟨rfl, hcounter, hem₂, hscope₂⟩ := temp_ok hname
  obtain ⟨position, s₂, hskip, h⟩ := bind_eq_ok.1 h
  obtain ⟨hposition, hscope₃, m, heldType, hem₃⟩ :=
    operatorSkip_ok hskip (hem₂.isSome_index hsome)
  obtain ⟨r, s₃, hright, h⟩ := bind_eq_ok.1 h
  obtain ⟨_, r₃, hpush, h⟩ := bind_eq_ok.1 h
  cases hpush
  obtain ⟨_, r₄, hhere, h⟩ := bind_eq_ok.1 h
  obtain ⟨rfl, rfl⟩ := pure_eq_ok.1 h
  let ty := if op == .coalesce then (c.exprType? e).getD .object else .boolean
  refine ⟨l, r, r₂.lower.counter, m, ty, heldType, s₁, s₂, s₃, hleft, hright, rfl, ?_,
    hem₃.counter, (skipToHere_rest hhere).1, hscope₃.trans (hscope₂.trans hscope₁),
    (skipToHere_rest hhere).2, ?_⟩
  · rw [hcounter]
    exact Nat.lt_succ_of_le hem₁.counter
  · intro a b ha hb
    have hbase := ha.trans (hem₁.trans hem₂)
    rw [append_nil, append_nil] at hbase
    refine skipToHere_ok (hbase.trans (hem₃.trans hb)) ?_ hhere
    rw [hposition, hbase.flush_eq, length_append]

/-- The steps of a choice: `b` are those of the first side, `d` those of the second. -/
def choiceSteps (test : Expr) (result : String) (b : List Step) (first : Expr) (d : List Step)
    (second : Expr) : List Step :=
  .skip [] (some (.not test)) [] (b.length + 1) :: (b ++
    .skip [setVar result first] none [] (d.length + 1) ::
      (d ++ [.node (.code [setVar result second])]))

theorem choice_ok {condition yes no : Stage Expr} {e' : Expr}
    (h : choice ty condition yes no s = .ok e' t) :
    ∃ test first second n s₁ s₂ s₃ s₄ s₅, condition s = .ok test s₁ ∧
      yes s₂ = .ok first s₃ ∧ no s₄ = .ok second s₅ ∧ e' = getVar (resultName n) ∧
      s₁.lower.counter < n ∧ n ≤ s₂.lower.counter ∧ s₃.lower.counter ≤ s₄.lower.counter ∧
      t.lower = s₅.lower ∧ s₂.scope = s₁.scope ∧ s₄.scope = s₃.scope ∧ t.scope = s₅.scope ∧
      ∀ a b d, Emits s s₁ a → Emits s₂ s₃ b → Emits s₄ s₅ d →
        Emits s t (a ++ choiceSteps test (resultName n) b first d second) := by
  unfold choice at h
  obtain ⟨test, s₁, htest, h⟩ := bind_eq_ok.1 h
  obtain ⟨_, r₁, hindex, h⟩ := bind_eq_ok.1 h
  obtain ⟨hem₁, hsome, hscope₁⟩ := ensureIndex_ok hindex
  obtain ⟨name, r₂, hname, h⟩ := bind_eq_ok.1 h
  obtain ⟨rfl, hcounter, hem₂, hscope₂⟩ := temp_ok hname
  obtain ⟨toElse, s₂, hskip, h⟩ := bind_eq_ok.1 h
  have hsome₂ := hem₂.isSome_index hsome
  obtain ⟨hposition, hlower₂, hem₃, hscope₃⟩ := pushSkip_ok hskip hsome₂
  obtain ⟨first, s₃, hyes, h⟩ := bind_eq_ok.1 h
  obtain ⟨toEnd, r₃, hskip', h⟩ := bind_eq_ok.1 h
  obtain ⟨_, s₄, hpatch, h⟩ := bind_eq_ok.1 h
  cases hpatch
  obtain ⟨second, s₅, hno, h⟩ := bind_eq_ok.1 h
  obtain ⟨_, r₄, hpush, h⟩ := bind_eq_ok.1 h
  cases hpush
  obtain ⟨_, r₅, hhere, h⟩ := bind_eq_ok.1 h
  obtain ⟨rfl, rfl⟩ := pure_eq_ok.1 h
  refine ⟨test, first, second, r₂.lower.counter, s₁, s₂, s₃, _, s₅, htest, hyes, hno, rfl, ?_,
    ?_, ?_, (skipToHere_rest hhere).1, hscope₃.trans (hscope₂.trans hscope₁), ?_,
    (skipToHere_rest hhere).2, ?_⟩
  · rw [hcounter]
    exact Nat.lt_succ_of_le hem₁.counter
  · exact Nat.le_of_eq (by rw [hlower₂])
  · cases hskip'
    exact Nat.le_refl _
  · cases hskip'
    rfl
  · intro a b d ha hb hd
    obtain ⟨hposition', -, hem₄, -⟩ :=
      pushSkip_ok hskip' (hb.isSome_index (hem₃.isSome_index hsome₂))
    have hbase := ha.trans (hem₁.trans hem₂)
    rw [append_nil, append_nil] at hbase
    have hfirst := hbase.trans (hem₃.trans hb)
    rw [hbase.flush_eq, length_append] at hposition
    rw [hfirst.flush_eq] at hposition'
    have hopen := hfirst.trans hem₄
    rw [append_assoc, singleton_append, cons_append] at hopen
    have hdistance : wordSub toEnd toElse = b.length + 1 := by
      refine wordSub_eq ?_
      rw [hposition', hposition]
      simp only [length_append, length_cons, length_nil]
      omega
    have hpatch := hopen.patch hposition (wordSub toEnd toElse)
    have hboth := hpatch.trans hd
    rw [hdistance, append_assoc, cons_append, append_assoc,
      singleton_append] at hboth
    rw [← cons_append, ← append_assoc] at hboth
    have := skipToHere_ok hboth (by simpa [Nat.add_assoc] using hposition') hhere
    simpa [choiceSteps] using this

end Stage

end Workflow
