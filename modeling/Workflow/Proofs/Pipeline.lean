import Workflow.Proofs.Build.Program
import Workflow.Proofs.Resolve.Correlation

/-!
# The stages of compilation

Each stage either yields what all units yield, or it stops with the errors of all units, in order. A
unit is resolved with the same errors whatever other units have. The oracle is asked for node types
first, if anything is imported, and then about the units.
-/

namespace Workflow

open List CompilationUnit Resolve Diagnostics

variable {es : List CompileError} {p : ParseProgram}
variable {built units : List CompilationUnit} {activities : List CompiledActivity}

section Outcome

variable {ε α β : Type} {x : Except ε α} {f : α → β}

theorem map_eq_ok {b : β} : x.map f = .ok b ↔ ∃ a, x = .ok a ∧ f a = b := by
  cases x <;> simp [Except.map]

theorem map_eq_error {e : ε} : x.map f = .error e ↔ x = .error e := by
  cases x <;> simp [Except.map]

theorem stop_eq_error (errors : List CompileError) {v : α} :
    (if errors.isEmpty then .ok v else .error errors : Except (List CompileError) α) = .error es ↔
      es = errors ∧ es ≠ [] := by
  cases errors with
  | nil => simp
  | cons e rest =>
    refine ⟨fun h => ?_, fun h => ?_⟩
    · cases h
      exact ⟨rfl, cons_ne_nil e rest⟩
    · rw [h.1]
      rfl

end Outcome

namespace Diagnostics

variable {d : Diagnostics}

theorem checkpoint_eq_ok : d.checkpoint = .ok v ↔ d.errors = [] := by
  unfold checkpoint isEmpty
  cases d.errors <;> simp

theorem checkpoint_eq_error : d.checkpoint = .error es ↔ es = d.errors ∧ es ≠ [] := stop_eq_error _

end Diagnostics

namespace CompilationUnit

/-! ### Gathering outcomes -/

section Gather

variable {α : Type}

def failures : Except (List CompileError) α → List CompileError
  | .error es => es
  | .ok _ => []

def Proper (x : Except (List CompileError) α) : Prop := x ≠ .error []

variable {outcomes : List (Except (List CompileError) α)}

theorem gather_eq_ok (h : ∀ x ∈ outcomes, Proper x) {vs : List α} :
    gather outcomes = .ok vs ↔ outcomes = vs.map .ok := by
  induction outcomes generalizing vs with
  | nil => cases vs <;> simp [gather]
  | cons x outcomes ih =>
    obtain ⟨hx, hrest⟩ := forall_mem_cons.1 h
    cases x with
    | error es =>
      refine iff_of_false (gather_cons_error (fun hnil => hx (hnil ▸ rfl)) _ _) ?_
      cases vs <;> simp
    | ok v =>
      rw [gather_cons_ok]
      constructor
      · intro hok
        cases hgather : gather outcomes with
        | error es =>
          rw [hgather] at hok
          cases hok
        | ok ws =>
          rw [hgather] at hok
          cases hok
          rw [(ih hrest).1 hgather]
          rfl
      · intro heq
        cases vs with
        | nil => cases heq
        | cons w ws =>
          obtain ⟨hv, htail⟩ := cons.inj heq
          cases hv
          rw [(ih hrest).2 htail]
          rfl

theorem gather_eq_error : gather outcomes = .error es ↔ es = outcomes.flatMap failures ∧ es ≠ [] :=
  stop_eq_error (outcomes.flatMap failures)

end Gather

end CompilationUnit

/-! ### Resolving -/

variable {a : Activity}

namespace Resolve

variable {α β : Type} {x : Resolve α} {f : α → Resolve β} {ids : Ids}

/-- Run on an activity, the step does the same whatever was reported before, and adds errors. -/
def Adds (x : Resolve α) (ids : Ids) (a : Activity) : Prop :=
  ∃ v ids' b es, ∀ errors, x { ids := ids, activity := a, errors := errors } =
    (v, { ids := ids', activity := b, errors := errors.extend es })

theorem Rewrites.adds {v : α} {g : StmtId → StmtKind → StmtKind}
    (h : Rewrites x a v g es) : Adds x ids a :=
  ⟨v, ids, a.rekind g, es, fun _ => h _ rfl⟩

namespace Adds

theorem bind_activity {f : Activity → Resolve β} (h : Adds (f a) ids a) :
    Adds (activity >>= f) ids a := h

theorem of_same (v : α) (ids' : Ids) (b : Activity)
    (h : ∀ errors, x { ids := ids, activity := a, errors := errors } =
      (v, { ids := ids', activity := b, errors := errors })) : Adds x ids a :=
  ⟨v, ids', b, [], fun errors => by rw [h, extend, append_nil]⟩

theorem bind (hx : Adds x ids a) (hf : ∀ v ids b, Adds (f v) ids b) : Adds (x >>= f) ids a := by
  obtain ⟨v, ids', b, es, hx⟩ := hx
  obtain ⟨w, ids'', c, es', hf⟩ := hf v ids' b
  refine ⟨w, ids'', c, es ++ es', fun errors => ?_⟩
  rw [bind_run, hx, hf, extend, extend, extend,
    append_assoc]

theorem report (cause : Cause) (span : Span) : Adds (report cause span) ids a :=
  ⟨(), ids, a, [cause.error span], fun _ => rfl⟩

theorem modifyActivity (g : Activity → Activity) : Adds (modifyActivity g) ids a :=
  .of_same () ids (g a) fun _ => rfl

theorem ite {c : Prop} [Decidable c] {y : Resolve α} (hx : Adds x ids a) (hy : Adds y ids a) :
    Adds (if c then x else y) ids a := by
  split
  · exact hx
  · exact hy

end Adds

theorem adds_declareHandle (q : StmtId) : Adds (declareHandle q) ids a := by
  let ids' : Ids := { ids with markers := ids.markers + 1 }
  let b := (a.nextTemp "handle").2
  let store : Store :=
    { name := (a.nextTemp "handle").1, ty := correlationHandleType, kind := .var
      marker := ids'.markers, host := .activity, span := b.stmtSpan q }
  cases hdeclare : b.declare store with
  | error e =>
    refine ⟨none, ids', b, [e], fun errors => ?_⟩
    unfold declareHandle
    dsimp only [modifyGet, MonadStateOf.modifyGet, StateT.modifyGet]
    rw [hdeclare]
    rfl
  | ok d =>
    refine .of_same (some d.1) ids' d.2 fun errors => ?_
    unfold declareHandle
    dsimp only [modifyGet, MonadStateOf.modifyGet, StateT.modifyGet]
    rw [hdeclare]
    rfl

theorem adds_correlateReply (ops before : List StmtId) (r : StmtId) (reply : ServiceOperation) :
    Adds (correlateReply ops before r reply) ids a := by
  refine .bind_activity ?_
  dsimp only
  split
  · exact .report _ _
  split
  · exact .of_same () _ _ fun _ => rfl
  refine .ite (.report _ _) ((adds_declareHandle _).bind fun handle _ _ => ?_)
  cases handle with
  | none => exact .of_same () _ _ fun _ => rfl
  | some handle => exact (Adds.modifyActivity _).bind fun _ _ _ => .modifyActivity _

theorem adds_correlateFrom (ops before rest : List StmtId) :
    Adds (correlateFrom ops before rest) ids a := by
  induction rest generalizing before ids a with
  | nil => exact .of_same () _ _ fun _ => rfl
  | cons id rest ih =>
    refine .bind_activity ?_
    dsimp only
    split
    · exact .ite ((adds_correlateReply _ _ _ _).bind fun _ _ _ => ih _) (ih _)
    · exact ih _

end Resolve

/-- A well-built activity is resolved with the same errors whatever was reported before. -/
theorem Activity.WellBuilt.resolve_extend (ha : a.WellBuilt) (ids : Ids) :
    ∃ b ids' es, ∀ errors, a.resolve ids errors = (b, ids', errors.extend es) := by
  have hjumps : Adds (a.preorder.forM jumps) ids a :=
    (rewrites_preorder ha).adds
  obtain ⟨_, ids', b, es, hall⟩ : Adds all ids a :=
    .bind_activity (hjumps.bind fun _ _ _ => .bind_activity (adds_correlateFrom _ _ _))
  refine ⟨b, ids', es, fun errors => ?_⟩
  change (let s := (all { ids := ids, activity := a, errors := errors }).2
    (s.activity, s.ids, s.errors)) = _
  rw [hall]

namespace CompilationUnit

variable {as : List Activity} {us : List CompilationUnit}

theorem resolveActivities_extend (h : ∀ a ∈ as, a.WellBuilt) (ids : Ids) :
    ∃ bs ids' es, ∀ errors, resolveActivities ids errors as = (bs, ids', errors.extend es) := by
  induction as generalizing ids with
  | nil =>
    refine ⟨[], ids, [], fun errors => ?_⟩
    rw [resolveActivities, extend, append_nil]
  | cons a as ih =>
    obtain ⟨ha, has⟩ := forall_mem_cons.1 h
    obtain ⟨b, ids', es, hfirst⟩ := ha.resolve_extend ids
    obtain ⟨bs, ids'', es', hrest⟩ := ih has ids'
    refine ⟨b :: bs, ids'', es ++ es', fun errors => ?_⟩
    simp only [resolveActivities, hfirst, hrest, extend, append_assoc]

/-- The units resolved one after the other, each with the errors that it has itself. -/
def resolveEach (ids : Ids) : List CompilationUnit → List (CompilationUnit × List CompileError)
  | [] => []
  | u :: rest =>
    let (u, ids, errors) := u.resolve ids {}
    (u, errors.errors) :: resolveEach ids rest

theorem resolveAll_eq (h : ∀ u ∈ us, ∀ a ∈ u.activities, a.WellBuilt) (ids : Ids)
    (errors : Diagnostics) : ∃ ids', resolveAll ids errors us =
      ((resolveEach ids us).map (·.1), ids',
        errors.extend ((resolveEach ids us).flatMap (·.2))) := by
  induction us generalizing ids errors with
  | nil => exact ⟨ids, by rw [resolveAll, resolveEach, map_nil, flatMap_nil,
      extend, append_nil]⟩
  | cons u us ih =>
    obtain ⟨hu, hus⟩ := forall_mem_cons.1 h
    obtain ⟨bs, ids', es, hfirst⟩ := resolveActivities_extend hu ids
    obtain ⟨ids'', hrest⟩ := ih hus ids' (errors.extend es)
    refine ⟨ids'', ?_⟩
    simp only [resolveAll, resolveEach, resolve, hfirst, hrest]
    simp only [extend, nil_append, map_cons, flatMap_cons,
      append_assoc]

/-! ### Preparing -/

theorem proper_buildEach (us : List ParseUnit) (ids : Ids) (index : Nat) :
    ∀ x ∈ (buildEach ids index us).1, Proper x := by
  induction us generalizing ids index with
  | nil => exact fun x hx => by cases hx
  | cons u us ih =>
    rw [buildEach]
    exact forall_mem_cons.2 ⟨fun h => build_error h rfl, ih _ _⟩

theorem wellBuilt_built (h : (buildEach {} 0 p.units).1 = built.map .ok) :
    ∀ u ∈ built, ∀ a ∈ u.activities, a.WellBuilt := by
  have hgather := (gather_eq_ok (proper_buildEach _ _ _)).2 h
  have hmade := (made_buildEach p.units {} 0 hgather).allocated.wellBuilt
  exact fun u hu a ha => hmade a (mem_flatMap.2 ⟨u, hu, ha⟩)

/-- A unit that cannot be built stops the preparation with the errors of all such units. -/
theorem prepare_of_error (h : ∃ es, .error es ∈ (buildEach {} 0 p.units).1) :
    prepare p = .error ((buildEach {} 0 p.units).1.flatMap failures) := by
  obtain ⟨es, hes⟩ := h
  have hproper : es ≠ [] := fun hnil => proper_buildEach p.units {} 0 _ hes (hnil ▸ rfl)
  have hne : (buildEach {} 0 p.units).1.flatMap failures ≠ [] := fun hnil =>
    hproper (flatMap_eq_nil_iff.1 hnil _ hes)
  have hgather := gather_eq_error.2 ⟨rfl, hne⟩
  unfold prepare buildAll
  dsimp only
  rw [hgather]
  rfl

/-- Units that are built are resolved, and stop the preparation if any of them has errors. -/
theorem prepare_of_built (h : (buildEach {} 0 p.units).1 = built.map .ok) :
    let resolved := resolveEach (buildEach {} 0 p.units).2 built
    prepare p = if (resolved.flatMap (·.2)).isEmpty then .ok (resolved.map (·.1))
      else .error (resolved.flatMap (·.2)) := by
  intro resolved
  have hgather := (gather_eq_ok (proper_buildEach p.units {} 0)).2 h
  obtain ⟨ids', hresolve⟩ := resolveAll_eq (wellBuilt_built h) (buildEach {} 0 p.units).2 {}
  have hprepare : prepare p = do
      (resolveAll (buildEach {} 0 p.units).2 {} built).2.2.checkpoint
      return (resolveAll (buildEach {} 0 p.units).2 {} built).1 := by
    unfold prepare buildAll
    dsimp only
    rw [hgather]
    rfl
  rw [hprepare, hresolve]
  change (if (resolved.flatMap (·.2)).isEmpty then Except.ok () else .error _) >>= _ = _
  split <;> rfl

/-! ### What is taken over from the source -/

def outline (u : CompilationUnit) : Nat × List String × List (Option String) :=
  (u.index, u.imports, u.activities.map fun a => some a.name)

theorem names_add {p : Progress} {node : ParseNode}
    (h : (p.add unit node).errors.errors = []) : p.errors.errors = [] ∧
      (p.add unit node).activities.map (fun a => some a.name) =
        p.activities.map (fun a => some a.name) ++ [node.text] := by
  unfold Progress.add at h ⊢
  split at h
  · simp at h
  · next a ids' hbuild =>
    split at h
    · simp [Diagnostics.report] at h
    · next hnew =>
      rw [if_neg hnew, Activity.build_name hbuild]
      exact ⟨h, map_append⟩

theorem names_foldl (nodes : List ParseNode) {p : Progress}
    (h : (nodes.foldl (Progress.add unit) p).errors.errors = []) : p.errors.errors = [] ∧
      (nodes.foldl (Progress.add unit) p).activities.map (fun a => some a.name) =
        p.activities.map (fun a => some a.name) ++ nodes.map (·.text) := by
  induction nodes generalizing p with
  | nil => exact ⟨h, (append_nil _).symm⟩
  | cons node nodes ih =>
    obtain ⟨hadd, hnames⟩ := ih h
    obtain ⟨hp, hname⟩ := names_add hadd
    exact ⟨hp, by rw [foldl_cons, hnames, hname, append_assoc]; rfl⟩

theorem outline_build {ids : Ids} {index : Nat} {u : ParseUnit} {unit : CompilationUnit}
    (h : (build ids index u).1 = .ok unit) :
    unit.outline = (index, u.imports, u.activities.map (·.text)) := by
  obtain ⟨_, hcheck, rfl⟩ := map_eq_ok.1 h
  exact congrArg (fun names => (index, u.imports, names))
    (names_foldl u.activities (checkpoint_eq_ok.1 hcheck)).2

theorem outline_buildEach {us : List ParseUnit} {ids : Ids} {index : Nat}
    (h : (buildEach ids index us).1 = built.map .ok) :
    built.map outline = (us.zipIdx index).map fun u =>
      (u.2, u.1.imports, u.1.activities.map (·.text)) := by
  induction us generalizing ids index built with
  | nil =>
    cases built with
    | nil => rfl
    | cons unit built => cases h
  | cons u us ih =>
    cases built with
    | nil => cases h
    | cons unit built =>
      obtain ⟨hfirst, hrest⟩ := cons.inj h
      rw [map_cons, zipIdx_cons, map_cons, outline_build hfirst, ih hrest]

theorem names_of_keeps (h : Forall₂ Activity.Keeps as bs) :
    bs.map (fun a => some a.name) = as.map fun a => some a.name := by
  induction h with
  | nil => rfl
  | cons hab _ ih => rw [map_cons, map_cons, ih, hab.name]

theorem outline_resolve (u : CompilationUnit) (ids : Ids) (errors : Diagnostics) :
    (u.resolve ids errors).1.outline = u.outline :=
  congrArg (fun names => (u.index, u.imports, names))
    (names_of_keeps (keeps_resolveActivities u.activities ids errors))

theorem outline_resolveEach (us : List CompilationUnit) (ids : Ids) :
    ((resolveEach ids us).map (·.1)).map outline = us.map outline := by
  induction us generalizing ids with
  | nil => rfl
  | cons u us ih => exact congrArg₂ cons (outline_resolve u ids {}) (ih _)

end CompilationUnit

theorem ModelProgram.indices_emit (units : List CompilationUnit) (external : List ModelType) :
    (ModelProgram.emit units external).units.map (·.index) = units.map (·.index) := by
  have hall : ∀ s, ((units.mapM (Emit.unit external)).run s).1.map (·.index) =
      units.map (·.index) := by
    induction units with
    | nil => exact fun _ => rfl
    | cons u units ih =>
      intro s
      rw [mapM_cons]
      exact congrArg (u.index :: ·) (ih _)
  exact hall {}

namespace CompilationUnit

/-! ### Lowering -/

theorem wellBuilt_prepare (h : prepare p = .ok units) :
    ∀ u ∈ units, ∀ a ∈ u.activities, a.WellBuilt := by
  obtain ⟨n, hallocated⟩ := allocated_prepare h
  exact fun u hu a ha => hallocated.wellBuilt a (mem_flatMap.2 ⟨u, hu, ha⟩)

theorem outline_prepare (h : prepare p = .ok units) :
    units.map outline = p.units.zipIdx.map fun u =>
      (u.2, u.1.imports, u.1.activities.map (·.text)) := by
  obtain ⟨built, ids, hbuild, rfl⟩ := prepare_eq_ok h
  obtain ⟨hgather, rfl⟩ := gather_of_buildAll hbuild
  have hbuilt := (gather_eq_ok (proper_buildEach p.units {} 0)).1 hgather
  obtain ⟨ids', hresolve⟩ := resolveAll_eq (wellBuilt_built hbuilt) (buildEach {} 0 p.units).2 {}
  rw [hresolve, outline_resolveEach, outline_buildEach hbuilt]

variable {u : CompilationUnit} {units : List CompilationUnit} {x : SemanticIndex} {d : Nat}

def compiled (u : CompilationUnit) (x : SemanticIndex) (d : Nat) (a : Activity) :
    CompiledActivity :=
  { unit := u.index, name := (a.lower u.ns x d).1.name, graph := (a.lower u.ns x d).1 }

def loweringErrors (u : CompilationUnit) (x : SemanticIndex) (d : Nat) : List CompileError :=
  u.activities.flatMap fun a => (a.lower u.ns x d).2

def lowerUnit (x : SemanticIndex) (d : Nat) (u : CompilationUnit) :
    Except (List CompileError) (List CompiledActivity) :=
  (u.lower x d).map fun graphs =>
    graphs.map fun g => { unit := u.index, name := g.name, graph := g }

theorem lowerUnit_eq_error : lowerUnit x d u = .error es ↔ es = u.loweringErrors x d ∧ es ≠ [] := by
  unfold lowerUnit lower
  dsimp only
  rw [map_eq_error, map_eq_error, checkpoint_eq_error, flatMap_map]
  rfl

theorem lowerUnit_eq_ok : lowerUnit x d u = .ok activities ↔
      u.loweringErrors x d = [] ∧ activities = u.activities.map (u.compiled x d) := by
  unfold lowerUnit lower
  dsimp only
  simp only [map_eq_ok, checkpoint_eq_ok, flatMap_map]
  constructor
  · rintro ⟨_, ⟨_, herrors, rfl⟩, rfl⟩
    exact ⟨herrors, by simp only [map_map]; rfl⟩
  · rintro ⟨herrors, rfl⟩
    exact ⟨_, ⟨(), herrors, rfl⟩, by simp only [map_map]; rfl⟩

theorem failures_lowerUnit : failures (lowerUnit x d u) = u.loweringErrors x d := by
  cases h : lowerUnit x d u with
  | ok activities => exact (lowerUnit_eq_ok.1 h).1.symm
  | error es => exact (lowerUnit_eq_error.1 h).1

theorem lowerAll_eq_error :
    lowerAll units x d = .error es ↔ es = units.flatMap (·.loweringErrors x d) ∧ es ≠ [] := by
  have hlower : lowerAll units x d = (gather (units.map (lowerUnit x d))).map flatten := rfl
  rw [hlower, map_eq_error, gather_eq_error, flatMap_map]
  simp only [failures_lowerUnit]

theorem lowerAll_eq_ok :
    lowerAll units x d = .ok activities ↔ units.flatMap (·.loweringErrors x d) = [] ∧
      activities = units.flatMap fun u => u.activities.map (u.compiled x d) := by
  have hlower : lowerAll units x d = (gather (units.map (lowerUnit x d))).map flatten := rfl
  have hproper : ∀ o ∈ units.map (lowerUnit x d), Proper o := by
    intro o ho hnil
    obtain ⟨u, -, rfl⟩ := mem_map.1 ho
    exact (lowerUnit_eq_error.1 hnil).2 rfl
  have hall : units.flatMap (·.loweringErrors x d) = [] ↔ units.map (lowerUnit x d) =
      (units.map fun u => u.activities.map (u.compiled x d)).map .ok := by
    rw [flatMap_eq_nil_iff, map_map, map_inj_left]
    exact forall₂_congr fun u _ => by
      rw [Function.comp_apply, lowerUnit_eq_ok]
      exact (and_iff_left rfl).symm
  constructor
  · intro hok
    have hnil : units.flatMap (·.loweringErrors x d) = [] := by
      by_contra hne
      rw [lowerAll_eq_error.2 ⟨rfl, hne⟩] at hok
      cases hok
    rw [hlower, (gather_eq_ok hproper).2 (hall.1 hnil)] at hok
    cases hok
    exact ⟨hnil, rfl⟩
  · rintro ⟨hnil, rfl⟩
    rw [hlower, (gather_eq_ok hproper).2 (hall.1 hnil)]
    rfl

end CompilationUnit

/-! ### Asking the oracle -/

namespace CompilationInput

section Finish

variable {config : CompilerConfig} {units : List CompilationUnit} {model : ModelProgram}
  {answer : SemanticModel}

theorem finish_of_errors (h : model.unanswered answer.index = [])
    (hes : lowerAll units answer.index config.maxExprDepth = .error es) :
    finish config units model answer = .error (.errors es) := by
  unfold finish
  dsimp only
  rw [h, hes]

theorem finish_eq_ok :
    finish config units model answer = .ok out ↔ model.unanswered answer.index = [] ∧
      ∃ activities, lowerAll units answer.index config.maxExprDepth = .ok activities ∧ out =
          { activities := activities
            support := SupportDecl.all
            checksum := CompilationOutput.checksumOf activities
            model := if config.debug then some model.units else none } := by
  unfold finish
  dsimp only
  constructor
  · intro h
    split at h
    · cases h
    · next hanswered =>
      split at h
      · cases h
      · next activities hlower =>
        cases h
        exact ⟨hanswered, activities, hlower, rfl⟩
  · rintro ⟨hanswered, activities, hlower, rfl⟩
    rw [hanswered, hlower]

end Finish

variable {m : Type → Type} [Monad m]

def respond (config : CompilerConfig) (units : List CompilationUnit) (model : ModelProgram) :
    Except OracleError SemanticModel → Except CompileFailure CompilationOutput
  | .error e => .error (e.failure model.marking)
  | .ok answer => finish config units model answer

def conclude (oracle : SemanticOracle m) (config : CompilerConfig) (references : List String)
    (units : List CompilationUnit) :
    Except OracleError (List ExternalNodeType) → m (Except CompileFailure CompilationOutput)
  | .error e => return .error (e.failure {})
  | .ok found => do
    let model := ModelProgram.emit units (ExternalNodeType.synthesize found)
    return respond config units model (← oracle.analyze model.units references)

variable (oracle : SemanticOracle m) (config : CompilerConfig) (references : List String)
  {units : List CompilationUnit}

theorem analyze_of_imports_nil [LawfulMonad m] (h : allImports units = []) :
    analyze oracle config references units = conclude oracle config references units (.ok []) := by
  unfold analyze
  simp only [h, isEmpty_nil, if_true, pure_bind]
  exact bind_congr fun answer => by cases answer <;> rfl

theorem analyze_of_imports (h : allImports units ≠ []) : analyze oracle config references units =
      oracle.discover (allImports units) references >>= conclude oracle config references units := by
  unfold analyze
  dsimp only
  rw [if_neg (by simpa using h)]
  refine bind_congr fun found => ?_
  cases found with
  | error e => rfl
  | ok found => exact bind_congr fun answer => by cases answer <;> rfl

/-- The answer to the question for node types, which is asked only if something is imported. -/
def discovered {σ : Type} (oracle : SemanticOracle (StateM σ)) (references imports : List String)
    (s : σ) : Except OracleError (List ExternalNodeType) × σ :=
  if imports = [] then (.ok [], s) else oracle.discover imports references s

theorem analyze_run {σ : Type} (oracle : SemanticOracle (StateM σ)) (s : σ) :
    analyze oracle config references units s = conclude oracle config references units
        (discovered oracle references (allImports units) s).1
        (discovered oracle references (allImports units) s).2 := by
  by_cases h : allImports units = []
  · rw [analyze_of_imports_nil _ _ _ h, discovered, if_pos h]
  · rw [analyze_of_imports _ _ _ h, discovered, if_neg h]
    rfl

theorem exists_of_conclude_eq_ok {σ : Type} {oracle : SemanticOracle (StateM σ)} {s : σ}
    {config : CompilerConfig} {references : List String} {out : CompilationOutput}
    {found : Except OracleError (List ExternalNodeType)}
    (h : (conclude oracle config references units found s).1 = .ok out) :
    ∃ types answer, found = .ok types ∧
      (oracle.analyze (ModelProgram.emit units (ExternalNodeType.synthesize types)).units
        references s).1 = .ok answer ∧
      finish config units (ModelProgram.emit units (ExternalNodeType.synthesize types)) answer =
        .ok out := by
  cases found with
  | error e => cases h
  | ok types =>
    change respond _ _ _ (oracle.analyze _ _ s).1 = _ at h
    cases hanswer : (oracle.analyze (ModelProgram.emit units
      (ExternalNodeType.synthesize types)).units references s).1 with
    | error e =>
      rw [hanswer] at h
      cases h
    | ok answer =>
      rw [hanswer] at h
      exact ⟨types, answer, rfl, hanswer, h⟩

end CompilationInput

end Workflow
