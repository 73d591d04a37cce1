import Mathlib.Data.List.Induction
import Workflow.Proofs.Pipeline

/-!
# The order of the stages

A stage of compilation is entered only if all units have passed the stage before it. To see what an
oracle is asked, and when, its questions are recorded in the order in which they come.
-/

namespace Workflow

open List

/-- A question to an oracle. -/
inductive OracleCall where
  | discover (imports references : List String)
  | analyze (units : List ModelUnit) (references : List String)
deriving Inhabited

section Recording

variable {σ α : Type}

/-- Writes down a question after those that came before it. -/
def OracleCall.recording (call : OracleCall) (x : StateM σ α) : StateM (σ × List OracleCall) α :=
  fun s => ((x s.1).1, (x s.1).2, s.2 ++ [call])

/-- An oracle with the same answers, whose questions are written down. -/
def SemanticOracle.recorded (oracle : SemanticOracle (StateM σ)) :
    SemanticOracle (StateM (σ × List OracleCall)) where
  discover imports references :=
    (OracleCall.discover imports references).recording (oracle.discover imports references)
  analyze units references :=
    (OracleCall.analyze units references).recording (oracle.analyze units references)

end Recording

/-! ### Imports -/

/-- A list holds the texts of another one, each once, in the order in which they occur first. -/
structure FirstSeen (all once : List String) : Prop where
  mem_iff : ∀ i, i ∈ once ↔ i ∈ all
  nodup : once.Nodup
  ordered : once.Pairwise fun i j => all.idxOf i < all.idxOf j

theorem pairwise_eraseDups (l : List String) :
    l.eraseDups.Pairwise fun i j => l.idxOf i < l.idxOf j := by
  -- The last text comes after all others, and it is left out if it is among them.
  induction l using reverseRecOn with
  | nil => exact .nil
  | append_singleton l x ih =>
    have hstep : (l ++ [x]).eraseDups = l.eraseDups ++ if x ∈ l then [] else [x] := by
      rw [eraseDups_append]
      by_cases hx : x ∈ l <;> simp [removeAll, hx, eraseDups_cons]
    have hold : ∀ i ∈ l.eraseDups, (l ++ [x]).idxOf i = l.idxOf i := fun i hi =>
      idxOf_append_of_mem (mem_eraseDups.1 hi)
    rw [hstep, pairwise_append]
    refine ⟨ih.imp_of_mem fun hi hj h => ?_, ?_, fun i hi j hj => ?_⟩
    · rwa [hold _ hi, hold _ hj]
    · split <;> simp
    · split at hj
      · cases hj
      · next hx =>
        rw [mem_singleton.1 hj, hold i hi, idxOf_append_of_notMem hx]
        exact (idxOf_lt_length_of_mem (mem_eraseDups.1 hi)).trans_le (Nat.le_add_right ..)

theorem firstSeen_eraseDups (l : List String) : FirstSeen l l.eraseDups where
  mem_iff _ := mem_eraseDups
  nodup := (pairwise_eraseDups l).imp fun h heq => h.ne (congrArg l.idxOf heq)
  ordered := pairwise_eraseDups l

namespace CompilationInput

open CompilationUnit

variable {σ : Type} (oracle : SemanticOracle (StateM σ)) (config : CompilerConfig)
  (input : CompilationInput) (references imports : List String) (units : List CompilationUnit)
  (s : σ)

/-! ### Questions -/

/-- The questions about units, once it is known which node types there are. -/
def analyses : Except OracleError (List ExternalNodeType) → List OracleCall
  | .error _ => []
  | .ok types => [.analyze (ModelProgram.emit units (ExternalNodeType.synthesize types)).units
      references]

/-- All questions, in order: for node types, if there are imports, and then about the units. -/
def questions : List OracleCall :=
  (if imports = [] then [] else [.discover imports references]) ++
    analyses references units (discovered oracle references imports s).1

variable {units}

theorem conclude_recorded (calls : List OracleCall)
    (found : Except OracleError (List ExternalNodeType)) :
    conclude oracle.recorded config references units found (s, calls) =
      ((conclude oracle config references units found s).1,
        (conclude oracle config references units found s).2,
        calls ++ analyses references units found) := by
  cases found with
  | error e => exact congrArg (fun calls => (_, s, calls)) (append_nil calls).symm
  | ok types => rfl

theorem analyze_recorded : analyze oracle.recorded config references units (s, []) =
      ((analyze oracle config references units s).1, (analyze oracle config references units s).2,
        questions oracle references (allImports units) units s) := by
  rw [analyze_run, analyze_run]
  by_cases h : allImports units = []
  · simp only [questions, discovered, if_pos h, conclude_recorded]
  · simp only [questions, discovered, if_neg h]
    exact conclude_recorded oracle config references _ _ _

/-! ### Stages -/

variable (units)

def outcomes : List (Except (List CompileError) CompilationUnit) :=
  (buildEach {} 0 input.program.units).1

/-- All units are built, and this is what each of them is resolved to, with its errors. -/
def Resolves (resolved : List (CompilationUnit × List CompileError)) : Prop :=
  ∃ built, outcomes input = built.map .ok ∧
    resolved = resolveEach (buildEach {} 0 input.program.units).2 built

def allReferences : List String := config.references ++ input.references

def trace : Except CompileFailure CompilationOutput × σ × List OracleCall :=
  input.compileWith oracle.recorded config (s, [])

/-- What follows once all units are prepared. -/
structure Asked : Prop where
  /-- There is a model program for each unit, whichever node types are found. -/
  all_units : ∀ external, (ModelProgram.emit units external).units.map (·.index) =
    range input.program.units.length
  /-- Node types are asked for once if a unit has imports, and then the units are asked about once,
  unless there was no answer. -/
  calls : ∃ imports, FirstSeen (input.program.units.flatMap (·.imports)) imports ∧
    (trace oracle config input s).2.2 =
      questions oracle (allReferences config input) imports units s
  /-- After the answers of the oracle the errors of all units are returned together. -/
  lowering : ∀ types t answer,
    discovered oracle (allReferences config input) (allImports units) s = (.ok types, t) →
    let model := ModelProgram.emit units (ExternalNodeType.synthesize types)
    let errors := units.flatMap (·.loweringErrors answer.index config.maxExprDepth)
    (oracle.analyze model.units (allReferences config input) t).1 = .ok answer →
      model.unanswered answer.index = [] →
        (errors ≠ [] → (trace oracle config input s).1 = .error (.errors errors)) ∧
        (errors = [] → ∃ out, (trace oracle config input s).1 = .ok out)

/-- A stage is entered only if all units pass the stage before it. -/
structure Staged : Prop where
  /-- Recording its questions does not change what the oracle leads to. -/
  transparent : ((trace oracle config input s).1, (trace oracle config input s).2.1) =
    input.compileWith oracle config s
  /-- If a unit cannot be built, then the oracle is not asked. -/
  construction : (∃ es, .error es ∈ outcomes input) →
    trace oracle config input s = (.error (.errors ((outcomes input).flatMap failures)), s, [])
  /-- If all units are built and one of them has errors, then the oracle is not asked. -/
  resolution : ∀ resolved, Resolves input resolved → resolved.flatMap (·.2) ≠ [] →
    trace oracle config input s = (.error (.errors (resolved.flatMap (·.2))), s, [])
  asked : ∀ resolved, Resolves input resolved → resolved.flatMap (·.2) = [] →
    Asked oracle config input (resolved.map (·.1)) s
  /-- The output has the activities of all units in the order of the source. -/
  activities : ∀ out, (trace oracle config input s).1 = .ok out →
    out.activities.map (fun a => (a.unit, some a.name)) = input.program.units.zipIdx.flatMap
      fun u => u.1.activities.map fun node => (u.2, node.text)

variable {oracle config input units s}

theorem trace_of_error (h : prepare input.program = .error es) :
    trace oracle config input s = (.error (.errors es), s, []) := by
  unfold trace compileWith
  rw [h]
  rfl

theorem trace_of_ok (h : prepare input.program = .ok units) : trace oracle config input s =
      ((analyze oracle config (allReferences config input) units s).1,
        (analyze oracle config (allReferences config input) units s).2,
        questions oracle (allReferences config input) (allImports units) units s) := by
  unfold trace compileWith
  rw [h]
  exact analyze_recorded oracle config _ s

theorem compileWith_of_ok (h : prepare input.program = .ok units) :
    input.compileWith oracle config = analyze oracle config (allReferences config input) units := by
  unfold compileWith
  rw [h]
  rfl

theorem allImports_eq (h : prepare input.program = .ok units) :
    allImports units = (input.program.units.flatMap (·.imports)).eraseDups := by
  have himports := congrArg (flatMap (·.2.1)) (outline_prepare h)
  have hunits : input.program.units.zipIdx.flatMap (fun u => u.1.imports) =
      input.program.units.flatMap (·.imports) := by
    rw [← flatMap_map Prod.fst ParseUnit.imports, zipIdx_map_fst]
  rw [flatMap_map, flatMap_map] at himports
  exact congrArg eraseDups (himports.trans hunits)

theorem indices_eq (h : prepare input.program = .ok units) :
    units.map (·.index) = range input.program.units.length := by
  have hindices := congrArg (map (·.1)) (outline_prepare h)
  rw [map_map, map_map] at hindices
  exact hindices.trans (by rw [range_eq_range']; exact zipIdx_map_snd ..)

theorem activities_eq (h : prepare input.program = .ok units) (x : SemanticIndex) (d : Nat) :
    (units.flatMap fun u => u.activities.map (u.compiled x d)).map
        (fun a => (a.unit, some a.name)) = input.program.units.zipIdx.flatMap
      fun u => u.1.activities.map fun node => (u.2, node.text) := by
  have hall := congrArg (flatMap fun o => o.2.2.map fun name => (o.1, name))
    (outline_prepare h)
  simp only [flatMap_map, map_map, outline] at hall
  rw [map_flatMap]
  simp only [map_map]
  exact hall

theorem asked_of_prepared (h : prepare input.program = .ok units) :
    Asked oracle config input units s where
  all_units external := (ModelProgram.indices_emit units external).trans (indices_eq h)
  calls := by
    refine ⟨_, firstSeen_eraseDups _, ?_⟩
    rw [trace_of_ok h, allImports_eq h]
  lowering := by
    intro types t answer hfound model errors hanswer hmodel
    have hrun : (trace oracle config input s).1 = finish config units model answer := by
      rw [trace_of_ok h, analyze_run, hfound]
      exact congrArg (respond config units model) hanswer
    rw [hrun]
    refine ⟨fun hne => finish_of_errors hmodel (lowerAll_eq_error.2 ⟨rfl, hne⟩), fun hnil => ?_⟩
    exact ⟨_, finish_eq_ok.2 ⟨hmodel, _, lowerAll_eq_ok.2 ⟨hnil, rfl⟩, rfl⟩⟩

theorem activities_of_ok (hok : (trace oracle config input s).1 = .ok out) :
    out.activities.map (fun a => (a.unit, some a.name)) = input.program.units.zipIdx.flatMap
      fun u => u.1.activities.map fun node => (u.2, node.text) := by
  cases hprepare : prepare input.program with
  | error es =>
    rw [trace_of_error hprepare] at hok
    cases hok
  | ok units =>
    rw [trace_of_ok hprepare, analyze_run] at hok
    obtain ⟨types, answer, -, -, hfinish⟩ := exists_of_conclude_eq_ok hok
    obtain ⟨-, activities, hlower, rfl⟩ := finish_eq_ok.1 hfinish
    rw [(lowerAll_eq_ok.1 hlower).2]
    exact activities_eq hprepare answer.index config.maxExprDepth

/-- Compilation stops at the first stage that a unit does not pass, with the errors of all units in
order. The oracle is asked only after construction and resolution, first for the node types in what
is imported, and then about all units. The output has one activity for each in the source. -/
theorem compileWith_staged (oracle : SemanticOracle (StateM σ)) (config : CompilerConfig)
    (input : CompilationInput) (s : σ) : Staged oracle config input s where
  transparent := by
    cases h : prepare input.program with
    | error es =>
      rw [trace_of_error h]
      unfold compileWith
      rw [h]
      rfl
    | ok units =>
      rw [trace_of_ok h, compileWith_of_ok h]
      rfl
  construction h := trace_of_error (prepare_of_error h)
  resolution := by
    rintro resolved ⟨built, hbuilt, rfl⟩ hne
    refine trace_of_error ((prepare_of_built hbuilt).trans ?_)
    rw [if_neg (by simpa using hne)]
  asked := by
    rintro resolved ⟨built, hbuilt, rfl⟩ hnil
    refine asked_of_prepared ((prepare_of_built hbuilt).trans ?_)
    rw [if_pos (by rw [hnil]; rfl)]
  activities _ hok := activities_of_ok hok

end CompilationInput

end Workflow
