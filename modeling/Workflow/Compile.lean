import Workflow.Activity.Build.Unit
import Workflow.Activity.Resolve.Unit
import Workflow.Config
import Workflow.Digest
import Workflow.Graph.Format
import Workflow.Graph.Support
import Workflow.Semantics.Frontend
import Workflow.Semantics.Lexical

/-!
# Compiling programs

All units are built, then resolved, then shown to a semantic oracle, and then lowered. The errors of
all units are reported together after each of these stages, and the next one starts only if there
are none. The oracle is asked for node types only if something is imported.
-/

namespace Workflow

open CompilationUnit

structure CompilationInput where
  program : ParseProgram
  references : List String := []
deriving Inhabited

structure CompiledActivity where
  unit : Nat
  name : String
  graph : NodeGraph
deriving Inhabited

def CompiledActivity.toJson (a : CompiledActivity) : Json :=
  .obj [("unit", .nat a.unit), ("name", .str a.name), ("graph", a.graph.toJson)]

structure CompilationOutput where
  activities : List CompiledActivity
  support : List SupportDecl
  /-- The digest of the activities. -/
  checksum : String
  /-- The model programs, in debug mode. -/
  model : Option (List ModelUnit) := none
deriving Inhabited

namespace CompilationOutput

def activity? (out : CompilationOutput) (name : String) : Option CompiledActivity :=
  out.activities.find? (·.name == name)

def checksumOf (activities : List CompiledActivity) : String :=
  Digest.ofText (Json.arr (activities.map CompiledActivity.toJson)).compact

def toJson (out : CompilationOutput) : Json :=
  .obj ([("activities", .arr (out.activities.map CompiledActivity.toJson)),
      ("support", .arr (out.support.map SupportDecl.toJson)), ("checksum", .str out.checksum)] ++
    Json.fieldOpt "model" (fun units => .arr (units.map ModelUnit.toJson)) out.model)

end CompilationOutput

inductive CompileFailure where
  | errors (es : List CompileError)
  | oracle (e : OracleError)
deriving DecidableEq, Repr, Inhabited

def CompileFailure.message : CompileFailure → String
  | .errors es => CompileError.report es
  | .oracle e => "semantic oracle failed: " ++ e.message

namespace CompilationUnit

/-- Builds units in order; the first one has the given index. -/
def buildEach (ids : Ids) (index : Nat) :
    List ParseUnit → List (Except (List CompileError) CompilationUnit) × Ids
  | [] => ([], ids)
  | u :: rest =>
    let (built, ids) := build ids index u
    let (others, ids) := buildEach ids (index + 1) rest
    (built :: others, ids)

/-- The values of outcomes, or the errors of all that failed. -/
def gather {α : Type} (outcomes : List (Except (List CompileError) α)) :
    Except (List CompileError) (List α) :=
  let errors := outcomes.flatMap fun
    | .error es => es
    | .ok _ => []
  if errors.isEmpty then .ok (outcomes.filterMap Except.toOption) else .error errors

def buildAll (p : ParseProgram) : Except (List CompileError) (List CompilationUnit) × Ids :=
  let (outcomes, ids) := buildEach {} 0 p.units
  (gather outcomes, ids)

def prepare (p : ParseProgram) : Except (List CompileError) (List CompilationUnit) := do
  let (built, ids) := buildAll p
  let (units, _, errors) := resolveAll ids {} (← built)
  errors.checkpoint
  return units

/-- The imports of units, each once, in the order in which they first occur. -/
def allImports (units : List CompilationUnit) : List String :=
  (units.flatMap (·.imports)).eraseDups

def lowerAll (units : List CompilationUnit) (semantics : SemanticIndex) (maxDepth : Nat) :
    Except (List CompileError) (List CompiledActivity) := do
  let lowered ← gather (units.map fun u => (u.lower semantics maxDepth).map fun graphs =>
    graphs.map fun g => { unit := u.index, name := g.name, graph := g : CompiledActivity })
  return lowered.flatten

end CompilationUnit

/-- The error of a diagnostic: at its own span, or at that of its marker. -/
def Diagnostic.toError (marking : Marking) (d : Diagnostic) : CompileError :=
  (Cause.semantic d.message).error ((d.span <|> d.marker.bind marking.span?).getD {})

def OracleError.failure (marking : Marking) : OracleError → CompileFailure
  | .diagnostics ds => .errors (ds.map (Diagnostic.toError marking))
  | e => .oracle e

/-- The errors of fragments that the oracle did not answer for. -/
def ModelProgram.unanswered (model : ModelProgram) (semantics : SemanticIndex) :
    List CompileError :=
  (model.marking.fragments.filter fun m => !semantics.hasFragment m).map fun m =>
    (Cause.internal s!"fragment {markerText m} missing from the semantic model").error
      ((model.marking.span? m).getD {})

namespace CompilationInput

def finish (config : CompilerConfig) (units : List CompilationUnit) (model : ModelProgram)
    (answer : SemanticModel) : Except CompileFailure CompilationOutput :=
  let semantics := answer.index
  match model.unanswered semantics with
  | e :: es => .error (.errors (e :: es))
  | [] =>
    match lowerAll units semantics config.maxExprDepth with
    | .error es => .error (.errors es)
    | .ok activities =>
      .ok { activities := activities
            support := SupportDecl.all
            checksum := CompilationOutput.checksumOf activities
            model := if config.debug then some model.units else none }

/-- Asks an oracle about units, and lowers them. -/
def analyze {m : Type → Type} [Monad m] (oracle : SemanticOracle m) (config : CompilerConfig)
    (references : List String) (units : List CompilationUnit) :
    m (Except CompileFailure CompilationOutput) := do
  let imports := allImports units
  let found ← if imports.isEmpty then pure (.ok []) else oracle.discover imports references
  match found with
  | .error e => return .error (e.failure {})
  | .ok found =>
    let model := ModelProgram.emit units (ExternalNodeType.synthesize found)
    match ← oracle.analyze model.units references with
    | .error e => return .error (e.failure model.marking)
    | .ok answer => return finish config units model answer

def compileWith {m : Type → Type} [Monad m] (oracle : SemanticOracle m)
    (config : CompilerConfig) (input : CompilationInput) :
    m (Except CompileFailure CompilationOutput) :=
  match prepare input.program with
  | .error es => return .error (.errors es)
  | .ok units => analyze oracle config (config.references ++ input.references) units

/-- Compiles a program with the oracle that is configured. -/
def compile {m : Type → Type} [Monad m] (launch : Launch m) (config : CompilerConfig)
    (input : CompilationInput) : m (Except CompileFailure CompilationOutput) :=
  match config.oracleCommand with
  | none => compileWith (lexicalOracle []) config input
  | some line =>
    match Frontend.oracleOfLine launch line with
    | .error e => return .error (.oracle e)
    | .ok oracle => compileWith oracle config input

end CompilationInput

end Workflow
