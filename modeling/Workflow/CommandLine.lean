import Workflow.Compile
import Workflow.Tree.Format
import Workflow.Tree.Label

/-!
# The command line

The command reads a program from a file, compiles it, and writes the graphs to a file or to the
standard output. What it needs from its surroundings is a record of actions, so that it can run
anywhere.
-/

namespace Workflow

structure Host (m : Type → Type) where
  /-- The value of an environment variable. -/
  env : String → m (Option String)
  /-- The text of a file, or the reason why it cannot be read. -/
  readFile : String → m (Except String String)
  /-- Writes a text to a file, or gives the reason why that cannot be done. -/
  writeFile : String → String → m (Except String Unit)
  launch : Launch m

/-- What a command leaves behind. -/
structure Outcome where
  status : Nat := 0
  stdout : String := ""
  stderr : String := ""
deriving DecidableEq, Repr, Inhabited

namespace CommandLine

def usage : String :=
  "Usage: weave-compile [OPTIONS]

Compile a W parse-tree JSON file to runtime node graphs.

OPTIONS:
    --input <path>       Path to parse-tree JSON file (required)
    --output <path>      Output file for the node graphs (default: stdout)
    --reference <name>   Reference passed to the oracle (repeatable)
    --debug              Include the model programs in the output
    --schema             Print the parse-tree JSON schema and exit
    --help               Show this help message

ENVIRONMENT:
    WEAVE_ORACLE_CMD     External frontend command (default: in-process resolver)
    WEAVE_REFERENCES     ':'-separated references passed to the oracle
    WEAVE_MAX_EXPR_DEPTH Expression rewriter recursion limit (default: 64)
    WEAVE_DEBUG          Include model programs in the output (default: false)
    RUST_LOG             Log filter (default: warn)

EXAMPLES:
    # Compile to a file
    weave-compile --input orders.json --output orders.graph.json

    # Compile with an external frontend
    WEAVE_ORACLE_CMD=\"weave-frontend --stdio\" weave-compile --input orders.json

"

/-- The arguments of a compilation as far as they are read. -/
structure Args where
  input : Option String := none
  output : Option String := none
  references : List String := []
  debug : Bool := false
deriving DecidableEq, Repr, Inhabited

inductive Request where
  | help
  | schema
  | compile (input : String) (args : Args)
deriving DecidableEq, Repr, Inhabited

/-- Reads arguments, or says what is wrong with them. The last one of its kind counts, and a call
for help or for the schema ends the reading. -/
def parse : Args → List String → Except String Request
  | args, [] =>
    match args.input with
    | some input => .ok (.compile input args)
    | none => .error "--input is required"
  | _, "--help" :: _ => .ok .help
  | _, "-h" :: _ => .ok .help
  | _, "--schema" :: _ => .ok .schema
  | _, ["--input"] => .error "--input requires a path"
  | args, "--input" :: path :: rest => parse { args with input := some path } rest
  | _, ["--output"] => .error "--output requires a path"
  | args, "--output" :: path :: rest => parse { args with output := some path } rest
  | _, ["--reference"] => .error "--reference requires a name"
  | args, "--reference" :: name :: rest =>
    parse { args with references := args.references ++ [name] } rest
  | args, "--debug" :: rest => parse { args with debug := true } rest
  | _, arg :: _ => .error ("Unknown argument: " ++ arg)

/-- The description of the language: its version and its statement labels. -/
def schema : Json :=
  .obj [("x-language-version", .str languageVersion),
    ("x-statement-labels", .arr (Label.sorted.map Label.toJson))]

def failed (message : String) : Outcome := { status := 1, stderr := message ++ "\n" }

def summary (out : CompilationOutput) : String :=
  "Compilation successful:\n" ++ s!"  Activities: {out.activities.length}\n" ++
    s!"  Checksum: {out.checksum}\n"

/-- Writes a compiled program; `log` is what was said before. -/
def deliver {m : Type → Type} [Monad m] (host : Host m) (output : Option String) (log : String)
    (out : CompilationOutput) : m Outcome := do
  let log := log ++ summary out
  let text := out.toJson.indented
  match output with
  | none => return { stdout := text ++ "\n", stderr := log }
  | some path =>
    match ← host.writeFile path text with
    | .ok _ => return { stdout := path ++ "\n", stderr := log }
    | .error reason =>
      return { status := 1
               stderr := log ++ s!"Error writing output to {Text.quote path}: {reason}\n" }

def compileProgram {m : Type → Type} [Monad m] (host : Host m) (config : CompilerConfig)
    (input : String) (args : Args) (program : ParseProgram) : m Outcome := do
  let log := s!"Compiling {Text.quote input}: {program.units.length} unit(s)\n"
  let result ← CompilationInput.compile host.launch config
    { program := program, references := args.references }
  match result with
  | .error e => return failed (log ++ "Compilation failed: " ++ e.message)
  | .ok out => deliver host args.output log out

def compileFile {m : Type → Type} [Monad m] (host : Host m) (input : String) (args : Args) :
    m Outcome := do
  match ← CompilerConfig.ofEnv host.env with
  | .error e => return failed ("Error: " ++ e.message)
  | .ok config =>
    match ← host.readFile input with
    | .error reason =>
      return failed s!"Error reading input file {Text.quote input}: {reason}"
    | .ok text =>
      match ParseProgram.ofText text with
      | .error e => return failed ("Error parsing input: " ++ e.message)
      | .ok program =>
        compileProgram host { config with debug := config.debug || args.debug } input args program

def run {m : Type → Type} [Monad m] (host : Host m) (args : List String) : m Outcome :=
  match parse {} args with
  | .error message => return { status := 1, stderr := "Error: " ++ message ++ "\n\n" ++ usage }
  | .ok .help => return { stderr := usage }
  | .ok .schema => return { stdout := schema.indented ++ "\n" }
  | .ok (.compile input args) => compileFile host input args

end CommandLine

end Workflow
