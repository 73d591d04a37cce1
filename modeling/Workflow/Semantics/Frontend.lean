import Workflow.Json.Reader
import Workflow.Json.Writer
import Workflow.Semantics.Format
import Workflow.Semantics.Oracle
import Workflow.Text.Blank

/-!
# Frontends as oracles

A frontend is a program that answers one request each time it is started: it reads a JSON request
from its standard input and writes a JSON response to its standard output. A response has a result,
or the faults of the program, and must not repeat a field that is read.
-/

namespace Workflow

/-- A program and its arguments. -/
structure Command where
  program : String
  args : List String
deriving DecidableEq, Repr, Inhabited

def Command.ofLine? (line : String) : Option Command :=
  match Text.words line with
  | [] => none
  | program :: args => some { program := program, args := args }

/-- What a program leaves behind. -/
structure Completion where
  status : Nat
  stdout : String
  stderr : String
deriving DecidableEq, Repr, Inhabited

/-- A way to run a program on a text as its standard input; it gives the reason if the program
cannot be started. -/
abbrev Launch (m : Type → Type) := Command → (input : String) → m (Except String Completion)

namespace Frontend

def discoverRequest (imports references : List String) : Json :=
  .obj [("method", .str "discoverNodeTypes"), ("imports", .strings imports),
    ("references", .strings references)]

def analyzeRequest (units : List ModelUnit) (references : List String) : Json :=
  .obj [("method", .str "analyze"), ("units", .arr (units.map ModelUnit.toJson)),
    ("references", .strings references)]

/-- How many arrays and objects a response may nest. -/
def maxLevels : Nat := 127

/-- Reads a response: a result that may be absent, and faults. -/
def response? {α : Type} (read : Json → Option α) (text : String) :
    Option (Option α × List Diagnostic) := do
  let j ← Json.parseWith? true text (some maxLevels)
  let r ← Json.Record.ofJson? ["result", "diagnostics"] j
  let result ← r.optional "result" read
  let diagnostics ← r.defaulted "diagnostics" [] (Json.list? Diagnostic.ofJson?)
  some (result, diagnostics)

def answer {α : Type} (read : Json → Option α) (program : String) (c : Completion) :
    Except OracleError α :=
  if c.status != 0 then
    .error (.transport
      s!"'{program}' exited with exit status: {c.status}: {Text.trim c.stderr}")
  else
    match response? read c.stdout with
    | none => .error (.protocol "invalid response")
    | some (result, diagnostics) =>
      if !diagnostics.isEmpty then .error (.diagnostics diagnostics)
      else
        match result with
        | some a => .ok a
        | none => .error (.protocol "response has neither a result nor diagnostics")

def call {m : Type → Type} [Monad m] {α : Type} (launch : Launch m) (command : Command)
    (read : Json → Option α) (request : Json) : m (Except OracleError α) := do
  match ← launch command request.compact with
  | .error reason =>
    return .error (.transport s!"failed to start '{command.program}': {reason}")
  | .ok completion => return answer read command.program completion

def oracle {m : Type → Type} [Monad m] (launch : Launch m) (command : Command) :
    SemanticOracle m where
  discover imports references :=
    call launch command (Json.list? ExternalNodeType.ofJson?) (discoverRequest imports references)
  analyze units references :=
    call launch command SemanticModel.ofJson? (analyzeRequest units references)

/-- The oracle of a command line, which must not be blank. -/
def oracleOfLine {m : Type → Type} [Monad m] (launch : Launch m) (line : String) :
    Except OracleError (SemanticOracle m) :=
  match Command.ofLine? line with
  | none => .error (.transport "empty oracle command")
  | some command => .ok (oracle launch command)

end Frontend

end Workflow
