import Workflow.Lower.Unit

/-!
# Configuration

The compiler is configured by environment variables. A frontend command must not be blank, the limit
for nested expressions is a positive 64-bit number, and references are separated by colons.
-/

namespace Workflow

structure CompilerConfig where
  /-- The command line of the frontend; without one the lexical oracle is used. -/
  oracleCommand : Option String := none
  references : List String := []
  maxExprDepth : Nat := defaultMaxDepth
  debug : Bool := false
deriving DecidableEq, Repr, Inhabited

inductive ConfigError where
  /-- A variable is set but blank. -/
  | missing (name : String)
  | invalid (name detail : String)
deriving DecidableEq, Repr, Inhabited

def ConfigError.message : ConfigError → String
  | .missing name => "missing value for environment variable: " ++ name
  | .invalid name detail => "invalid value for " ++ name ++ ": " ++ detail

namespace CompilerConfig

def oracleVariable : String := "WEAVE_ORACLE_CMD"

def referencesVariable : String := "WEAVE_REFERENCES"

def depthVariable : String := "WEAVE_MAX_EXPR_DEPTH"

def debugVariable : String := "WEAVE_DEBUG"

/-- The value of decimal digits, of which there has to be one. -/
def digits? (cs : List Char) : Option Nat :=
  if cs.isEmpty || !cs.all Char.isDigit then none
  else some (cs.foldl (fun n c => n * 10 + (c.toNat - 48)) 0)

/-- Reads a positive 64-bit number, which may have a plus sign. -/
def positive? (s : String) : Option Nat :=
  let cs := match s.toList with
    | '+' :: rest => rest
    | cs => cs
  (digits? cs).filter fun n => 0 < n && n < Nat.pow 2 64

/-- Reads references between colons; blank ones do not count. -/
def references? (s : String) : List String :=
  ((Text.splitAt ':' s).map Text.trim).filter fun r => !r.isEmpty

/-- Reads a switch, in any case of letters. -/
def switch? (s : String) : Option Bool :=
  let word := String.ofList (s.toList.map Char.toLower)
  if word == "1" || word == "true" then some true
  else if word == "0" || word == "false" || word == "" then some false
  else none

def ofVariables (oracle references depth debug : Option String) :
    Except ConfigError CompilerConfig := do
  if oracle.any Text.isBlankText then
    throw (.missing oracleVariable)
  let maxExprDepth ← match depth with
    | none => pure defaultMaxDepth
    | some s =>
      match positive? s with
      | some n => pure n
      | none => throw (.invalid depthVariable "must be a positive integer")
  let debug ← match debug with
    | none => pure false
    | some s =>
      match switch? s with
      | some b => pure b
      | none => throw (.invalid debugVariable "must be true, false, 1 or 0")
  return { oracleCommand := oracle
           references := (references.map references?).getD []
           maxExprDepth := maxExprDepth
           debug := debug }

def ofEnv {m : Type → Type} [Monad m] (env : String → m (Option String)) :
    m (Except ConfigError CompilerConfig) :=
  return ofVariables (← env oracleVariable) (← env referencesVariable) (← env depthVariable)
    (← env debugVariable)

end CompilerConfig

end Workflow
