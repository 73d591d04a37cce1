import Workflow.Model.External
import Workflow.Semantics.Basic

/-!
# Semantic oracles

Binding and typing of embedded code is left to an oracle. It is asked at most twice: for the node
types in the imported namespaces, and for the semantic model of the model programs.
-/

namespace Workflow

/-- Why an oracle gives no answer. -/
inductive OracleError where
  | diagnostics (ds : List Diagnostic)
  | transport (detail : String)
  /-- The oracle answers something else than was asked. -/
  | protocol (detail : String)
deriving DecidableEq, Repr, Inhabited

def OracleError.message : OracleError → String
  | .diagnostics ds => s!"semantic analysis reported {ds.length} diagnostic(s)"
  | .transport detail => "oracle transport failed: " ++ detail
  | .protocol detail => "oracle protocol error: " ++ detail

/-- An oracle whose answers are computed in `m`. -/
structure SemanticOracle (m : Type → Type) where
  /-- The types in the namespaces of imports and references. -/
  discover : (imports references : List String) → m (Except OracleError (List ExternalNodeType))
  /-- The semantic model of the model programs of all units. -/
  analyze : List ModelUnit → (references : List String) → m (Except OracleError SemanticModel)

end Workflow
