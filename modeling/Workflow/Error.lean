import Workflow.Span

/-!
# Compile errors

An error is a cause and the span it is about. Every cause has a stable code, which comes first in
its message. Codes are grouped by the pass that finds the error: `W00x` names, labels and members,
`W01x` nesting, `W02x` and `W03x` resolution, `W040` semantic analysis, `W05x` lowering, and `W09x`
faults of the compiler itself.

Passes that go on after an error collect their errors in a sink, in the order they were found.
-/

namespace Workflow

inductive Cause where
  | duplicateName (name : String)
  | unknownStatement (label : String)
  | missingMember (label member : String)
  | invalidValue (label detail : String)
  | rethrowOutsideCatch
  | persistInsideNoPersist
  | duplicateNodeName (name : String)
  | finalStateHasTransitions (state : String)
  | unresolvedReference (name : String)
  | missingFinalState
  | startStateIsFinal (state : String)
  | noStartState
  | transitionConditionRequired (state : String)
  | requestNotFound (reply : String)
  | requestAlreadyReferenced (request : String)
  | semantic (message : String)
  | storeInLambda (name : String)
  | scheduledCallInNestedScope (nodeType : String)
  | invalidOutArgument (nodeType argument direction : String)
  | scheduledCallNotAllowed (nodeType slot : String)
  | expressionTooDeep (limit : Nat)
  | uninferredStoreType (name : String)
  | localAcrossScheduledCall (name : String)
  | internal (message : String)
  | alreadyRedirected (store : String)
deriving DecidableEq, Repr, Inhabited

structure CompileError where
  cause : Cause
  span : Span
deriving DecidableEq, Repr, Inhabited

namespace Cause

def code : Cause → String
  | .duplicateName _ => "W001"
  | .unknownStatement _ => "W002"
  | .missingMember _ _ => "W003"
  | .invalidValue _ _ => "W004"
  | .rethrowOutsideCatch => "W010"
  | .persistInsideNoPersist => "W011"
  | .duplicateNodeName _ => "W012"
  | .finalStateHasTransitions _ => "W013"
  | .unresolvedReference _ => "W020"
  | .missingFinalState => "W021"
  | .startStateIsFinal _ => "W022"
  | .noStartState => "W023"
  | .transitionConditionRequired _ => "W024"
  | .requestNotFound _ => "W030"
  | .requestAlreadyReferenced _ => "W031"
  | .semantic _ => "W040"
  | .storeInLambda _ => "W050"
  | .scheduledCallInNestedScope _ => "W051"
  | .invalidOutArgument _ _ _ => "W052"
  | .scheduledCallNotAllowed _ _ => "W053"
  | .expressionTooDeep _ => "W054"
  | .uninferredStoreType _ => "W055"
  | .localAcrossScheduledCall _ => "W057"
  | .internal _ => "W090"
  | .alreadyRedirected _ => "W091"

/-- What a cause says, without its code. -/
def detail : Cause → String
  | .duplicateName name => s!"'{name}' is already declared in an enclosing scope"
  | .unknownStatement label => s!"unknown statement '{label}'"
  | .missingMember label member => s!"'{label}' is missing required member '{member}'"
  | .invalidValue label detail => s!"invalid value for '{label}': {detail}"
  | .rethrowOutsideCatch => "rethrow is only allowed inside a catch block"
  | .persistInsideNoPersist => "persist is not allowed inside a no-persist scope"
  | .duplicateNodeName name => s!"node name '{name}' is used more than once"
  | .finalStateHasTransitions state =>
    s!"final state '{state}' cannot have transitions or an exit action"
  | .unresolvedReference name => s!"'{name}' does not name a node in this graph"
  | .missingFinalState => "state machine has no final state"
  | .startStateIsFinal state => s!"start state '{state}' is a final state"
  | .noStartState => "state machine has no start state"
  | .transitionConditionRequired state =>
    s!"state '{state}' has more than one unconditioned transition; each one requires a condition"
  | .requestNotFound reply => s!"no request operation found for reply '{reply}'"
  | .requestAlreadyReferenced request =>
    s!"request '{request}' is already referenced by another reply"
  | .semantic message => message
  | .storeInLambda name => s!"'{name}' cannot be referenced inside a lambda"
  | .scheduledCallInNestedScope nodeType =>
    s!"call to '{nodeType}' cannot be scheduled from inside a nested lambda or block"
  | .invalidOutArgument nodeType argument direction =>
    s!"{direction} argument '{argument}' of '{nodeType}' must be a workflow variable"
  | .scheduledCallNotAllowed nodeType slot =>
    s!"call to '{nodeType}' cannot be scheduled in a {slot}"
  | .expressionTooDeep limit => s!"expression nesting exceeds the limit of {limit}"
  | .uninferredStoreType name => s!"type of '{name}' could not be inferred"
  | .localAcrossScheduledCall name =>
    s!"local '{name}' is used after a scheduled call; declare it as a workflow variable"
  | .internal message => s!"internal compiler error: {message}"
  | .alreadyRedirected store =>
    s!"internal compiler error: rewrite already attached to '{store}'"

def message (cause : Cause) : String := s!"[{cause.code}] {cause.detail}"

def error (cause : Cause) (span : Span) : CompileError := ⟨cause, span⟩

end Cause

def CompileError.text (e : CompileError) : String := s!"{e.span.text}: {e.cause.message}"

def CompileError.toJson (e : CompileError) : Json :=
  .obj [("code", .str e.cause.code), ("message", .str e.cause.message), ("span", e.span.toJson),
    ("text", .str e.text)]

/-- A batch of errors: their number, then one line for each. -/
def CompileError.report (errors : List CompileError) : String :=
  let lines := errors.map fun e => "\n  " ++ e.text
  s!"compilation failed with {errors.length} error(s):" ++
    (if errors.isEmpty then "\n" else String.join lines)

structure Diagnostics where
  errors : List CompileError := []
deriving Inhabited

namespace Diagnostics

def push (d : Diagnostics) (e : CompileError) : Diagnostics := ⟨d.errors ++ [e]⟩

def report (d : Diagnostics) (cause : Cause) (span : Span) : Diagnostics :=
  d.push (cause.error span)

def extend (d : Diagnostics) (errors : List CompileError) : Diagnostics := ⟨d.errors ++ errors⟩

def isEmpty (d : Diagnostics) : Bool := d.errors.isEmpty

def length (d : Diagnostics) : Nat := d.errors.length

/-- The value of a result; an error is added instead. -/
def absorb {α : Type} (d : Diagnostics) : Except CompileError α → Option α × Diagnostics
  | .ok a => (some a, d)
  | .error e => (none, d.push e)

/-- Stops with all errors if there are any. The sink is empty afterwards. -/
def checkpoint (d : Diagnostics) : Except (List CompileError) Unit :=
  if d.isEmpty then .ok () else .error d.errors

@[simp]
theorem errors_push (d : Diagnostics) (e : CompileError) : (d.push e).errors = d.errors ++ [e] :=
  rfl

@[simp]
theorem errors_extend (d : Diagnostics) (es : List CompileError) :
    (d.extend es).errors = d.errors ++ es := rfl

end Diagnostics

end Workflow
