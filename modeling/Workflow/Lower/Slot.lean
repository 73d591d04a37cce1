import Workflow.Code.Render
import Workflow.Lower.Stage

/-!
# Lowering: value slots and code runs

The value slots of statements and runs of code statements are staged one by one; the error of one
is reported, and a failed slot holds `null`. Steps that a value needs before it can be evaluated are
hoisted: they run in a sequence before the node that takes the value.
-/

namespace Workflow

/-- The slots that refuse scheduled calls, because the engine evaluates them repeatedly or at once
with others. -/
inductive Slot where
  | transitionCondition
  | flowDecision
  | flowSwitch
  | switchCase
  | completionCondition
  | messageContent
  | correlation
  | endpoint
deriving DecidableEq, Repr, Inhabited

def Slot.name : Slot → String
  | .transitionCondition => "transition condition"
  | .flowDecision => "flowchart decision"
  | .flowSwitch => "flowchart switch"
  | .switchCase => "switch case key"
  | .completionCondition => "completion condition"
  | .messageContent => "message content"
  | .correlation => "correlation expression"
  | .endpoint => "endpoint"

/-- Steps that run before the node that takes a value. -/
structure Hoisted where
  vars : List VariableDecl := []
  nodes : List Node := []
deriving Inhabited

namespace Hoisted

def isEmpty (h : Hoisted) : Bool := h.vars.isEmpty && h.nodes.isEmpty

def append (a b : Hoisted) : Hoisted :=
  { vars := a.vars ++ b.vars, nodes := a.nodes ++ b.nodes }

def wrap (h : Hoisted) (consumer : Node) : Node :=
  if h.isEmpty then consumer else .sequence h.vars (h.nodes ++ [consumer])

end Hoisted

instance : Append Hoisted := ⟨Hoisted.append⟩

namespace Lower

def reportError (e : CompileError) : Lower Unit :=
  modify fun s => { s with errors := s.errors.push e }

/-- Runs a staging pass: its outcome and its steps. -/
def stage {α : Type} (x : Stage α) : Lower (Except CompileError α × StepList) :=
  modifyGet fun s =>
    match x.run { lower := s } with
    | .ok a r => ((.ok a, r.steps), r.lower)
    | .error e r => ((.error e, r.steps), r.lower)

/-- The type of a slot: the one that it asks for, or that of its expression. -/
def slotType (c : LowerContext) (f : Fragment) (ty : Option TypeName) : Option TypeName :=
  ty <|> c.exprType? f.expr

def value (c : LowerContext) (f : Fragment) (ty : Option TypeName) :
    Lower (ValueExpr × Hoisted) := do
  let ty := slotType c f ty
  match ← stage (Stage.value { context := c, span := f.span } f.expr) with
  | (.ok e, steps) =>
    return ({ ty := ty, expr := e }, { vars := steps.vars, nodes := steps.nodes })
  | (.error e, _) =>
    reportError e
    return ({ ty := ty, expr := .null }, {})

def optionalValue (c : LowerContext) (f : Option Fragment) (ty : Option TypeName) :
    Lower (Option ValueExpr × Hoisted) := do
  match f with
  | none => return (none, {})
  | some f =>
    let (v, h) ← value c f ty
    return (some v, h)

def restricted (c : LowerContext) (f : Fragment) (ty : Option TypeName) (slot : Slot) :
    Lower ValueExpr := do
  let ty := slotType c f ty
  let site : Site := { context := c, span := f.span, slot := some slot.name }
  match ← stage (Stage.value site f.expr) with
  | (.ok e, _) => return { ty := ty, expr := e }
  | (.error e, _) =>
    reportError e
    return { ty := ty, expr := .null }

def optionalRestricted (c : LowerContext) (f : Option Fragment) (ty : Option TypeName)
    (slot : Slot) : Lower (Option ValueExpr) := do
  match f with
  | none => return none
  | some f => some <$> restricted c f ty slot

/-- Stages a code statement and those chained to it, at most `n`. -/
def codeChain (site : Site) : Nat → StmtId → Stage Unit
  | 0, _ => return ()
  | n + 1, id => do
    let a := site.context.activity
    match a.kind id with
    | .code f chained initializes =>
      Stage.code site f.body (initializes.bind fun s => a.stores[s]?)
      match chained with
      | none => return ()
      | some next => codeChain site n next
    | _ => return ()

/-- Lowers a code statement together with those chained to it. -/
def codeRun (c : LowerContext) (first : StmtId) : Lower (Option Node) := do
  let site : Site := { context := c, span := c.activity.stmtSpan first }
  match ← stage (codeChain site c.activity.stmts.size first) with
  | (.ok _, steps) => return steps.finish
  | (.error e, _) =>
    reportError e
    return none

def variablesOf (c : LowerContext) (ids : List StoreId) : Lower (List VariableDecl) :=
  (ids.filterMap fun id => c.activity.stores[id]?).mapM fun store => do
    return { name := store.name, ty := ← storeType c store }

/-- The name of the delegate argument that a handle stands for. -/
def delegateArgument (handle : Expr) : String :=
  match handle.asName with
  | some name => name
  | none => handle.render

end Lower

end Workflow
