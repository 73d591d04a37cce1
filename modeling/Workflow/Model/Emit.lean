import Workflow.Activity.Build.Control
import Workflow.Activity.Resolve.Correlation
import Workflow.Model.Basic
import Workflow.Model.Marking

/-!
# Emitting model programs

The model program of an activity has a declaration for every store and every fragment in source
order. A condition is the initial value of a `bool` temporary, and so on. A store that is declared
together with its first value stands where that value is given, every other one at the start of the
block of its host.
-/

namespace Workflow

def timeSpanType : TypeName := ⟨"System.TimeSpan"⟩

def endpointType : TypeName := ⟨"Endpoint"⟩

/-- The number of temporaries of the activity so far, and the markers of the program so far. -/
structure EmitState where
  temps : Nat := 0
  marking : Marking := {}
deriving Inhabited

abbrev Emit := StateM EmitState

namespace Emit

def temp : Emit String :=
  modifyGet fun s => (s!"__t{s.temps + 1}", { s with temps := s.temps + 1 })

def mark (f : Marking → Marking) : Emit Unit := modify fun s => { s with marking := f s.marking }

/-- The expression of a fragment, which is noted. -/
def marked (f : Fragment) : Emit ModelExpr := do
  mark (·.addFragment f.marker f.span)
  return .ofFragment f.marker f.expr

def declareStore (a : Activity) (id : StoreId) (init : Option ModelExpr) :
    Emit (List ModelStmt) := do
  match a.stores[id]? with
  | none => return []
  | some s =>
    mark (·.addStore s)
    return [.declare (some s.marker) s.name s.ty none init]

/-- Declares the stores that are not declared together with their first value. -/
def declareStores (a : Activity) (ids : List StoreId) : Emit (List ModelStmt) := do
  let plain := ids.filter fun id => !(a.stores[id]?).any (·.initialized)
  return (← plain.mapM fun id => declareStore a id none).flatten

/-- A temporary of a type with a fragment as initial value, and its name. -/
def tempOf (ty : TypeName) (like : Option String) (f : Fragment) : Emit (String × ModelStmt) := do
  let name ← temp
  let init ← marked f
  return (name, .declare none name ty like (some init))

def typed (ty : TypeName) (f : Fragment) : Emit (List ModelStmt) := do
  return [(← tempOf ty none f).2]

def optionalTyped (ty : TypeName) : Option Fragment → Emit (List ModelStmt)
  | none => return []
  | some f => typed ty f

abbrev Inner := StmtId → Emit (List ModelStmt)

def block (emit : Inner) (id : StmtId) : Emit (List ModelStmt) := do
  return [.block (← emit id)]

def optionalBlock (emit : Inner) : Option StmtId → Emit (List ModelStmt)
  | none => return []
  | some id => block emit id

def all (emit : Inner) (ids : List StmtId) : Emit (List ModelStmt) := do
  return (← ids.mapM emit).flatten

/-- The block of a host: its stores, then statements. -/
def hostBlock (a : Activity) (emit : Inner) (host : StmtId) (ids : List StmtId) :
    Emit (List ModelStmt) := do
  let stores ← declareStores a (a.storesOf host)
  let body ← all emit ids
  return [.block (stores ++ body)]

/-- The value that a code statement assigns if it is a single assignment. -/
def assignedValue : List CodeStmt → Option Expr
  | [.eval (.assign _ _ _ value)] => some value
  | _ => none

def code (a : Activity) (f : CodeFragment) (initializes : Option StoreId) :
    Emit (List ModelStmt) := do
  mark (·.addFragment f.marker f.span)
  match initializes, assignedValue f.body with
  | some store, some value => declareStore a store (some (.ofFragment f.marker value))
  | _, _ => return [.fragment f.marker f.body]

def key (subject : String) (f : Fragment) : Emit (List ModelStmt) := do
  return [(← tempOf .inferred (some subject) f).2]

def cases (emit : Inner) (subject : String) (cs : List SwitchCase) : Emit (List ModelStmt) := do
  let each ← cs.mapM fun c => do
    let k ← key subject c.key
    let body ← block emit c.body
    return k ++ body
  return each.flatten

def forEach (a : Activity) (emit : Inner) (host : StmtId) (item : StoreId) (values : Fragment)
    (body : StmtId) : Emit (List ModelStmt) := do
  match a.stores[item]? with
  | none => return []
  | some s =>
    mark (·.addStore s)
    let values ← marked values
    let others ← declareStores a ((a.storesOf host).filter (· != item))
    let inner ← emit body
    return [.forEach s.marker s.name s.ty values (others ++ inner)]

def contract (a : Activity) (op : ServiceOperation) : Emit (List ModelStmt) := do
  let inherited := op.request.bind fun r => (a.service? r).bind (·.contract)
  match op.contract <|> inherited, op.operation with
  | some contract, some operation =>
    let name ← temp
    return [.declare none name contract none none,
      .eval { expr := .member {} (.ident name) operation }]
  | _, _ => return []

/-- A fragment of a message: one that takes in data is a target, any other a value. -/
def contentFragment (inbound : Bool) (f : Fragment) : Emit (List ModelStmt) := do
  if inbound then return [.eval (← marked f)]
  else typed .inferred f

def content (inbound : Bool) : Option Content → Emit (List ModelStmt)
  | none => return []
  | some c => return (← c.fragments.mapM (contentFragment inbound)).flatten

def service (a : Activity) (op : ServiceOperation) : Emit (List ModelStmt) := do
  let contract ← contract a op
  let content ← content op.kind.isInbound op.content
  let handle ← optionalTyped correlationHandleType op.correlatesWith
  let endpoint ← if op.kind == .send then optionalTyped endpointType op.endpoint else pure []
  return [.block (contract ++ content ++ handle ++ endpoint)]

def stmtWith (a : Activity) (emit : Inner) : Inner := fun id => do
  match a.kind id with
  | .code f _ initializes => code a f initializes
  | .empty | .persist => return []
  | .sequence members => hostBlock a emit id members
  | .conditional condition yes no =>
    return (← typed .boolean condition) ++ (← block emit yes) ++ (← optionalBlock emit no)
  | .loop condition body _ => return (← typed .boolean condition) ++ (← block emit body)
  | .switch value cs fallback =>
    let (subject, stmt) ← tempOf .inferred none value
    return stmt :: (← cases emit subject cs) ++ (← optionalBlock emit fallback)
  | .raise exception => optionalTyped Build.exceptionType exception
  | .guarded body handlers final =>
    return (← block emit body) ++ (← all emit handlers) ++ (← optionalBlock emit final)
  | .handler _ _ body => hostBlock a emit id [body]
  | .forEach item values body _ completion =>
    return (← forEach a emit id item values body) ++ (← optionalTyped .boolean completion)
  | .delay duration => typed timeSpanType duration
  | .parallel branches completion =>
    return (← branches.mapM (block emit)).flatten ++ (← optionalTyped .boolean completion)
  | .pick branches => all emit branches
  | .pickBranch trigger action => hostBlock a emit id (trigger :: action.toList)
  | .stateMachine states _ _ => hostBlock a emit id states
  | .state _ _ entry exit transitions =>
    return (← optionalBlock emit entry) ++ (← optionalBlock emit exit) ++ (← all emit transitions)
  | .transition trigger bodies => return (← optionalBlock emit trigger) ++ (← all emit bodies)
  | .transitionBody condition action _ =>
    return (← optionalTyped .boolean condition) ++ (← optionalBlock emit action)
  | .flow nodes _ => hostBlock a emit id nodes
  | .flowStep _ action _ _ => block emit action
  | .flowIf _ condition _ _ => typed .boolean condition
  | .flowSwitch _ value cs _ =>
    let (subject, stmt) ← tempOf .inferred none value
    return stmt :: (← cs.mapM fun c => key subject c.key).flatten
  | .transacted body timeout =>
    return (← block emit body) ++ (← optionalTyped timeSpanType timeout)
  | .cancellable body onCancel => return (← block emit body) ++ (← optionalBlock emit onCancel)
  | .compensable body _ compensation confirmation cancellation =>
    return (← block emit body) ++ (← optionalBlock emit compensation) ++
      (← optionalBlock emit confirmation) ++ (← optionalBlock emit cancellation)
  | .confirm target => optionalTyped Build.compensationTokenType target
  | .compensate target => optionalTyped Build.compensationTokenType target
  | .noPersist body => block emit body
  | .terminate reason exception =>
    return (← optionalTyped .string reason) ++ (← optionalTyped Build.exceptionType exception)
  | .service op => service a op
  | .contentCorrelation handle data =>
    return (← typed correlationHandleType handle) ++
      (← data.mapM fun p => typed .inferred p.value).flatten
  | .transactedReceive request body => hostBlock a emit id [request, body]

/-- A statement down to a depth. No statement lies deeper than there are statements. -/
def stmt (a : Activity) : Nat → Inner
  | 0 => fun _ => return []
  | n + 1 => stmtWith a (stmt a n)

def parameters (a : Activity) : Emit (List ModelParameter) := do
  let stores := a.parameters.filterMap fun id => a.stores[id]?
  stores.mapM fun s => do
    mark (·.addStorePlace s)
    return { name := s.name, ty := s.ty, direction := s.kind.direction, marker := some s.marker }

def activityType (ns : Option String) (a : Activity) : Emit ModelType := do
  let signature := (a.parameters.filterMap fun id => a.stores[id]?).map fun s =>
    { name := s.name, ty := s.ty, direction := s.kind.direction : ScheduledParameter }
  let parameters ← parameters a
  let stores ← declareStores a (a.activityStores.filter fun id => !a.parameters.contains id)
  let body ← stmt a a.stmts.size a.root
  return { name := a.name
           ns := ns
           methods := [.invoke (qualify ns a.name) signature a.resultType,
             { name := ModelMethod.bodyName, parameters := parameters
               body := some (stores ++ body) }] }

/-- The model program of a unit. The types from elsewhere go to the unit with index 0; the units of a
program are counted from 0, so there is only one. -/
def unit (external : List ModelType) (u : CompilationUnit) : Emit ModelUnit := do
  let types ← u.activities.mapM fun a => do
    modify fun s => { s with temps := 0 }
    activityType u.ns a
  return { index := u.index, ns := u.ns, imports := u.imports
           types := types ++ if u.index == 0 then external else [] }

end Emit

/-- The model programs of all units, with their markers. -/
structure ModelProgram where
  units : List ModelUnit
  marking : Marking
deriving Inhabited

def ModelProgram.emit (units : List CompilationUnit) (external : List ModelType) : ModelProgram :=
  let (units, s) := (units.mapM (Emit.unit external)).run {}
  { units := units, marking := s.marking }

end Workflow
