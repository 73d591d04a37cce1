import Workflow.Lower.Jump
import Workflow.Lower.Messaging
import Workflow.Model.Emit

/-!
# Lowering: statements

Each kind of statement becomes one kind of node. A statement that hosts stores declares them as the
variables of its node. A sequence with no variable and at most one node is that node, and an empty
statement is no node at all.

The condition of a loop that needs steps is evaluated into a variable: before the loop, unless it is
tested after each iteration only, and again at the end of every iteration.
-/

namespace Workflow.Lower

def hosted (c : LowerContext) (lower : Inner) (id : StmtId) (stores : List StoreId) :
    Lower (Option Node) := do
  let body ← lower id
  if stores.isEmpty then return body
  let vars ← variablesOf c stores
  return some (.sequence vars body.toList)

def misplaced (c : LowerContext) (id : StmtId) (message : String) : Lower (Option Node) := do
  report (.internal message) (c.activity.stmtSpan id)
  return none

/-- The code statement that is chained to a statement. -/
def chainedTo (a : Activity) (id : StmtId) : Option StmtId :=
  match a.kind id with
  | .code _ chained _ => chained
  | _ => none

/-- Lowers a sequence. Chained code statements are lowered with the first of their chain. -/
def sequence (c : LowerContext) (lower : Inner) (id : StmtId) (members : List StmtId) :
    Lower (Option Node) := do
  let vars ← variablesOf c (c.activity.storesOf id)
  let chained := members.filterMap (chainedTo c.activity)
  let nodes ← (members.filter fun m => !chained.contains m).filterMapM lower
  match vars, nodes with
  | [], [] => return none
  | [], [n] => return some n
  | vars, nodes => return some (.sequence vars nodes)

def steppedLoop (flag : String) (h : Hoisted) (condition : Expr) (body : Option Node)
    (testAfter : Bool) : Node :=
  let evaluate := Node.sequence h.vars
    (h.nodes ++ [.code [.eval (.storeSet (.ident flag) condition)]])
  let iteration := Node.sequence [] (body.toList ++ [evaluate])
  let loop := Node.ofKind (.loop
    { ty := some .boolean, expr := .storeGet (.ident flag) } (some iteration) testAfter)
  .sequence [{ name := flag, ty := .boolean }] (if testAfter then [loop] else [evaluate, loop])

def loop (c : LowerContext) (lower : Inner) (condition : Fragment) (body : StmtId)
    (testAfter : Bool) : Lower Node := do
  let (v, h) ← value c condition (some .boolean)
  let body ← lower body
  if h.isEmpty then return .ofKind (.loop v body testAfter)
  let flag ← tempVar "c"
  return steppedLoop flag h v.expr body testAfter

def switchCase (c : LowerContext) (lower : Inner) (ty : Option TypeName) (case : SwitchCase) :
    Lower CaseNode := do
  let key ← restricted c case.key ty .switchCase
  return .mk key (← lower case.body)

def handler (c : LowerContext) (lower : Inner) (id : StmtId) : Lower (Option CatchNode) := do
  match c.activity.kind id with
  | .handler exceptionType caught body =>
    let others := (c.activity.storesOf id).filter fun s => some s != caught
    let argument := (caught.bind fun s => c.activity.stores[s]?).map fun s =>
      delegateArgument s.handle
    return some (.mk exceptionType argument (← hosted c lower body others))
  | _ => return none

def pickBranch (c : LowerContext) (lower : Inner) (id : StmtId) :
    Lower (Option PickBranchNode) := do
  match c.activity.kind id with
  | .pickBranch trigger action =>
    let vars ← variablesOf c (c.activity.storesOf id)
    let trigger ← lower trigger
    let action ← optional lower action
    return some (.mk vars trigger action)
  | _ => return none

def forEach (c : LowerContext) (lower : Inner) (id : StmtId) (item : StoreId) (values : Fragment)
    (body : StmtId) (atOnce : Bool) (completion : Option Fragment) : Lower (Option Node) := do
  let (v, h) ← value c values none
  match c.activity.stores[item]? with
  | none => return none
  | some store =>
    let itemType ← storeType c store
    let others := (c.activity.storesOf id).filter (· != item)
    let body ← hosted c lower body others
    let completion ← optionalRestricted c completion (some .boolean) .completionCondition
    return some (h.wrap (.ofKind
      (.forEach itemType (delegateArgument store.handle) v body atOnce completion)))

def tokenLocation (c : LowerContext) (token : Option StoreId) : Lower (Option Location) := do
  match token.bind fun id => c.activity.stores[id]? with
  | none => return none
  | some store => some <$> location c store

/-- Lowers a transaction that starts with a request. -/
def transactedReceive (c : LowerContext) (lower : Inner) (id request body : StmtId) :
    Lower (Option Node) := do
  let vars ← variablesOf c (c.activity.storesOf id)
  match ← lower request with
  | none => misplaced c id "transacted receive without request"
  | some request => return some (.ofKind (.transactedReceive vars request (← lower body)))

/-- Lowers a statement whose inner statements are lowered by `lower`. -/
def stmtWith (c : LowerContext) (lower : Inner) : Inner := fun id => do
  match c.activity.kind id with
  | .code .. => codeRun c id
  | .empty => return none
  | .sequence members => sequence c lower id members
  | .conditional condition yes no =>
    let (v, h) ← value c condition (some .boolean)
    let yes ← lower yes
    let no ← optional lower no
    return some (h.wrap (.ofKind (.conditional v yes no)))
  | .loop condition body testAfter => some <$> loop c lower condition body testAfter
  | .switch subject cases fallback =>
    let (v, h) ← value c subject none
    let cases ← cases.mapM (switchCase c lower v.ty)
    let fallback ← optional lower fallback
    return some (h.wrap (.ofKind (.switch v cases fallback)))
  | .raise none => return some (.ofKind .reraise)
  | .raise (some exception) =>
    let (v, h) ← value c exception (some Build.exceptionType)
    return some (h.wrap (.ofKind (.raise v)))
  | .guarded body handlers final =>
    let body ← lower body
    let handlers ← handlers.filterMapM (handler c lower)
    let final ← optional lower final
    return some (.ofKind (.guarded body handlers final))
  | .handler .. => misplaced c id "catch outside try"
  | .forEach item values body atOnce completion =>
    forEach c lower id item values body atOnce completion
  | .delay duration =>
    let (v, h) ← value c duration (some timeSpanType)
    return some (h.wrap (.ofKind (.delay v)))
  | .parallel branches completion =>
    let branches ← branches.filterMapM lower
    let completion ← optionalRestricted c completion (some .boolean) .completionCondition
    return some (.ofKind (.parallel branches completion))
  | .pick branches => return some (.ofKind (.pick (← branches.filterMapM (pickBranch c lower))))
  | .pickBranch .. => misplaced c id "pick branch outside pick"
  | .stateMachine states _ start =>
    return some (.ofKind (← stateMachine c lower id states start))
  | .state .. | .transition .. | .transitionBody .. =>
    misplaced c id "state outside state machine"
  | .flow nodes start => return some (.ofKind (← flowchart c lower id nodes start))
  | .flowStep .. | .flowIf .. | .flowSwitch .. => misplaced c id "flow node outside flowchart"
  | .transacted body timeout =>
    let (timeout, h) ← optionalValue c timeout (some timeSpanType)
    let body ← lower body
    return some (h.wrap (.ofKind (.transaction body timeout)))
  | .cancellable body onCancel =>
    let body ← lower body
    let onCancel ← optional lower onCancel
    return some (.ofKind (.cancellable body onCancel))
  | .compensable body token compensation confirmation cancellation =>
    let token ← tokenLocation c token
    let body ← lower body
    let compensation ← optional lower compensation
    let confirmation ← optional lower confirmation
    let cancellation ← optional lower cancellation
    return some (.ofKind (.compensable token body compensation confirmation cancellation))
  | .confirm target =>
    let (target, h) ← optionalValue c target (some Build.compensationTokenType)
    return some (h.wrap (.ofKind (.confirm target)))
  | .compensate target =>
    let (target, h) ← optionalValue c target (some Build.compensationTokenType)
    return some (h.wrap (.ofKind (.compensate target)))
  | .persist => return some (.ofKind .persist)
  | .noPersist body => return some (.ofKind (.noPersist (← lower body)))
  | .terminate reason exception =>
    let (reason, h) ← optionalValue c reason (some .string)
    let (exception, h') ← optionalValue c exception (some Build.exceptionType)
    return some ((h ++ h').wrap (.ofKind (.terminate reason exception)))
  | .service op => some <$> messaging c id op
  | .contentCorrelation handle data =>
    let handle ← restricted c handle (some correlationHandleType) .correlation
    let data ← data.mapM fun p => return (p.name, ← restricted c p.value none .correlation)
    return some (.ofKind (.initializeCorrelation handle data))
  | .transactedReceive request body => transactedReceive c lower id request body

/-- Lowers a statement down to a depth. No statement lies deeper than there are statements. -/
def stmt (c : LowerContext) : Nat → Inner
  | 0 => fun _ => return none
  | n + 1 => stmtWith c (stmt c n)

end Workflow.Lower
