import Workflow.Lower.Site
import Workflow.Text.Blank

/-!
# Staging code

A name that stands for a store becomes a read of the store, an assignment or a step of it a write. A
scheduled call becomes a step that invokes the node type; if its result is used it goes through a
new variable. The operators `&&`, `||`, `??` and `?:` become skips if a side that may not run
schedules a call. A plain call that passes a store by reference works on a local, which is copied in
and back.
-/

namespace Workflow

/-- Where the result of a scheduled call goes. -/
inductive CallResult where
  | discard
  | into (store : Store)
  | temp
deriving Inhabited

/-- The arguments of a plain call, with the code before and after it that copies stores. -/
structure PlainArgs where
  args : List Argument := []
  before : List CodeStmt := []
  after : List CodeStmt := []
deriving Inhabited

namespace Stage

/-- Stops because a scheduled call passes an argument that it must not pass like this. -/
def invalidArgument {α : Type} (attr : SchedulingAttribute) (argument : String)
    (direction : Direction) (span : Span) : Stage α :=
  fail (.invalidOutArgument attr.nodeType argument direction.word) span

def argumentName (attr : SchedulingAttribute) (i : Nat) : String :=
  match attr.parameters[i]? with
  | some p => p.name
  | none => s!"Argument{i + 1}"

/-- Checks that an argument is passed as its parameter asks. -/
def checkDirection (attr : SchedulingAttribute) (i : Nat) (direction : Direction) (span : Span) :
    Stage Unit := do
  match attr.parameters[i]? with
  | none => pure ()
  | some p =>
    if direction != p.direction then
      invalidArgument attr (argumentName attr i) p.direction span

/-- The type of the argument at a position, unless it is to be inferred. -/
def argumentType? (attr : SchedulingAttribute) (i : Nat) : Option TypeName :=
  (attr.parameters[i]?.map (·.ty)).filter fun ty => !ty.isInferred

/-- The location that is passed as an argument, which has to be a store. -/
def argumentLocation (site : Site) (attr : SchedulingAttribute) (i : Nat) (direction : Direction)
    (e : Expr) (span : Span) : Stage ArgumentValue := do
  match site.context.namedStore? e with
  | none => invalidArgument attr (argumentName attr i) direction span
  | some store => return .location (← ofLower (Lower.location site.context store))

/-- The location of the result of a scheduled call, and the read of it. -/
def resultLocation (site : Site) (attr : SchedulingAttribute) (result : CallResult) :
    Stage (Option Location × Option Expr) := do
  match result, attr.result with
  | .discard, _ => return (none, none)
  | .into store, some _ => return (some (← ofLower (Lower.location site.context store)), none)
  | .into _, none => return (none, none)
  | .temp, some ty =>
    let name ← temp "r" ty
    return (some { ty := some ty, handle := .ident name }, some (.storeGet (.ident name)))
  | .temp, none => return (none, some .null)

def schedule (site : Site) (o : Origin) (attr : SchedulingAttribute) (result : CallResult)
    (args : Stage (List NodeArgument)) : Stage (Option Expr) := do
  let span := site.spanOf o
  if site.inLambda || site.nested then
    fail (.scheduledCallInNestedScope attr.nodeType) span
  match site.slot with
  | some slot => fail (.scheduledCallNotAllowed attr.nodeType slot) span
  | none =>
    let arguments ← args
    let (location, read) ← resultLocation site attr result
    modifySteps fun l => l.pushNode
      ((Node.ofKind (.invoke attr.nodeType arguments location)).named
        (Text.lastSegment attr.nodeType))
    return read

/-- The step of a call that has a scheduling attribute, for which the arguments are staged. -/
def scheduledCall (site : Site) (o : Origin) (result : CallResult)
    (args : SchedulingAttribute → Stage (List NodeArgument)) : Stage (Option Expr) :=
  match site.context.semantics.scheduling? o.id with
  | some attr => schedule site o attr result (args attr)
  | none => fail (.internal "scheduled call without scheduling attribute") (site.spanOf o)

/-- A plain call, given its staged callee and arguments. With `discard` its value is not used. -/
def plainCall (o : Origin) (discard : Bool) (callee : Expr) (p : PlainArgs) : Stage Expr := do
  let call := Expr.call o callee p.args
  if p.before.isEmpty then return call
  else if discard then return .block {} (p.before ++ [.eval call] ++ p.after) none
  else
    let name ← ofLower (Lower.tempVar "v")
    return .block {} (p.before ++ [.localVar name .inferred (some call)] ++ p.after)
      (some (.ident name))

/-- A store that is passed by reference through a local. -/
def copiedStore (site : Site) (direction : Direction) (store : Store) (rest : Stage PlainArgs) :
    Stage PlainArgs := do
  let name ← ofLower (Lower.tempVar "v")
  let ty ← ofLower (Lower.storeType site.context store)
  let init := if direction == .byRef then some (Expr.storeGet store.handle) else none
  let p ← rest
  return { args := .mk direction (.ident name) :: p.args
           before := .localVar name ty init :: p.before
           after := .eval (.storeSet store.handle (.ident name)) :: p.after }

/-- The write of a store that a step of one makes, and the value that it has. -/
def storeStep (op : UnaryOp) (step : BinaryOp) (store : Store) : Expr :=
  let write := Expr.storeSet store.handle (.apply step (.storeGet store.handle) (.int 1))
  if op.isPost then .apply (if step == .add then .sub else .add) write (.int 1) else write

def storeAssign (o : Origin) (op : AssignOp) (store : Store) (value : Expr) : Expr :=
  let value := match op.binary with
    | some bin => Expr.apply bin (.storeGet store.handle) value
    | none => value
  (Expr.storeSet store.handle value).withSpan o.span

def setVar (name : String) (value : Expr) : CodeStmt := .eval (.storeSet (.ident name) value)

def getVar (name : String) : Expr := .storeGet (.ident name)

/-- Adds the skip of an operator whose left side is known to the result variable: what it runs, when
it skips, and what it runs then. -/
def operatorSkip (context : LowerContext) (op : BinaryOp) (lhs left : Expr) (result : String)
    (ty : TypeName) : Stage Nat := do
  match op with
  | .andAlso => pushSkip [setVar result left] (some (.not (getVar result))) []
  | .orElse => pushSkip [setVar result left] (some (getVar result)) []
  | _ =>
    let held ← ofLower (Lower.tempVar "l")
    let heldType := (context.exprType? lhs).getD .object
    pushSkip [.localVar held heldType (some left)]
      (some (.apply .ne (.ident held) .null)) [setVar result (.cast {} ty (.ident held))]

/-- An operator whose right side may be skipped. -/
def shortCircuit (context : LowerContext) (e : Expr) (op : BinaryOp) (lhs : Expr)
    (left right : Stage Expr) : Stage Expr := do
  let leftValue ← left
  ensureIndex
  let ty := if op == .coalesce then (context.exprType? e).getD .object else .boolean
  let result ← temp "r" ty
  let skip ← operatorSkip context op lhs leftValue result ty
  let rightValue ← right
  pushPlain (setVar result rightValue)
  skipToHere skip
  return getVar result

/-- A choice of which one side is skipped. -/
def choice (ty : TypeName) (condition yes no : Stage Expr) : Stage Expr := do
  let test ← condition
  ensureIndex
  let result ← temp "r" ty
  let toElse ← pushSkip [] (some (.not test)) []
  let first ← yes
  let toEnd ← pushSkip [setVar result first] none []
  modifySteps (·.patchSkip toElse (wordSub toEnd toElse))
  let second ← no
  pushPlain (setVar result second)
  skipToHere toEnd
  return getVar result

def choiceType (context : LowerContext) (e yes no : Expr) : TypeName :=
  (context.exprType? e <|> context.exprType? yes <|> context.exprType? no).getD .object

mutual
def expr (site : Site) (e : Expr) : Stage Expr := do
  let site ← descend site e
  match e with
  | .literal o v => return .literal o v
  | .name o n =>
    match site.context.storeFor? (.name o n) with
    | some store =>
      checkLambda site (.name o n) store
      return (Expr.storeGet store.handle).withSpan o.span
    | none =>
      noteLocal site o n
      return .name o n
  | .member o t n => return .member o (← expr site t) n
  | .call o c args =>
    if site.context.isScheduled o then
      let read ← scheduledCall site o .temp fun attr =>
        scheduledArgs site attr (site.spanOf o) 0 args
      return read.getD .null
    else plainCall o false (← expr site c) (← plainArgs site args)
  | .create o ty args => return .create o ty (← valueArgs site args)
  | .unary o op operand =>
    match op.stepOp, site.context.storeFor? operand with
    | some step, some store =>
      checkLambda site operand store
      return storeStep op step store
    | _, _ => return .unary o op (← expr site operand)
  | .binary o op l r =>
    if op.isShortCircuit && site.canSchedule && site.context.schedules r then
      shortCircuit site.context (.binary o op l r) op l (expr site l) (expr site r)
    else return .binary o op (← expr site l) (← expr site r)
  | .conditional o c y n =>
    if site.canSchedule && (site.context.schedules y || site.context.schedules n) then
      choice (choiceType site.context (.conditional o c y n) y n) (expr site c) (expr site y)
        (expr site n)
    else return .conditional o (← expr site c) (← expr site y) (← expr site n)
  | .assign o op t v =>
    match site.context.storeFor? t with
    | some store =>
      checkLambda site t store
      return storeAssign o op store (← expr site v)
    | none => return .assign o op (← expr site t) (← expr site v)
  | .lambda o params body => return .lambda o params (← expr (site.enterLambda params) body)
  | .cast o ty operand => return .cast o ty (← expr site operand)
  | .index o t i => return .index o (← expr site t) (← expr site i)
  | .block o body value =>
    let body' ← nestedBody site.nest body
    let value ← optionalExpr (site.nest.afterAll body) value
    return .block o body' value

def optionalExpr (site : Site) : Option Expr → Stage (Option Expr)
  | none => return none
  | some e => some <$> expr site e

def valueArgs (site : Site) : List Argument → Stage (List Argument)
  | [] => return []
  | .mk d e :: rest => return .mk d (← expr site e) :: (← valueArgs site rest)

/-- Stages the arguments of a scheduled call from a position on. -/
def scheduledArgs (site : Site) (attr : SchedulingAttribute) (span : Span) :
    Nat → List Argument → Stage (List NodeArgument)
  | _, [] => return []
  | i, .mk d e :: rest => do
    checkDirection attr i d span
    let value ← match d with
      | .input =>
        let value ← expr site e
        pure (.value { ty := argumentType? attr i, expr := value })
      | _ => argumentLocation site attr i d e span
    let rest ← scheduledArgs site attr span (i + 1) rest
    return { name := argumentName attr i, direction := d, value := value } :: rest

def plainArgs (site : Site) : List Argument → Stage PlainArgs
  | [] => return {}
  | .mk d e :: rest => do
    match (if d == .input then none else site.context.namedStore? e) with
    | some store =>
      checkLambda site e store
      copiedStore site d store (plainArgs site rest)
    | none =>
      let value ← expr site e
      let p ← plainArgs site rest
      return { p with args := .mk d value :: p.args }

def nestedStmt (site : Site) : CodeStmt → Stage CodeStmt
  | .eval e =>
    match e with
    | .call o c args =>
      if site.context.isScheduled o then do
        let read ← scheduledCall site o .discard fun attr =>
          scheduledArgs site attr (site.spanOf o) 0 args
        return .eval (read.getD .null)
      else return .eval (← plainCall o true (← expr site c) (← plainArgs site args))
    | e => return .eval (← expr site e)
  | .declare name ty init span => return .declare name ty (← optionalExpr site init) span
  | .block body => return .block (← nestedBody site body)
  | .branch c y n =>
    return .branch (← expr site c) (← nestedStmt site.nest y) (← nestedElse site.nest n)
  | .loop c body => return .loop (← expr site c) (← nestedStmt site.nest body)

def nestedBody (site : Site) : List CodeStmt → Stage (List CodeStmt)
  | [] => return []
  | s :: rest => return (← nestedStmt site s) :: (← nestedBody (site.after s) rest)

def nestedElse (site : Site) : Option CodeStmt → Stage (Option CodeStmt)
  | none => return none
  | some s => some <$> nestedStmt site s
end

/-- Stages an expression statement of the fragment itself. A scheduled call or the assignment of one
to a store needs no variable for the result. -/
def evalStmt (site : Site) (e : Expr) : Stage Unit := do
  match e with
  | .call o c args =>
    if site.context.isScheduled o then
      let _ ← scheduledCall site o .discard fun attr =>
        scheduledArgs site attr (site.spanOf o) 0 args
    else pushPlain (.eval (← plainCall o true (← expr site c) (← plainArgs site args)))
  | .assign o .assign target (.call o' c args) =>
    match site.context.isScheduled o', site.context.storeFor? target with
    | true, some store =>
      let _ ← scheduledCall site o' (.into store) fun attr =>
        scheduledArgs site attr (site.spanOf o') 0 args
    | _, _ => pushPlain (.eval (← expr site (.assign o .assign target (.call o' c args))))
  | e => pushPlain (.eval (← expr site e))

def stmt (site : Site) : CodeStmt → Stage Unit
  | .eval e => evalStmt site e
  | .declare name ty init span => do
    let init ← optionalExpr site init
    declareLocal name
    pushPlain (.declare name ty init span)
  | .branch c y n => do
    let c ← expr site c
    let y ← nestedStmt site.nest y
    let n ← nestedElse site.nest n
    pushPlain (.branch c y n)
  | .block body => do pushPlain (← nestedStmt site.nest (.block body))
  | .loop c body => do pushPlain (← nestedStmt site.nest (.loop c body))

/-- Stages statements of the fragment itself, with a check of the locals after each. -/
def body (site : Site) : List CodeStmt → Stage Unit
  | [] => return ()
  | s :: rest => do
    stmt site s
    checkUses
    body site rest

def initializer (site : Site) (store : Store) (value : Expr) : Stage Unit := do
  match value with
  | .call o c args =>
    if site.context.isScheduled o then
      let _ ← scheduledCall site o (.into store) fun attr =>
        scheduledArgs site attr (site.spanOf o) 0 args
    else pushPlain (.eval (.storeSet store.handle (← expr site (.call o c args))))
  | e => pushPlain (.eval (.storeSet store.handle (← expr site e)))

/-- Stages a fragment of code; `store` is the store that it declares together with its first
value. -/
def code (site : Site) (stmts : List CodeStmt) (store : Option Store) : Stage Unit :=
  match store, stmts with
  | some store, [.eval (.assign _ _ _ value)] => initializer site store value
  | _, stmts => body site stmts

def value (site : Site) (e : Expr) : Stage Expr := do
  let v ← expr site e
  modifySteps (·.flush)
  return v

end Stage

end Workflow
