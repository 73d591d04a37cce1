import Workflow.Proofs.Run.Source

/-!
# Running plain code

Code that schedules nothing runs in a memory of stores and locals. The rules are the same for code
as it is written and for code that is produced from it: a name stands for a store or for a local,
and `handle.Get(__ctx)` and `handle.Set(__ctx, value)`, which the compiler makes without an
identity, read and write the store that has the handle.

Operands and arguments are evaluated from left to right. What is passed by reference is read when
the call is made, and written when it returns. Lambdas have no meaning here.
-/

namespace Workflow.Plain

/-- The values of the stores, the writes to stores so far, and the locals, the latest first. -/
structure Memory where
  stores : StoreId → Option Value
  writes : List (StoreId × Value) := []
  locals : List (String × Value) := []

/-- What code runs on: the host language, the stores of names and of handles, and how often a loop
may test. A call also has values for what is passed to it by reference. -/
structure Machine extends Runtime where
  context : LowerContext
  handle : String → Option StoreId
  bound : Nat
  name : String → Option Value
  member : Value → String → Option Value
  index : Value → Value → Option Value
  create : TypeName → List Value → Option (Value × List Value)
  call : Value → List Value → Option (Value × List Value)

abbrev Run := StateT Memory Option

abbrev Cell := StoreId ⊕ String

/-- What is passed to a call: a value, or a cell with the direction in which it is passed. -/
abbrev Operand := Value ⊕ Direction × Cell

def setLocal (x : String) (v : Value) : List (String × Value) → Option (List (String × Value))
  | [] => none
  | (y, w) :: rest =>
    if x = y then some ((x, v) :: rest) else (setLocal x v rest).map ((y, w) :: ·)

def write (v : Value) : Cell → Run Unit
  | .inl id => fun m => some ((), { m with
      stores := fun i => if i = id then some v else m.stores i
      writes := m.writes ++ [(id, v)] })
  | .inr x => fun m => (setLocal x v m.locals).map fun locals => ((), { m with locals := locals })

def declare (x : String) (v : Value) : Run Unit :=
  modify fun m => { m with locals := (x, v) :: m.locals }

def inScope {α : Type} (x : Run α) : Run α := fun m =>
  (x m).map fun (a, m') =>
    (a, { m' with locals := m'.locals.drop (m'.locals.length - m.locals.length) })

/-- Repeats a body as long as a test holds. The test may be made at most `n` times. -/
def repeated (test : Run Bool) (body : Run Unit) : Nat → Run Unit
  | 0 => failure
  | n + 1 => do
    if ← test then
      body
      repeated test body n

namespace Machine

variable (M : Machine)

def read : Cell → Run Value
  | .inl id => fun m => (m.stores id).map (·, m)
  | .inr x => fun m => (m.locals.lookup x <|> M.name x).map (·, m)

def cell? : Expr → Option Cell
  | .name o x => some ((M.context.storeIdFor? (.name o x)).elim (.inr x) .inl)
  | _ => none

/-- The store that a call of the compiler accesses, and whether it writes the store. -/
def access? (o : Origin) : Expr → Option (StoreId × Bool)
  | .member _ (.name _ handle) method =>
    if o.id.isSome then none
    else if method = "Get" then (M.handle handle).map (·, false)
    else if method = "Set" then (M.handle handle).map (·, true)
    else none
  | _ => none

/-- Makes a call. What is passed as output only is not read. -/
def invoke (f : List Value → Option (Value × List Value)) (args : List Operand) : Run Value := do
  let values ← args.mapM fun
    | .inl v => return v
    | .inr (d, x) => if d = .byRef then M.read x else return .null
  let (v, left) ← f values
  (args.zip left).forM fun
    | (.inr (_, x), v) => write v x
    | _ => return ()
  return v

mutual
def eval : Expr → Run Value
  | .literal _ v => return .ofLiteral v
  | .name o x => do M.read (← M.cell? (.name o x))
  | .member _ e x => do M.member (← eval e) x
  | .call o f args =>
    match M.access? o f with
    | some (id, false) => M.read (.inl id)
    | some (id, true) => do
      let v ← evalSecond args
      write v (.inl id)
      return v
    | none => do M.invoke (M.call (← eval f)) (← evalArgs args)
  | .create _ ty args => do M.invoke (M.create ty) (← evalArgs args)
  | .unary _ op e =>
    match op.stepOp with
    | some step => do
      let x ← M.cell? e
      let n ← (← M.read x).asInt
      write (.int (Source.stepped step n)) x
      return .int (if op.isPost then n else Source.stepped step n)
    | none => do M.unary op (← eval e)
  | .binary _ op l r => do
    let a ← eval l
    match op.decided? a with
    | some v => return v
    | none => M.combine op a (← eval r)
  | .conditional _ test y n => do if ← (← eval test).asBool then eval y else eval n
  | .assign _ op t e => do
    let x ← M.cell? t
    match op.binary with
    | none =>
      let v ← eval e
      write v x
      return v
    | some bin =>
      -- The old value is read before the right side is evaluated.
      let old ← M.read x
      let v ← M.binary bin old (← eval e)
      write v x
      return v
  | .lambda .. => failure
  | .cast _ _ e => eval e
  | .index _ t i => do M.index (← eval t) (← eval i)
  | .block _ body value => inScope do
    execList body
    evalOption value

def evalSecond : List Argument → Run Value
  | _ :: .mk _ e :: _ => eval e
  | _ => failure

def evalOption : Option Expr → Run Value
  | some e => eval e
  | none => return .null

/-- Evaluates what is passed as a value, and finds the cells that are passed. -/
def evalArgs : List Argument → Run (List Operand)
  | [] => return []
  | .mk d e :: rest => do
    let first ← (if d = .input then do pure (.inl (← eval e)) else do pure (.inr (d, ← M.cell? e)))
    return first :: (← evalArgs rest)

def exec : CodeStmt → Run Unit
  | .eval e => do let _ ← eval e
  | .declare x _ init _ => do declare x (← evalOption init)
  | .block body => inScope (execList body)
  | .branch test y n => do
    if ← (← eval test).asBool then inScope (exec y) else inScope (execElse n)
  | .loop test body => repeated (do (← eval test).asBool) (inScope (exec body)) M.bound

def execList : List CodeStmt → Run Unit
  | [] => return ()
  | s :: rest => do
    exec s
    execList rest

def execElse : Option CodeStmt → Run Unit
  | some s => exec s
  | none => return ()
end

/-- Runs a fragment. One that declares a store together with its first value writes that value. -/
def runCode (declared : Option StoreId) (body : List CodeStmt) : Run Unit :=
  match declared, body with
  | some id, [.eval (.assign _ _ _ e)] => do write (← M.eval e) (.inl id)
  | _, body => M.execList body

end Machine

end Workflow.Plain
