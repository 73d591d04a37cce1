import Workflow.Graph.Node
import Workflow.Proofs.Run.World

/-!
# Running node graphs

What the engine does with a node. All variables are in one world by their names, the locals of code
included. A store is read by `handle.Get(__ctx)` and written by `handle.Set(__ctx, value)`, which
has the written value; a cast does not change a value.

A bound limits how often every loop may test its condition. Only those nodes and that code are
covered which the compiler makes of code, sequences, branches, loops and switches.
-/

namespace Workflow.Engine

variable (H : Runtime) (answer : Answer) (bound : Nat)

mutual
def eval : Expr → World String → Option (Value × World String)
  | .literal _ v, w => some (.ofLiteral v, w)
  | .name _ x, w => (w.vars x).map fun v => (v, w)
  | .call _ (.member _ (.name _ h) method) args, w =>
    if method = "Get" then (w.vars h).map fun v => (v, w)
    else if method = "Set" then do
      let (v, w) ← evalSecond args w
      return (v, w.set h v)
    else none
  | .unary _ op e, w => do
    let (v, w) ← eval e w
    if op.isStep then none else return (← H.unary op v, w)
  | .binary _ op l r, w => do
    let (a, w) ← eval l w
    H.operate op a (fun w => eval r w) w
  | .conditional _ c y n, w => do
    let (a, w) ← eval c w
    if ← a.asBool then eval y w else eval n w
  | .cast _ _ e, w => eval e w
  | .block _ body value, w => do
    let w ← execList body w
    evalOption value w
  | _, _ => none

def evalSecond : List Argument → World String → Option (Value × World String)
  | _ :: .mk _ e :: _, w => eval e w
  | _, _ => none

def evalOption : Option Expr → World String → Option (Value × World String)
  | some e, w => eval e w
  | none, w => some (.null, w)

def exec : CodeStmt → World String → Option (World String)
  | .eval e, w => (eval e w).map (·.2)
  | .declare x _ init _, w => do
    let (v, w) ← evalOption init w
    return w.set x v
  | .block body, w => execList body w
  | .branch c y n, w => do
    let (a, w) ← eval c w
    if ← a.asBool then exec y w else execElse n w
  | .loop c body, w =>
    iterate (fun w => do
      let (a, w) ← eval c w
      return (← a.asBool, w)) (fun w => exec body w) bound w

def execList : List CodeStmt → World String → Option (World String)
  | [], w => some w
  | s :: rest, w => do
    let w ← exec s w
    execList rest w

def execElse : Option CodeStmt → World String → Option (World String)
  | some s, w => exec s w
  | none, w => some w
end

def start : List VariableDecl → World String → Option (World String)
  | [], w => some w
  | v :: rest, w =>
    match v.default with
    | some e => do
      let (a, w) ← eval H bound e w
      start rest (w.set v.name a)
    | none => start rest (w.set v.name (H.start (w.vars v.name)))

/-- Evaluates what is bound to an argument; a location stands for what it holds. -/
def argument : ArgumentValue → World String → Option (Value × World String)
  | .value v, w => eval H bound v.expr w
  | .location l, w => do
    let x ← l.name?
    return (← w.vars x, w)

def arguments : List NodeArgument → World String → Option (List Value × World String)
  | [], w => some ([], w)
  | a :: rest, w => do
    let (v, w) ← argument H bound a.value w
    let (vs, w) ← arguments rest w
    return (v :: vs, w)

def store (result : Option Location) (v : Value) (w : World String) : Option (World String) :=
  match result with
  | none => some w
  | some l => l.name?.map fun x => w.set x v

mutual
def run : Node → World String → Option (World String)
  | .mk _ kind, w => runKind kind w

def runKind : NodeKind → World String → Option (World String)
  | .sequence vars nodes, w => do
    let w ← start H bound vars w
    runList nodes w
  | .conditional c y n, w => do
    let (a, w) ← eval H bound c.expr w
    if ← a.asBool then runOption y w else runOption n w
  | .loop c body testAfter, w => do
    let w ← if testAfter then runOption body w else some w
    iterate (fun w => do
      let (a, w) ← eval H bound c.expr w
      return (← a.asBool, w)) (fun w => runOption body w) bound w
  | .switch subject cases fallback, w => do
    let (a, w) ← eval H bound subject.expr w
    runCases a cases (fun w => runOption fallback w) w
  | .invoke nodeType args result, w => do
    let (vs, w) ← arguments H bound args w
    let (v, w) := w.schedule answer nodeType vs
    store result v w
  | .code body, w => execList H bound body w
  | _, _ => none

def runList : List Node → World String → Option (World String)
  | [], w => some w
  | n :: rest, w => do
    let w ← run n w
    runList rest w

def runOption : Option Node → World String → Option (World String)
  | some n, w => run n w
  | none, w => some w

def runCases (a : Value) : List CaseNode → (World String → Option (World String)) →
    World String → Option (World String)
  | [], fallback, w => fallback w
  | .mk key body :: rest, fallback, w => do
    let (k, w) ← eval H bound key.expr w
    if ← (← H.binary .eq a k).asBool then runOption body w else runCases a rest fallback w
end

end Workflow.Engine
