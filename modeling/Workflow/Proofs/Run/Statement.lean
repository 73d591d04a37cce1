import Workflow.Lower.Statement
import Workflow.Proofs.Run.Source

/-!
# Running statements as they are written

The meaning of sequences, branches, loops and switches of an activity, given how the expressions in
them are evaluated. A sequence starts the stores that it hosts and runs its members one by one; that
members are chained has no meaning. A bound limits how often every loop may test its condition.
-/

namespace Workflow

namespace Source

variable (H : Runtime) (bound : Nat) (a : Activity) (ev : Evaluator)

def start : List StoreId → World StoreId → World StoreId
  | [], w => w
  | id :: rest, w => start rest (w.set id (H.start (w.vars id)))

def test (condition : Fragment) (w : World StoreId) : Option (Bool × World StoreId) := do
  let (v, w) ← ev condition.expr w
  return (← v.asBool, w)

def runAll (inner : StmtId → World StoreId → Option (World StoreId)) :
    List StmtId → World StoreId → Option (World StoreId)
  | [], w => some w
  | id :: rest, w => do
    let w ← inner id w
    runAll inner rest w

def runOptional (inner : StmtId → World StoreId → Option (World StoreId)) :
    Option StmtId → World StoreId → Option (World StoreId)
  | some id, w => inner id w
  | none, w => some w

def runCases (inner : StmtId → World StoreId → Option (World StoreId)) (v : Value)
    (fallback : Option StmtId) : List SwitchCase → World StoreId → Option (World StoreId)
  | [], w => runOptional inner fallback w
  | case :: rest, w => do
    let (k, w) ← ev case.key.expr w
    if ← (← H.binary .eq v k).asBool then inner case.body w
    else runCases inner v fallback rest w

def stmtWith (inner : StmtId → World StoreId → Option (World StoreId)) (id : StmtId)
    (w : World StoreId) : Option (World StoreId) :=
  match a.kind id with
  | .code f _ initializes => fragment ev f.body initializes w
  | .empty => some w
  | .sequence members => runAll inner members (start H (a.storesOf id) w)
  | .conditional condition yes no => do
    let (b, w) ← test ev condition w
    if b then inner yes w else runOptional inner no w
  | .loop condition body testAfter => do
    let w ← (if testAfter then inner body w else some w)
    iterate (test ev condition) (inner body) bound w
  | .switch subject cases fallback => do
    let (v, w) ← ev subject.expr w
    runCases H ev inner v fallback cases w
  | _ => none

/-- Runs a statement that nests at most so deep. -/
def stmt : Nat → StmtId → World StoreId → Option (World StoreId)
  | 0 => fun _ _ => none
  | n + 1 => stmtWith H bound a ev (stmt n)

def ownVariables : List StoreId :=
  a.activityStores.filter fun id => (a.stores[id]?).any (·.kind == .var)

def activity (depth : Nat) (w : World StoreId) : Option (World StoreId) :=
  stmt H bound a ev depth a.root (start H (ownVariables a) w)

end Source

namespace Activity

def isUnchained (a : Activity) (id : StmtId) : Bool := (Lower.chainedTo a id).isNone

/-- Whether members of a sequence are chained to the code right after them only. -/
def chainsForward (a : Activity) : List StmtId → Bool
  | [] => true
  | [m] => a.isUnchained m
  | m :: next :: rest =>
    (Lower.chainedTo a m).all (fun target => target == next && (a.kind next).tag == .code) &&
      a.chainsForward (next :: rest)

end Activity

namespace LowerContext

/-- Whether a statement is code on stores, empty, a sequence, a branch, a loop or a switch whose
expressions write no stores. -/
def structuredKind (c : LowerContext) : StmtKind → Bool
  | .code f _ initializes => c.fragmentOnStores false f.body initializes
  | .empty => true
  | .sequence members => c.activity.chainsForward members
  | .conditional condition yes no =>
    c.onStores false condition.expr && c.activity.isUnchained yes && no.all c.activity.isUnchained
  | .loop condition body _ => c.onStores false condition.expr && c.activity.isUnchained body
  | .switch subject cases fallback =>
    c.onStores false subject.expr &&
      cases.all (fun case => c.onStores false case.key.expr && c.activity.isUnchained case.body) &&
      fallback.all c.activity.isUnchained
  | _ => false

/-- An activity of structured statements, numbered as they are built: a statement comes before those
inside it, and these are in order. -/
structure Structured (c : LowerContext) : Prop where
  kinds : ∀ id < c.activity.stmts.size, c.structuredKind (c.activity.kind id) = true
  ascending : ∀ id < c.activity.stmts.size,
    (id :: (c.activity.kind id).children).Pairwise (· < ·)
  root : c.activity.isUnchained c.activity.root = true

end LowerContext

end Workflow
