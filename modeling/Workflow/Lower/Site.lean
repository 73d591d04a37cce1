import Workflow.Lower.Context
import Workflow.Lower.Steps

/-!
# Staging code: places and state

Code is staged expression by expression. The place of an expression says whether calls may be
scheduled there: not inside lambdas and nested blocks, and not in slots that the engine evaluates
repeatedly or at once with others. The staging pass stops at its first error.
-/

namespace Workflow

structure Site where
  context : LowerContext
  span : Span
  /-- The name of the slot if it refuses scheduled calls. -/
  slot : Option String := none
  /-- How many expressions are around this place. -/
  depth : Nat := 0
  inLambda : Bool := false
  /-- Whether the place is inside a nested statement or a block expression. -/
  nested : Bool := false
  /-- The names that scopes inside the fragment declare around this place. -/
  hidden : List String := []
deriving Inhabited

namespace Site

def spanOf (site : Site) (o : Origin) : Span := if o.span.isUnknown then site.span else o.span

def canSchedule (site : Site) : Bool := site.slot.isNone && !site.inLambda && !site.nested

def nest (site : Site) : Site := { site with nested := true }

def enterLambda (site : Site) (params : List String) : Site :=
  { site with inLambda := true, hidden := params ++ site.hidden }

def after (site : Site) : CodeStmt → Site
  | .declare name .. => { site with hidden := name :: site.hidden }
  | _ => site

def afterAll (site : Site) (body : List CodeStmt) : Site := body.foldl after site

end Site

structure LocalUse where
  name : String
  /-- The number of steps before the declaration of the local. -/
  declaredAt : Nat
  span : Span
deriving DecidableEq, Repr, Inhabited

/-- The state of a staging pass. -/
structure StageState where
  lower : LowerState := {}
  steps : StepList := {}
  /-- The locals of the fragments so far and the number of steps before each, the latest first. -/
  locals : List (String × Nat) := []
  /-- The uses of locals that are not checked yet. -/
  uses : List LocalUse := []
deriving Inhabited

abbrev Stage := EStateM CompileError StageState

namespace Stage

def fail {α : Type} (cause : Cause) (span : Span) : Stage α := throw (cause.error span)

def ofLower {α : Type} (x : Lower α) : Stage α :=
  modifyGet fun s =>
    let (a, lower) := x.run s.lower
    (a, { s with lower := lower })

def modifySteps (f : StepList → StepList) : Stage Unit :=
  modify fun s => { s with steps := f s.steps }

def pushPlain (s : CodeStmt) : Stage Unit := modifySteps (·.pushPlain s)

def stepCount : Stage Nat := return (← get).steps.length

def temp (stem : String) (ty : TypeName) : Stage String := do
  let name ← ofLower (Lower.tempVar stem)
  modifySteps (·.declare { name := name, ty := ty })
  return name

/-- Gives the step list a variable for the position, unless it has one. -/
def ensureIndex : Stage Unit := do
  if (← get).steps.index.isNone then
    let name ← ofLower (Lower.tempVar "step")
    modifySteps (·.useIndex name)

/-- The difference of two words of 64 bits, which wraps around below zero. -/
def wordSub (m n : Nat) : Nat := if n ≤ m then m - n else m + 18446744073709551616 - n

/-- Adds a skip, and gives its position. -/
def pushSkip (before : List CodeStmt) (condition : Option Expr) (onSkip : List CodeStmt) :
    Stage Nat := do
  modifySteps (·.pushSkip before condition onSkip)
  return wordSub (← stepCount) 1

/-- Lets a skip pass over all steps after it. -/
def skipToHere (position : Nat) : Stage Unit := do
  modifySteps (·.flush)
  let count ← stepCount
  modifySteps (·.patchSkip position (wordSub (wordSub count position) 1))

def descend (site : Site) (e : Expr) : Stage Site :=
  if site.context.maxDepth < site.depth + 1 then
    fail (.expressionTooDeep site.context.maxDepth) (site.spanOf e.origin)
  else return { site with depth := site.depth + 1 }

def checkLambda (site : Site) (e : Expr) (store : Store) : Stage Unit := do
  if site.inLambda then
    fail (.storeInLambda store.name) (site.spanOf e.origin)

def declareLocal (name : String) : Stage Unit := do
  let count ← stepCount
  modify fun s => { s with locals := (name, count) :: s.locals }

/-- Notes the use of a name if it is a local of the fragment. Locals of nested scopes always share a
step with their uses. -/
def noteLocal (site : Site) (o : Origin) (name : String) : Stage Unit := do
  if !site.hidden.contains name then
    match (← get).locals.find? (·.1 == name) with
    | none => pure ()
    | some (_, count) =>
      let use : LocalUse := { name := name, declaredAt := count, span := site.spanOf o }
      modify fun s => { s with uses := s.uses ++ [use] }

/-- Checks that every local that was used is declared in the step that the plain code of its uses
goes into. -/
def checkUses : Stage Unit := do
  let s ← get
  set { s with uses := [] }
  match s.uses.find? (·.declaredAt != s.steps.length) with
  | none => pure ()
  | some use => fail (.localAcrossScheduledCall use.name) use.span

end Stage

end Workflow
