import Workflow.Activity.Resolve.Correlation
import Workflow.Activity.Resolve.Jump

/-!
# Resolving activities and units

The jumps of an activity are resolved in pre-order of their flowcharts and state machines, and then
its replies are correlated.
-/

namespace Workflow

def Resolve.jumps (id : StmtId) : Resolve Unit := do
  match (← activity).tag id with
  | .flow => flow id
  | .stateMachine => stateMachine id
  | _ => return ()

def Resolve.all : Resolve Unit := do
  (← activity).preorder.forM jumps
  correlate

def Activity.resolve (ids : Ids) (errors : Diagnostics) (a : Activity) :
    Activity × Ids × Diagnostics :=
  let s := (Resolve.all.run { ids := ids, activity := a, errors := errors }).2
  (s.activity, s.ids, s.errors)

namespace CompilationUnit

def resolveActivities (ids : Ids) (errors : Diagnostics) :
    List Activity → List Activity × Ids × Diagnostics
  | [] => ([], ids, errors)
  | a :: rest =>
    let (a, ids, errors) := a.resolve ids errors
    let (rest, ids, errors) := resolveActivities ids errors rest
    (a :: rest, ids, errors)

def resolve (ids : Ids) (errors : Diagnostics) (u : CompilationUnit) :
    CompilationUnit × Ids × Diagnostics :=
  let (activities, ids, errors) := resolveActivities ids errors u.activities
  ({ u with activities := activities }, ids, errors)

def resolveAll (ids : Ids) (errors : Diagnostics) :
    List CompilationUnit → List CompilationUnit × Ids × Diagnostics
  | [] => ([], ids, errors)
  | u :: rest =>
    let (u, ids, errors) := u.resolve ids errors
    let (rest, ids, errors) := resolveAll ids errors rest
    (u :: rest, ids, errors)

end CompilationUnit

end Workflow
