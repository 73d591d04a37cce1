import Workflow.Activity.Build.Monad

/-!
# Resolving activities: state

Resolution reports every error that it finds and goes on. It carries the activity, the numbers given
out and the errors found.
-/

namespace Workflow

structure ResolveState where
  ids : Ids
  activity : Activity
  errors : Diagnostics
deriving Inhabited

abbrev Resolve := StateM ResolveState

namespace Resolve

def activity : Resolve Activity := return (← get).activity

def modifyActivity (f : Activity → Activity) : Resolve Unit :=
  modify fun s => { s with activity := f s.activity }

def setKind (id : StmtId) (kind : StmtKind) : Resolve Unit := modifyActivity (·.setKind id kind)

def report (cause : Cause) (span : Span) : Resolve Unit :=
  modify fun s => { s with errors := s.errors.report cause span }

end Resolve

end Workflow
