import Workflow.Lower.Statement

/-!
# Lowering activities and units

The graph of an activity has the activity's parameters and its result as arguments, and the lowered
body. Variables of the activity itself go into the outermost sequence of the body.
-/

namespace Workflow

/-- How deep expressions may nest unless it is configured. -/
def defaultMaxDepth : Nat := 64

namespace Lower

def withVariables (vars : List VariableDecl) : Option Node → Node
  | none => .sequence vars []
  | some (.mk none (.sequence inner nodes)) => .sequence (vars ++ inner) nodes
  | some body => if vars.isEmpty then body else .sequence vars [body]

def root (c : LowerContext) : Lower Node := do
  let a := c.activity
  let own := a.activityStores.filter fun id => (a.stores[id]?).any (·.kind == .var)
  let vars ← variablesOf c own
  let body ← stmt c a.stmts.size a.root
  return withVariables vars body

def arguments (c : LowerContext) : Lower (List ArgumentDecl) :=
  let ids := c.activity.parameters ++ c.activity.result.toList
  (ids.filterMap fun id => c.activity.stores[id]?).mapM fun store => do
    return { name := store.name, ty := ← storeType c store, direction := store.kind.direction }

def graph (c : LowerContext) (ns : Option String) : Lower NodeGraph := do
  let body ← root c
  let arguments ← arguments c
  return { name := c.activity.name, ns := ns, arguments := arguments, body := body }

end Lower

def Activity.lower (a : Activity) (ns : Option String) (semantics : SemanticIndex)
    (maxDepth : Nat) : NodeGraph × List CompileError :=
  let (graph, s) :=
    (Lower.graph { activity := a, semantics := semantics, maxDepth := maxDepth } ns).run {}
  (graph, s.errors.errors)

def CompilationUnit.lower (u : CompilationUnit) (semantics : SemanticIndex) (maxDepth : Nat) :
    Except (List CompileError) (List NodeGraph) :=
  let lowered := u.activities.map fun a => a.lower u.ns semantics maxDepth
  let errors : Diagnostics := ⟨lowered.flatMap (·.2)⟩
  errors.checkpoint.map fun _ => lowered.map (·.1)

end Workflow
