import Workflow.Activity.Build.Graph
import Workflow.Activity.Build.Service

/-!
# Building activities and units

A statement is built by its label. The construction of an activity stops at its first error; a unit
goes on with its next activity, and fails with the errors of all its activities.
-/

namespace Workflow

namespace Build

/-- The kind of the statements with a label. -/
def tag? : String → Option StmtTag
  | "code" => some .code
  | "empty" => some .empty
  | "if" => some .conditional
  | "while" | "do-while" => some .loop
  | "switch" => some .switch
  | "throw" => some .raise
  | "try" => some .guarded
  | "foreach" | "parallel-foreach" => some .forEach
  | "delay" => some .delay
  | "parallel" => some .parallel
  | "pick" => some .pick
  | "statemachine" => some .stateMachine
  | "flow" => some .flow
  | "transacted" => some .transacted
  | "cancellable" => some .cancellable
  | "compensable" => some .compensable
  | "confirm" => some .confirm
  | "compensate" => some .compensate
  | "persist" => some .persist
  | "nopersist" => some .noPersist
  | "terminate" => some .terminate
  | "receive" | "send" | "send-reply" | "receive-reply" => some .service
  | "content-correlation" => some .contentCorrelation
  | "transacted-receive" => some .transactedReceive
  | _ => none

/-- The parts of a statement. Those that are parts of a construct are built with the construct. -/
def parts (unit : Nat) (build : Inner) (tag : StmtTag) (node : ParseNode) (parent id : StmtId) :
    Build StmtKind := do
  match tag with
  | .code => code unit node
  | .empty => return .empty
  | .conditional => conditional unit build node id
  | .loop => loop unit build node id
  | .switch => switch unit build node id
  | .raise => raise unit node parent
  | .guarded => guarded unit build node id
  | .forEach => forEach unit build node id
  | .delay => return .delay (← fragment unit node "duration")
  | .parallel => parallel unit build node id
  | .pick => pick unit build node id
  | .stateMachine => stateMachine unit build node id
  | .flow => flow unit build node id
  | .transacted => transacted unit build node id
  | .cancellable => cancellable unit build node id
  | .compensable => compensable unit build node id parent
  | .confirm => return .confirm (← optionalFragment unit node "target")
  | .compensate => return .compensate (← optionalFragment unit node "target")
  | .persist => persist unit node parent
  | .noPersist => return .noPersist (← requiredStmt unit build node "body" id)
  | .terminate => terminate unit node
  | .service => service unit (serviceKind node.label) node id
  | .contentCorrelation => contentCorrelation unit node
  | .transactedReceive => transactedReceive unit build node id
  | .sequence | .handler | .pickBranch | .state | .transition | .transitionBody | .flowStep
  | .flowIf | .flowSwitch =>
    fail (.internal s!"{tag.title} built out of context") (node.span.inUnit unit)

def stmtWith (unit : Nat) (build : Inner) : Inner := fun node parent => do
  if node.label == "var" then varStatement unit node parent
  else if node.label == "sequence" then some <$> sequence unit build node (some parent)
  else
    let span := node.span.inUnit unit
    match tag? node.label with
    | none => fail (.unknownStatement node.label) span
    | some tag =>
      let id ← alloc tag (some parent) span
      let kind ← parts unit build tag node parent id
      setKind id kind
      return some id

/-- A statement whose node is at most as deep as given. The depth of the whole tree is enough, so
that nothing is cut off. -/
def stmt (unit : Nat) : Nat → Inner
  | 0 => fun node parent => some <$> alloc .empty (some parent) (node.span.inUnit unit)
  | depth + 1 => stmtWith unit (stmt unit depth)

/-- The body of an activity. A body that is no sequence is put into one. -/
def body (unit : Nat) (node : ParseNode) : Build StmtId := do
  let build := stmt unit node.depth
  if node.label == "sequence" then sequence unit build node none
  else
    let root ← alloc .sequence none (node.span.inUnit unit)
    let member ← build node root
    setKind root (.sequence member.toList)
    return root

def activityParts (unit : Nat) (node : ParseNode) : Build Unit := do
  signature unit node
  let bodyNode ← check (node.require "body")
  let root ← body unit bodyNode
  modifyActivity fun a => { a with root := root }

end Build

/-- Builds an activity from its node. The numbers given out are returned in either case. -/
def Activity.build (ids : Ids) (unit : Nat) (node : ParseNode) :
    Except CompileError Activity × Ids :=
  if node.label != "activity" then
    (.error ((Cause.unknownStatement node.label).error (node.span.inUnit unit)), ids)
  else
    match node.requireText with
    | .error e => (.error e, ids)
    | .ok name =>
      let start : BuildState :=
        { ids := ids, activity := { name := name, span := node.span.inUnit unit } }
      match (Build.activityParts unit node).run start with
      | .ok _ s => (.ok s.activity, s.ids)
      | .error e s => (.error e, s.ids)

namespace CompilationUnit

structure Progress where
  ids : Ids
  activities : List Activity := []
  errors : Diagnostics := {}

/-- Builds one more activity. Its name must be new in the unit. -/
def Progress.add (unit : Nat) (p : Progress) (node : ParseNode) : Progress :=
  match Activity.build p.ids unit node with
  | (.error e, ids) => { p with ids := ids, errors := p.errors.push e }
  | (.ok a, ids) =>
    if p.activities.any (·.name == a.name) then
      { p with ids := ids, errors := p.errors.report (.duplicateName a.name) a.span }
    else { p with ids := ids, activities := p.activities ++ [a] }

/-- Builds all activities of a unit, or fails with the errors of those that cannot be built. -/
def build (ids : Ids) (index : Nat) (u : ParseUnit) :
    Except (List CompileError) CompilationUnit × Ids :=
  let p := u.activities.foldl (Progress.add index) { ids := ids }
  (p.errors.checkpoint.map fun _ =>
    { index := index, path := u.path, ns := u.ns, imports := u.imports
      activities := p.activities }, p.ids)

end CompilationUnit

end Workflow
