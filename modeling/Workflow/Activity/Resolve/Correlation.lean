import Workflow.Activity.Resolve.Monad

/-!
# Correlating replies with requests

A reply belongs to the request of its own side that it names, or to the last one before it. A
request takes one reply. The pair shares a correlation handle, which is a new store of the activity,
and the reply takes over the contract and the operation of its request unless it has its own.
-/

namespace Workflow

def correlationHandleType : TypeName := ⟨"CorrelationHandle"⟩

def Activity.modifyService (a : Activity) (id : StmtId)
    (f : ServiceOperation → ServiceOperation) : Activity :=
  match a.kind id with
  | .service op => a.setKind id (.service (f op))
  | _ => a

namespace Resolve

def isRequest (a : Activity) (side : Side) (id : StmtId) : Bool :=
  (a.service? id).any fun op => !op.kind.isReply && op.kind.side == side

/-- The request of a reply, among all operations by name, or among those before it, the last one
first. -/
def requestOf (a : Activity) (ops before : List StmtId) (reply : ServiceOperation) :
    Option StmtId :=
  match reply.requestName with
  | some name =>
    ops.find? fun id =>
      isRequest a reply.kind.side id && (a.service? id).any (·.name == some name)
  | none => before.find? (isRequest a reply.kind.side)

/-- Declares a store for the handle of a request, or reports why that cannot be done. -/
def declareHandle (request : StmtId) : Resolve (Option StoreId) :=
  modifyGet fun s =>
    let (name, a) := s.activity.nextTemp "handle"
    let ids := { s.ids with markers := s.ids.markers + 1 }
    let store : Store :=
      { name := name, ty := correlationHandleType, kind := .var, marker := ids.markers
        host := .activity, span := a.stmtSpan request }
    match a.declare store with
    | .ok (id, a) => (some id, { s with ids := ids, activity := a })
    | .error e => (none, { ids := ids, activity := a, errors := s.errors.push e })

def link (replyId requestId : StmtId) (request : ServiceOperation) (handle : StoreId) :
    Resolve Unit := do
  modifyActivity fun a => a.modifyService requestId fun op =>
    { op with reply := some replyId, correlationStore := some handle }
  modifyActivity fun a => a.modifyService replyId fun op =>
    { op with
      request := some requestId
      contract := op.contract <|> request.contract
      operation := op.operation <|> request.operation }

def correlateReply (ops before : List StmtId) (replyId : StmtId) (reply : ServiceOperation) :
    Resolve Unit := do
  let a ← activity
  let span := a.stmtSpan replyId
  match requestOf a ops before reply with
  | none => report (.requestNotFound reply.displayName) span
  | some requestId =>
    match a.service? requestId with
    | none => return ()
    | some request =>
      if request.reply.isSome then
        report (.requestAlreadyReferenced request.displayName) span
      else
        match ← declareHandle requestId with
        | none => return ()
        | some handle => link replyId requestId request handle

/-- Correlates the replies among the operations from some place on; `before` holds those before it,
the last one first. -/
def correlateFrom (ops : List StmtId) : (before rest : List StmtId) → Resolve Unit
  | _, [] => return ()
  | before, id :: rest => do
    match (← activity).service? id with
    | some op => if op.kind.isReply then correlateReply ops before id op
    | none => pure ()
    correlateFrom ops (id :: before) rest

def correlate : Resolve Unit := do
  let ops := (← activity).serviceOperations
  correlateFrom ops [] ops

end Resolve

end Workflow
