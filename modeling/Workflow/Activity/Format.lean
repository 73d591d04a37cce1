import Workflow.Activity.Basic
import Workflow.Code.Format
import Workflow.Code.Render

/-!
# The JSON form of activities

An activity is shown with its whole arena: every store, and every statement with its place in the
tree and its parts. Statements and stores are referred to by their indices, and what is absent is
`null`. The form is for inspection; it is not read back.
-/

namespace Workflow

open Json (array nats orNull)

def StoreHost.toJson : StoreHost → Json
  | .activity => .str "activity"
  | .statement id => .nat id

def Store.toJson (s : Store) : Json :=
  .obj [("name", .str s.name), ("ty", s.ty.toJson), ("kind", .str s.kind.word),
    ("marker", .nat s.marker), ("host", s.host.toJson), ("span", s.span.toJson),
    ("initialized", .bool s.initialized),
    ("rewrite", orNull (fun e => .str e.render) s.redirect),
    ("handle", .str s.handle.render), ("isArgument", .bool s.kind.isArgument),
    ("direction", s.kind.direction.toJson)]

def Fragment.toJson (f : Fragment) : Json :=
  .obj [("marker", .nat f.marker), ("span", f.span.toJson), ("expr", f.expr.toJson)]

def NodeRef.toJson (r : NodeRef) : Json :=
  .obj [("name", .str r.name), ("span", r.span.toJson), ("resolved", orNull .nat r.resolved)]

def ContentParameter.listToJson (params : List ContentParameter) : Json :=
  array (fun p => .obj [("name", .str p.name), ("value", p.value.toJson)]) params

def Content.toJson : Content → Json
  | .message value => .obj [("message", value.toJson)]
  | .parameters params => .obj [("parameters", ContentParameter.listToJson params)]

def ServiceOperation.toJson (op : ServiceOperation) : Json :=
  .obj [("kind", .str op.kind.title), ("name", orNull .str op.name),
    ("displayName", .str op.displayName), ("contract", orNull TypeName.toJson op.contract),
    ("operation", orNull .str op.operation), ("content", orNull Content.toJson op.content),
    ("correlatesWith", orNull Fragment.toJson op.correlatesWith),
    ("canCreateInstance", .bool op.canCreateInstance),
    ("endpoint", orNull Fragment.toJson op.endpoint),
    ("requestName", orNull .str op.requestName), ("request", orNull .nat op.request),
    ("reply", orNull .nat op.reply), ("correlationStore", orNull .nat op.correlationStore)]

def StmtKind.toJson : StmtKind → Json
  | .code f chained initializes =>
    .obj [("fragment", .obj [("marker", .nat f.marker), ("span", f.span.toJson),
        ("body", array CodeStmt.toJson f.body)]),
      ("chained", orNull .nat chained), ("initializes", orNull .nat initializes)]
  | .empty | .persist => .obj []
  | .sequence members => .obj [("members", nats members)]
  | .conditional condition yes no =>
    .obj [("condition", condition.toJson), ("then", .nat yes), ("otherwise", orNull .nat no)]
  | .loop condition body testAfter =>
    .obj [("condition", condition.toJson), ("body", .nat body), ("doWhile", .bool testAfter)]
  | .switch value cases fallback =>
    .obj [("value", value.toJson),
      ("cases", array (fun (c : SwitchCase) =>
        .obj [("key", c.key.toJson), ("body", .nat c.body)]) cases),
      ("default", orNull .nat fallback)]
  | .raise exception => .obj [("exception", orNull Fragment.toJson exception)]
  | .guarded body handlers final =>
    .obj [("body", .nat body), ("catches", nats handlers),
      ("finally", orNull .nat final)]
  | .handler exceptionType caught body =>
    .obj [("exceptionType", exceptionType.toJson), ("variable", orNull .nat caught),
      ("body", .nat body)]
  | .forEach item values body isParallel completion =>
    .obj [("item", .nat item), ("values", values.toJson), ("body", .nat body),
      ("parallel", .bool isParallel), ("completion", orNull Fragment.toJson completion)]
  | .delay duration => .obj [("duration", duration.toJson)]
  | .parallel branches completion =>
    .obj [("branches", nats branches), ("completion", orNull Fragment.toJson completion)]
  | .pick branches => .obj [("branches", nats branches)]
  | .pickBranch trigger action =>
    .obj [("trigger", .nat trigger), ("action", orNull .nat action)]
  | .stateMachine states start resolvedStart =>
    .obj [("states", nats states), ("start", orNull NodeRef.toJson start),
      ("resolvedStart", orNull .nat resolvedStart)]
  | .state name isFinal entry exit transitions =>
    .obj [("name", .str name), ("isFinal", .bool isFinal), ("entry", orNull .nat entry),
      ("exit", orNull .nat exit), ("transitions", nats transitions)]
  | .transition trigger bodies =>
    .obj [("trigger", orNull .nat trigger), ("bodies", nats bodies)]
  | .transitionBody condition action target =>
    .obj [("condition", orNull Fragment.toJson condition), ("action", orNull .nat action),
      ("target", target.toJson)]
  | .flow nodes start => .obj [("nodes", nats nodes), ("start", orNull .nat start)]
  | .flowStep name action next resolvedNext =>
    .obj [("name", orNull .str name), ("action", .nat action),
      ("next", orNull NodeRef.toJson next),
      ("resolvedNext", orNull .nat resolvedNext)]
  | .flowIf name condition onTrue onFalse =>
    .obj [("name", orNull .str name), ("condition", condition.toJson),
      ("onTrue", orNull NodeRef.toJson onTrue), ("onFalse", orNull NodeRef.toJson onFalse)]
  | .flowSwitch name value cases fallback =>
    .obj [("name", orNull .str name), ("value", value.toJson),
      ("cases", array (fun (c : FlowCase) =>
        .obj [("key", c.key.toJson), ("target", c.target.toJson)]) cases),
      ("default", orNull NodeRef.toJson fallback)]
  | .transacted body timeout =>
    .obj [("body", .nat body), ("timeout", orNull Fragment.toJson timeout)]
  | .cancellable body onCancel => .obj [("body", .nat body), ("handler", orNull .nat onCancel)]
  | .compensable body token compensation confirmation cancellation =>
    .obj [("body", .nat body), ("token", orNull .nat token),
      ("compensation", orNull .nat compensation), ("confirmation", orNull .nat confirmation),
      ("cancellation", orNull .nat cancellation)]
  | .confirm target => .obj [("target", orNull Fragment.toJson target)]
  | .compensate target => .obj [("target", orNull Fragment.toJson target)]
  | .noPersist body => .obj [("body", .nat body)]
  | .terminate reason exception =>
    .obj [("reason", orNull Fragment.toJson reason),
      ("exception", orNull Fragment.toJson exception)]
  | .service op => op.toJson
  | .contentCorrelation handle data =>
    .obj [("handle", handle.toJson), ("data", ContentParameter.listToJson data)]
  | .transactedReceive request body => .obj [("request", .nat request), ("body", .nat body)]

def Activity.stmtToJson (a : Activity) (id : StmtId) (s : Stmt) : Json :=
  .obj [("parent", orNull .nat s.parent), ("tag", .str s.tag.title), ("span", s.span.toJson),
    ("stores", nats s.stores), ("children", nats s.kind.children),
    ("nodeName", orNull .str s.kind.nodeName), ("storeHost", (a.storeHost id).toJson),
    ("kind", s.kind.toJson)]

def Activity.toJson (a : Activity) : Json :=
  let visible := a.stores.toList.filterMap fun s => a.lookup (.statement a.root) s.name
  .obj [("name", .str a.name), ("span", a.span.toJson), ("root", .nat a.root),
    ("parameters", nats a.parameters), ("result", orNull .nat a.result),
    ("resultType", orNull TypeName.toJson a.resultType),
    ("activityStores", nats a.activityStores),
    ("serviceOperations", nats a.serviceOperations),
    ("preorder", nats a.preorder), ("visibleFromRoot", nats visible),
    ("stores", array Store.toJson a.stores.toList),
    ("stmts", .arr (a.stmts.toList.zipIdx.map fun (s, id) => a.stmtToJson id s))]

def CompilationUnit.toJson (u : CompilationUnit) : Json :=
  .obj [("index", .nat u.index), ("path", orNull .str u.path), ("namespace", orNull .str u.ns),
    ("imports", .strings u.imports), ("activities", array Activity.toJson u.activities)]

end Workflow
