import Workflow.Code.Format
import Workflow.Model.External

/-!
# The JSON format of model programs

Absent parts are left out; flags and lists are always written. Statements are tagged by `stmt`, and
what a type is derived from by `base`.
-/

namespace Workflow

open Json

namespace ScheduledParameter

def toJson (p : ScheduledParameter) : Json :=
  .obj [("name", .str p.name), ("ty", p.ty.toJson), ("direction", p.direction.toJson)]

def ofJsonAt? (place : Place) (j : Json) : Option ScheduledParameter := do
  let r ← Record.ofJson? ["name", "ty", "direction"] j
  return {
    name := (← r.required "name" str?), ty := (← r.required "ty" TypeName.ofJson?)
    direction := (← r.defaulted "direction" .input (Direction.ofJsonAt? place)) }

def ofJson? (j : Json) : Option ScheduledParameter := ofJsonAt? .outside j

end ScheduledParameter

namespace SchedulingAttribute

def toJson (a : SchedulingAttribute) : Json :=
  .obj ([("nodeType", .str a.nodeType),
      ("parameters", .arr (a.parameters.map ScheduledParameter.toJson))] ++
    fieldOpt "result" TypeName.toJson a.result)

def ofJsonAt? (place : Place) (j : Json) : Option SchedulingAttribute := do
  let r ← Record.ofJson? ["nodeType", "parameters", "result"] j
  return {
    nodeType := (← r.required "nodeType" str?)
    parameters := (← r.required "parameters" (list? (ScheduledParameter.ofJsonAt? place)))
    result := (← r.omissible "result" TypeName.ofJson?) }

def ofJson? (j : Json) : Option SchedulingAttribute := ofJsonAt? .outside j

end SchedulingAttribute

namespace ModelParameter

def toJson (p : ModelParameter) : Json :=
  .obj ([("name", .str p.name), ("ty", p.ty.toJson), ("direction", p.direction.toJson)] ++
    fieldOpt "marker" nat p.marker)

def ofJson? (j : Json) : Option ModelParameter := do
  let r ← Record.ofJson? ["name", "ty", "direction", "marker"] j
  return {
    name := (← r.required "name" str?), ty := (← r.required "ty" TypeName.ofJson?)
    direction := (← r.defaulted "direction" .input Direction.ofJson?)
    marker := (← r.omissible "marker" (word? 32)) }

end ModelParameter

namespace ModelExpr

def toJson (e : ModelExpr) : Json :=
  .obj (fieldOpt "marker" nat e.marker ++ [("expr", e.expr.toJson)])

def ofJson? (j : Json) : Option ModelExpr := do
  let r ← Record.ofJson? ["marker", "expr"] j
  return {
    marker := (← r.omissible "marker" (word? 32))
    expr := (← r.required "expr" (Expr.ofJsonAt? .inside)) }

end ModelExpr

namespace ModelStmt

mutual
def toJson : ModelStmt → Json
  | .declare marker name ty like init =>
    .obj ([("stmt", .str "declare")] ++ fieldOpt "marker" nat marker ++
      [("name", .str name), ("ty", ty.toJson)] ++ fieldOpt "like" str like ++
      fieldOpt "init" ModelExpr.toJson init)
  | .eval expr => .obj [("stmt", .str "eval"), ("expr", expr.toJson)]
  | .fragment marker body =>
    .obj [("stmt", .str "fragment"), ("marker", .nat marker),
      ("body", .arr (CodeStmt.toJsonList body))]
  | .block body => .obj [("stmt", .str "block"), ("body", .arr (toJsonList body))]
  | .forEach marker name ty values body =>
    .obj [("stmt", .str "forEach"), ("marker", .nat marker), ("name", .str name),
      ("ty", ty.toJson), ("values", values.toJson), ("body", .arr (toJsonList body))]

def toJsonList : List ModelStmt → List Json
  | [] => []
  | s :: rest => s.toJson :: toJsonList rest
end

def tags : List String := ["declare", "eval", "fragment", "block", "forEach"]

def read? : Nat → Place → Json → Option ModelStmt
  | 0, _, _ => none
  | n + 1, place, j => do
    let v ← Variant.ofJson? place "stmt" tags j
    match v.tag with
    | "declare" =>
      let r ← v.record? ["marker", "name", "ty", "like", "init"]
      return .declare (← r.omissible "marker" (word? 32)) (← r.required "name" str?)
        (← r.required "ty" TypeName.ofJson?) (← r.omissible "like" str?)
        (← r.omissible "init" ModelExpr.ofJson?)
    | "eval" =>
      let r ← v.record? ["expr"]
      return .eval (← r.required "expr" ModelExpr.ofJson?)
    | "fragment" =>
      let r ← v.record? ["marker", "body"]
      return .fragment (← r.required "marker" (word? 32))
        (← r.required "body" (list? (CodeStmt.ofJsonAt? .inside)))
    | "block" =>
      let r ← v.record? ["body"]
      return .block (← r.required "body" (list? (read? n .inside)))
    | "forEach" =>
      let r ← v.record? ["marker", "name", "ty", "values", "body"]
      return .forEach (← r.required "marker" (word? 32)) (← r.required "name" str?)
        (← r.required "ty" TypeName.ofJson?) (← r.required "values" ModelExpr.ofJson?)
        (← r.required "body" (list? (read? n .inside)))
    | _ => none

def ofJson? (j : Json) : Option ModelStmt := read? (j.depth + 1) .outside j

end ModelStmt

namespace ModelMethod

def toJson (m : ModelMethod) : Json :=
  .obj ([("name", .str m.name), ("isStatic", .bool m.isStatic),
      ("parameters", .arr (m.parameters.map ModelParameter.toJson))] ++
    fieldOpt "returnType" TypeName.toJson m.returnType ++
    fieldOpt "scheduling" SchedulingAttribute.toJson m.scheduling ++
    fieldOpt "body" (fun body => .arr (ModelStmt.toJsonList body)) m.body)

def ofJson? (j : Json) : Option ModelMethod := do
  let r ← Record.ofJson? ["name", "isStatic", "parameters", "returnType", "scheduling", "body"] j
  return {
    name := (← r.required "name" str?), isStatic := (← r.defaulted "isStatic" false bool?)
    parameters := (← r.required "parameters" (list? ModelParameter.ofJson?))
    returnType := (← r.omissible "returnType" TypeName.ofJson?)
    scheduling := (← r.omissible "scheduling" SchedulingAttribute.ofJson?)
    body := (← r.omissible "body" (list? ModelStmt.ofJson?)) }

end ModelMethod

namespace ModelType

def toJson (t : ModelType) : Json :=
  .obj ([("name", .str t.name)] ++ fieldOpt "namespace" str t.ns ++
    [("synthesized", .bool t.synthesized), ("methods", .arr (t.methods.map ModelMethod.toJson))])

def ofJson? (j : Json) : Option ModelType := do
  let r ← Record.ofJson? ["name", "namespace", "synthesized", "methods"] j
  return {
    name := (← r.required "name" str?), ns := (← r.omissible "namespace" str?)
    synthesized := (← r.defaulted "synthesized" false bool?)
    methods := (← r.required "methods" (list? ModelMethod.ofJson?)) }

end ModelType

namespace ModelUnit

def toJson (u : ModelUnit) : Json :=
  .obj ([("index", .nat u.index)] ++ fieldOpt "namespace" str u.ns ++
    [("imports", .strings u.imports), ("types", .arr (u.types.map ModelType.toJson))])

def ofJson? (j : Json) : Option ModelUnit := do
  let r ← Record.ofJson? ["index", "namespace", "imports", "types"] j
  return {
    index := (← r.required "index" (word? 32)), ns := (← r.omissible "namespace" str?)
    imports := (← r.defaulted "imports" [] (list? str?))
    types := (← r.required "types" (list? ModelType.ofJson?)) }

end ModelUnit

namespace NodeBase

def toJson : NodeBase → Json
  | .activity => .obj [("base", .str "activity")]
  | .activityOf result => .obj [("base", .str "activityOf"), ("result", result.toJson)]
  | .other name => .obj [("base", .str "other"), ("name", .str name)]

def tags : List String := ["activity", "activityOf", "other"]

def ofJson? (j : Json) : Option NodeBase := do
  let v ← Variant.ofJson? .outside "base" tags j
  match v.tag with
  | "activity" =>
    let _ ← v.record? []
    some .activity
  | "activityOf" =>
    let r ← v.record? ["result"]
    return .activityOf (← r.required "result" TypeName.ofJson?)
  | "other" =>
    let r ← v.record? ["name"]
    return .other (← r.required "name" str?)
  | _ => none

end NodeBase

namespace ExternalNodeType

def toJson (t : ExternalNodeType) : Json :=
  .obj [("name", .str t.name), ("namespace", .str t.ns), ("isPublic", .bool t.isPublic),
    ("isAbstract", .bool t.isAbstract), ("hasDefaultConstructor", .bool t.hasDefaultConstructor),
    ("base", t.base.toJson), ("arguments", .arr (t.arguments.map ScheduledParameter.toJson))]

def ofJson? (j : Json) : Option ExternalNodeType := do
  let r ← Record.ofJson? ["name", "namespace", "isPublic", "isAbstract", "hasDefaultConstructor",
    "base", "arguments"] j
  return {
    name := (← r.required "name" str?), ns := (← r.required "namespace" str?)
    isPublic := (← r.required "isPublic" bool?), isAbstract := (← r.required "isAbstract" bool?)
    hasDefaultConstructor := (← r.required "hasDefaultConstructor" bool?)
    base := (← r.required "base" NodeBase.ofJson?)
    arguments := (← r.defaulted "arguments" [] (list? ScheduledParameter.ofJson?)) }

end ExternalNodeType

end Workflow
