import Workflow.Model.Format
import Workflow.Semantics.Basic

/-!
# The JSON format of semantic models

Symbols are tagged by `symbol`; the parts of a method stand beside its tag. Absent parts are left
out.
-/

namespace Workflow

open Json

namespace Diagnostic

def toJson (d : Diagnostic) : Json :=
  .obj ([("message", .str d.message)] ++ fieldOpt "marker" nat d.marker ++
    fieldOpt "span" Span.toJson d.span)

def ofJson? (j : Json) : Option Diagnostic := do
  let r ← Record.ofJson? ["message", "marker", "span"] j
  return {
    message := (← r.required "message" str?), marker := (← r.omissible "marker" (word? 32))
    span := (← r.omissible "span" Span.ofJson?) }

end Diagnostic

namespace Symbol

def toJson : Symbol → Json
  | .store declaration => .obj [("symbol", .str "store"), ("declaration", .nat declaration)]
  | .localVar => .obj [("symbol", .str "local")]
  | .method m =>
    .obj ([("symbol", .str "method"), ("name", .str m.name), ("container", .str m.container),
        ("parameters", .arr (m.parameters.map ScheduledParameter.toJson))] ++
      fieldOpt "returnType" TypeName.toJson m.returnType ++
      fieldOpt "scheduling" SchedulingAttribute.toJson m.scheduling)
  | .type name => .obj [("symbol", .str "type"), ("name", .str name)]
  | .other => .obj [("symbol", .str "other")]

def tags : List String := ["store", "local", "method", "type", "other"]

def ofJson? (j : Json) : Option Symbol := do
  let v ← Variant.ofJson? .outside "symbol" tags j
  match v.tag with
  | "store" =>
    let r ← v.record? ["declaration"]
    return .store (← r.required "declaration" (word? 32))
  | "local" =>
    let _ ← v.record? []
    some .localVar
  | "method" =>
    let r ← v.record? ["name", "container", "parameters", "returnType", "scheduling"]
    let name ← r.required "name" str?
    let container ← r.required "container" str?
    let parameters ← r.defaulted "parameters" [] (list? (ScheduledParameter.ofJsonAt? .inside))
    let returnType ← r.omissible "returnType" TypeName.ofJson?
    let scheduling ← r.omissible "scheduling" (SchedulingAttribute.ofJsonAt? .inside)
    some (.method { name := name, container := container, parameters := parameters
                    returnType := returnType, scheduling := scheduling })
  | "type" =>
    let r ← v.record? ["name"]
    return .type (← r.required "name" str?)
  | "other" =>
    let _ ← v.record? []
    some .other
  | _ => none

end Symbol

namespace ExprAnnotation

def toJson (a : ExprAnnotation) : Json :=
  .obj ([("expr", .nat a.expr)] ++ fieldOpt "symbol" Symbol.toJson a.symbol ++
    fieldOpt "ty" TypeName.toJson a.ty)

def ofJson? (j : Json) : Option ExprAnnotation := do
  let r ← Record.ofJson? ["expr", "symbol", "ty"] j
  return {
    expr := (← r.required "expr" (word? 32)), symbol := (← r.omissible "symbol" Symbol.ofJson?)
    ty := (← r.omissible "ty" TypeName.ofJson?) }

end ExprAnnotation

namespace AnnotatedFragment

def toJson (f : AnnotatedFragment) : Json :=
  .obj [("marker", .nat f.marker), ("exprs", .arr (f.exprs.map ExprAnnotation.toJson))]

def ofJson? (j : Json) : Option AnnotatedFragment := do
  let r ← Record.ofJson? ["marker", "exprs"] j
  return {
    marker := (← r.required "marker" (word? 32))
    exprs := (← r.required "exprs" (list? ExprAnnotation.ofJson?)) }

end AnnotatedFragment

namespace DeclarationType

def toJson (d : DeclarationType) : Json :=
  .obj [("marker", .nat d.marker), ("ty", d.ty.toJson)]

def ofJson? (j : Json) : Option DeclarationType := do
  let r ← Record.ofJson? ["marker", "ty"] j
  return {
    marker := (← r.required "marker" (word? 32)), ty := (← r.required "ty" TypeName.ofJson?) }

end DeclarationType

namespace SemanticModel

def toJson (m : SemanticModel) : Json :=
  .obj [("fragments", .arr (m.fragments.map AnnotatedFragment.toJson)),
    ("declarations", .arr (m.declarations.map DeclarationType.toJson))]

def ofJson? (j : Json) : Option SemanticModel := do
  let r ← Record.ofJson? ["fragments", "declarations"] j
  return {
    fragments := (← r.required "fragments" (list? AnnotatedFragment.ofJson?))
    declarations := (← r.required "declarations" (list? DeclarationType.ofJson?)) }

end SemanticModel

end Workflow
