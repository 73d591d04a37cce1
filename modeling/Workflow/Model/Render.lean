import Workflow.Code.Render
import Workflow.Model.Basic

/-!
# Rendering model programs

The text of a model program, one statement a line and indented by its nesting. Markers stand in
comments: after the name that they declare, and before the fragment that they mark.
-/

namespace Workflow

open ModelStmt

def indentation (level : Nat) : String := String.join (List.replicate level "    ")

def fragmentTag : Option Marker → String
  | none => ""
  | some m => s!"/*{markerText m}*/ "

def declarationTag : Option Marker → String
  | none => ""
  | some m => s!" /*{markerText m}*/"

def ModelExpr.render (e : ModelExpr) : String := fragmentTag e.marker ++ e.expr.render

def ModelExpr.renderInit : Option ModelExpr → String
  | none => ""
  | some e => " = " ++ e.render

/-- The type of a variable, which may be that of another one. -/
def ModelStmt.renderType (ty : TypeName) : Option String → String
  | some other => s!"typeof({other})"
  | none => ty.text

mutual
def ModelStmt.render (level : Nat) : ModelStmt → String
  | .declare marker name ty like init =>
    indentation level ++ renderType ty like ++ " " ++ name ++ declarationTag marker ++
      ModelExpr.renderInit init ++ ";\n"
  | .eval expr => indentation level ++ expr.render ++ ";\n"
  | .fragment marker body =>
    indentation level ++ fragmentTag (some marker) ++ CodeStmt.renderBody body ++ "\n"
  | .block body =>
    indentation level ++ "\x7b\n" ++ renderList (level + 1) body ++
      indentation level ++ "\x7d\n"
  | .forEach marker name ty values body =>
    indentation level ++ "foreach (" ++ ty.text ++ " " ++ name ++ declarationTag (some marker) ++
      " in " ++ values.render ++ ") \x7b\n" ++ renderList (level + 1) body ++
      indentation level ++ "\x7d\n"

def ModelStmt.renderList (level : Nat) : List ModelStmt → String
  | [] => ""
  | s :: rest => s.render level ++ renderList level rest
end

def ModelParameter.render (p : ModelParameter) : String :=
  p.direction.mark ++ p.ty.text ++ " " ++ p.name

namespace ModelMethod

def renderSignature (m : ModelMethod) : String :=
  let result := match m.returnType with
    | some ty => ty.text
    | none => "void"
  result ++ " " ++ m.name ++ "(" ++ joinWith ", " (m.parameters.map ModelParameter.render) ++ ")"

def renderScheduling : Option SchedulingAttribute → String
  | none => ""
  | some a => "    [Scheduled(\"" ++ a.nodeType ++ "\")]\n"

def render (m : ModelMethod) : String :=
  renderScheduling m.scheduling ++
    match m.body with
    | none => "    " ++ m.renderSignature ++ ";\n"
    | some body =>
      "    " ++ m.renderSignature ++ " \x7b\n" ++ renderList 2 body ++ "    \x7d\n"

end ModelMethod

def ModelType.render (t : ModelType) : String :=
  "class " ++ t.qualifiedName ++ " \x7b\n" ++ String.join (t.methods.map ModelMethod.render) ++
    "\x7d\n"

def ModelUnit.render (u : ModelUnit) : String :=
  String.join (u.imports.map fun i => "using " ++ i ++ ";\n") ++
    String.join (u.types.map ModelType.render)

end Workflow
