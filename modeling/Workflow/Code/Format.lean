import Workflow.Code.Expr

/-!
# The JSON format of embedded code

An expression is an object with its identity, its span and its kind; the kind is tagged by `expr`.
The identity is left out when there is none and the span when it is unknown. A statement is tagged
by `stmt`. A constant has its type beside its value.
-/

namespace Workflow

open Json

namespace Literal

/-- A constant with its type; `null` has no value. -/
def toJson : Literal → Json
  | .null => .obj [("type", .str "null")]
  | .bool b => .obj [("type", .str "bool"), ("value", .bool b)]
  | .int n => .obj [("type", .str "int"), ("value", .int n)]
  | .float x => .obj [("type", .str "float"), ("value", .float x)]
  | .str s => .obj [("type", .str "str"), ("value", .str s)]

/-- The constant of a type and a value. `null` may come with the value `null`. -/
def ofParts? (type : String) (value : Option Json) : Option Literal :=
  match type, value with
  | "null", none => some .null
  | "null", some .null => some .null
  | "bool", some j => j.bool?.map .bool
  | "int", some j => j.int64?.map .int
  | "float", some j => j.number?.map .float
  | "str", some j => j.str?.map .str
  | _, _ => none

/-- Reads a constant from an object, or from an array of its type and its value. A constant always
stands inside an expression. -/
def ofJson? : Json → Option Literal
  | .obj fields => do
    let type ← (find? "type" fields).bind (choice? .inside)
    ofParts? type (find? "value" fields)
  | .arr [type, value] => do
    let type ← choice? .inside type
    ofParts? type (some value)
  | _ => none

end Literal

/-- The fields of an expression: its origin as far as it is known, and its kind. -/
def Origin.wrap (o : Origin) (kind : List (String × Json)) : Json :=
  .obj (fieldOpt "id" nat o.id ++
    (if o.span.isUnknown then [] else [("span", o.span.toJson)]) ++ [("kind", .obj kind)])

mutual
def Expr.toJson : Expr → Json
  | .literal o v => o.wrap [("expr", .str "literal"), ("value", v.toJson)]
  | .name o n => o.wrap [("expr", .str "name"), ("name", .str n)]
  | .member o t n => o.wrap [("expr", .str "member"), ("target", t.toJson), ("name", .str n)]
  | .call o c args =>
    o.wrap [("expr", .str "call"), ("callee", c.toJson), ("args", .arr (Argument.toJsonList args))]
  | .create o ty args =>
    o.wrap [("expr", .str "new"), ("ty", ty.toJson), ("args", .arr (Argument.toJsonList args))]
  | .unary o op e => o.wrap [("expr", .str "unary"), ("op", op.toJson), ("operand", e.toJson)]
  | .binary o op l r =>
    o.wrap [("expr", .str "binary"), ("op", op.toJson), ("lhs", l.toJson), ("rhs", r.toJson)]
  | .conditional o c y n =>
    o.wrap [("expr", .str "conditional"), ("condition", c.toJson), ("then", y.toJson),
      ("otherwise", n.toJson)]
  | .assign o op t v =>
    o.wrap [("expr", .str "assign"), ("op", op.toJson), ("target", t.toJson), ("value", v.toJson)]
  | .lambda o ps b =>
    o.wrap [("expr", .str "lambda"), ("params", .strings ps), ("body", b.toJson)]
  | .cast o ty e => o.wrap [("expr", .str "cast"), ("ty", ty.toJson), ("operand", e.toJson)]
  | .index o t i => o.wrap [("expr", .str "index"), ("target", t.toJson), ("index", i.toJson)]
  | .block o b v =>
    o.wrap ([("expr", .str "block"), ("body", .arr (CodeStmt.toJsonList b))] ++
      Expr.toJsonField "value" v)

def Argument.toJsonList : List Argument → List Json
  | [] => []
  | .mk d e :: rest =>
    .obj [("direction", d.toJson), ("value", e.toJson)] :: Argument.toJsonList rest

def CodeStmt.toJson : CodeStmt → Json
  | .eval e => .obj [("stmt", .str "expr"), ("expr", e.toJson)]
  | .declare name ty init span =>
    .obj ([("stmt", .str "local"), ("name", .str name), ("ty", ty.toJson)] ++
      Expr.toJsonField "init" init ++ (if span.isUnknown then [] else [("span", span.toJson)]))
  | .block b => .obj [("stmt", .str "block"), ("body", .arr (CodeStmt.toJsonList b))]
  | .branch c y n =>
    .obj ([("stmt", .str "if"), ("condition", c.toJson), ("then", y.toJson)] ++
      CodeStmt.toJsonField "otherwise" n)
  | .loop c b => .obj [("stmt", .str "while"), ("condition", c.toJson), ("body", b.toJson)]

def CodeStmt.toJsonList : List CodeStmt → List Json
  | [] => []
  | s :: rest => s.toJson :: CodeStmt.toJsonList rest

def Expr.toJsonField (name : String) : Option Expr → List (String × Json)
  | none => []
  | some e => [(name, e.toJson)]

def CodeStmt.toJsonField (name : String) : Option CodeStmt → List (String × Json)
  | none => []
  | some s => [(name, s.toJson)]
end

def Expr.tags : List String :=
  ["literal", "name", "member", "call", "new", "unary", "binary", "conditional", "assign", "lambda",
    "cast", "index", "block"]

def CodeStmt.tags : List String := ["expr", "local", "block", "if", "while"]

mutual
def Expr.read? : Nat → Place → Json → Option Expr
  | 0, _, _ => none
  | n + 1, place, j => do
    let r ← Record.ofJson? ["id", "span", "kind"] j
    let id ← r.omissible "id" (word? 32)
    let span ← r.defaulted "span" {} Span.ofJson?
    r.required "kind" (Expr.readKind? n place { id := id, span := span })

def Expr.readKind? : Nat → Place → Origin → Json → Option Expr
  | 0, _, _, _ => none
  | n + 1, place, o, j => do
    let v ← Variant.ofJson? place "expr" Expr.tags j
    match v.tag with
    | "literal" =>
      let r ← v.record? ["value"]
      let value ← r.required "value" Literal.ofJson?
      some (.literal o value)
    | "name" =>
      let r ← v.record? ["name"]
      let name ← r.required "name" str?
      some (.name o name)
    | "member" =>
      let r ← v.record? ["target", "name"]
      let target ← r.required "target" (Expr.read? n .inside)
      let name ← r.required "name" str?
      some (.member o target name)
    | "call" =>
      let r ← v.record? ["callee", "args"]
      let callee ← r.required "callee" (Expr.read? n .inside)
      let args ← r.defaulted "args" [] (list? (Argument.read? n))
      some (.call o callee args)
    | "new" =>
      let r ← v.record? ["ty", "args"]
      let ty ← r.required "ty" TypeName.ofJson?
      let args ← r.defaulted "args" [] (list? (Argument.read? n))
      some (.create o ty args)
    | "unary" =>
      let r ← v.record? ["op", "operand"]
      let op ← r.required "op" (UnaryOp.ofJsonAt? .inside)
      let operand ← r.required "operand" (Expr.read? n .inside)
      some (.unary o op operand)
    | "binary" =>
      let r ← v.record? ["op", "lhs", "rhs"]
      let op ← r.required "op" (BinaryOp.ofJsonAt? .inside)
      let lhs ← r.required "lhs" (Expr.read? n .inside)
      let rhs ← r.required "rhs" (Expr.read? n .inside)
      some (.binary o op lhs rhs)
    | "conditional" =>
      let r ← v.record? ["condition", "then", "otherwise"]
      let condition ← r.required "condition" (Expr.read? n .inside)
      let yes ← r.required "then" (Expr.read? n .inside)
      let no ← r.required "otherwise" (Expr.read? n .inside)
      some (.conditional o condition yes no)
    | "assign" =>
      let r ← v.record? ["op", "target", "value"]
      let op ← r.required "op" (AssignOp.ofJsonAt? .inside)
      let target ← r.required "target" (Expr.read? n .inside)
      let value ← r.required "value" (Expr.read? n .inside)
      some (.assign o op target value)
    | "lambda" =>
      let r ← v.record? ["params", "body"]
      let params ← r.defaulted "params" [] (list? str?)
      let body ← r.required "body" (Expr.read? n .inside)
      some (.lambda o params body)
    | "cast" =>
      let r ← v.record? ["ty", "operand"]
      let ty ← r.required "ty" TypeName.ofJson?
      let operand ← r.required "operand" (Expr.read? n .inside)
      some (.cast o ty operand)
    | "index" =>
      let r ← v.record? ["target", "index"]
      let target ← r.required "target" (Expr.read? n .inside)
      let index ← r.required "index" (Expr.read? n .inside)
      some (.index o target index)
    | "block" =>
      let r ← v.record? ["body", "value"]
      let body ← r.required "body" (list? (CodeStmt.read? n .inside))
      let value ← r.omissible "value" (Expr.read? n .inside)
      some (.block o body value)
    | _ => none

def Argument.read? : Nat → Json → Option Argument
  | 0, _ => none
  | n + 1, j => do
    let r ← Record.ofJson? ["direction", "value"] j
    return .mk (← r.defaulted "direction" .input (Direction.ofJsonAt? .inside))
      (← r.required "value" (Expr.read? n .inside))

def CodeStmt.read? : Nat → Place → Json → Option CodeStmt
  | 0, _, _ => none
  | n + 1, place, j => do
    let v ← Variant.ofJson? place "stmt" CodeStmt.tags j
    match v.tag with
    | "expr" =>
      let r ← v.record? ["expr"]
      return .eval (← r.required "expr" (Expr.read? n .inside))
    | "local" =>
      let r ← v.record? ["name", "ty", "init", "span"]
      return .declare (← r.required "name" str?) (← r.required "ty" TypeName.ofJson?)
        (← r.omissible "init" (Expr.read? n .inside)) (← r.defaulted "span" {} Span.ofJson?)
    | "block" =>
      let r ← v.record? ["body"]
      return .block (← r.required "body" (list? (CodeStmt.read? n .inside)))
    | "if" =>
      let r ← v.record? ["condition", "then", "otherwise"]
      return .branch (← r.required "condition" (Expr.read? n .inside))
        (← r.required "then" (CodeStmt.read? n .inside))
        (← r.omissible "otherwise" (CodeStmt.read? n .inside))
    | "while" =>
      let r ← v.record? ["condition", "body"]
      return .loop (← r.required "condition" (Expr.read? n .inside))
        (← r.required "body" (CodeStmt.read? n .inside))
    | _ => none
end

/-- Reads an expression at a place. Each step of the reader goes down at least one level of the
value, and the two steps for an expression and its kind one level each. -/
def Expr.ofJsonAt? (place : Place) (j : Json) : Option Expr :=
  Expr.read? (j.depth + 1) place j

def Expr.ofJson? (j : Json) : Option Expr := Expr.ofJsonAt? .outside j

def CodeStmt.ofJsonAt? (place : Place) (j : Json) : Option CodeStmt :=
  CodeStmt.read? (j.depth + 1) place j

def CodeStmt.ofJson? (j : Json) : Option CodeStmt := CodeStmt.ofJsonAt? .outside j

end Workflow
