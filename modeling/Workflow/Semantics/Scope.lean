import Workflow.Semantics.Basic
import Workflow.Text.Capital

/-!
# Lexical analysis of code

A simple analysis that looks names up in nested scopes and gives types to constants, declarations,
operators and calls. A name that is nowhere declared stands for a type if it is one of the program
or begins with a capital letter, and is a fault otherwise. A scope lists its bindings, the latest
first.
-/

namespace Workflow

/-- What a name is bound to. -/
inductive Binding where
  | store (marker : Marker) (ty : TypeName)
  | localVar (ty : Option TypeName)
deriving DecidableEq, Repr, Inhabited

def Binding.type? : Binding → Option TypeName
  | .store _ ty => some ty
  | .localVar ty => ty

/-- The bindings of names, the latest first. -/
abbrev Scope := List (String × Binding)

def Scope.find? (scope : Scope) (name : String) : Option Binding :=
  (List.find? (fun b => b.1 == name) scope).map (·.2)

/-- Adds a binding, which hides earlier ones of the same name. -/
def Scope.bind (scope : Scope) (name : String) (binding : Binding) : Scope :=
  (name, binding) :: scope

abbrev TypeTable := List (String × ModelType)

namespace TypeTable

def find? (types : TypeTable) (name : String) : Option ModelType :=
  (List.find? (fun t => t.1 == name) types).map (·.2)

/-- Adds a type under its qualified name, and under its own name unless that is taken. -/
def add (types : TypeTable) (t : ModelType) : TypeTable :=
  let types : TypeTable := (t.qualifiedName, t) :: types
  if (types.find? t.name).isSome then types else (t.name, t) :: types

def ofUnits (units : List ModelUnit) : TypeTable := (units.flatMap (·.types)).foldl add []

end TypeTable

/-- What an analysis finds out: annotations and faults, in order. -/
structure Findings where
  annotations : List ExprAnnotation := []
  diagnostics : List Diagnostic := []
deriving Inhabited

def Findings.append (a b : Findings) : Findings :=
  { annotations := a.annotations ++ b.annotations, diagnostics := a.diagnostics ++ b.diagnostics }

instance : Append Findings := ⟨Findings.append⟩

/-- What an expression stands for, its type, and what was found below it. -/
structure Inspection where
  symbol : Option Symbol := none
  ty : Option TypeName := none
  below : Findings := {}
deriving Inhabited

/-- The findings of an inspection, with the annotation of the expression itself at the end. -/
def Inspection.close (i : Inspection) (e : Expr) : Findings :=
  match e.id with
  | none => i.below
  | some id =>
    i.below ++ { annotations := [{ expr := id, symbol := i.symbol, ty := i.ty }] }

def Literal.type? : Literal → Option TypeName
  | .null => none
  | .bool _ => some .boolean
  | .int _ => some .int
  | .float _ => some ⟨"double"⟩
  | .str _ => some .string

namespace TypeName

def isNumeric (ty : TypeName) : Bool :=
  ["int", "long", "double", "float", "decimal"].contains ty.text

/-- What stands before and after the element type in the name of a collection type. -/
def collectionForms : List (String × String) :=
  [("", "[]"), ("List<", ">"), ("IEnumerable<", ">"), ("IList<", ">"), ("ICollection<", ">")]

def between? (s : List Char) (form : String × String) : Option (List Char) := do
  let rest ← form.1.toList.isPrefixOf? s
  form.2.toList.isSuffixOf? rest

def element (ty : TypeName) : TypeName :=
  match collectionForms.findSome? (between? ty.text.toList) with
  | some inner => ⟨String.ofList inner⟩
  | none => object

end TypeName

def BinaryOp.resultType? (op : BinaryOp) (l r : Option TypeName) : Option TypeName :=
  if op.isBoolean then some .boolean
  else if op == .coalesce then l <|> r
  else if op == .add && (l == some .string || r == some .string) then some .string
  else
    match l, r with
    | some l, some r =>
      if l == r then some l
      else if l.isNumeric && r.isNumeric then some ⟨"double"⟩
      else some l
    | l, r => l <|> r

/-- What an analysis of code looks up besides the scope: the types of the program and the fragment
that the code belongs to. -/
structure ScopeContext where
  types : TypeTable
  marker : Option Marker

namespace ScopeContext

/-- Whether a name that is not bound stands for a type. -/
def isTypeName (c : ScopeContext) (name : String) : Bool :=
  (c.types.find? name).isSome || name.toList.head?.any Text.isCapital

/-- The dotted name of a type that an expression spells out. -/
def typePath? (c : ScopeContext) (scope : Scope) : Expr → Option String
  | .name _ name =>
    if (scope.find? name).isNone && c.isTypeName name then some name else none
  | .member _ target name => (c.typePath? scope target).map fun path => path ++ "." ++ name
  | _ => none

def methodSymbol (t : ModelType) (m : ModelMethod) : MethodSymbol :=
  { name := m.name
    container := t.qualifiedName
    parameters := (m.scheduling.map (·.parameters)).getD []
    returnType := m.returnType
    scheduling := m.scheduling }

/-- The method that a callee stands for, if it is a member of a type. Nothing is known about the
methods of a type that the program does not have. -/
def method? (c : ScopeContext) (scope : Scope) : Expr → Option MethodSymbol
  | .member _ target name => do
    let path ← c.typePath? scope target
    match c.types.find? path with
    | some t => (t.method? name).map (methodSymbol t)
    | none => some { name := name, container := path }
  | _ => none

def unknownName (c : ScopeContext) (o : Origin) (name : String) : Findings :=
  { diagnostics :=
      [{ message := s!"The name '{name}' does not exist in the current context"
         marker := c.marker
         span := if o.span.isUnknown then none else some o.span }] }

def inspectName (c : ScopeContext) (scope : Scope) (o : Origin) (name : String) : Inspection :=
  match scope.find? name with
  | some (.store marker ty) => { symbol := some (.store marker), ty := some ty }
  | some (.localVar ty) => { symbol := some .localVar, ty := ty }
  | none =>
    if c.isTypeName name then { symbol := some (.type name) }
    else { below := c.unknownName o name }

/-- What a member access stands for: a type of the program if it spells one out. -/
def memberSymbol (c : ScopeContext) (scope : Scope) (e : Expr) : Symbol :=
  match c.typePath? scope e with
  | some path => if (c.types.find? path).isSome then .type path else .other
  | none => .other

mutual
def inspect (c : ScopeContext) (scope : Scope) : Expr → Inspection
  | .literal _ v => { ty := v.type? }
  | .name o name => c.inspectName scope o name
  | .member o target name =>
    { symbol := some (c.memberSymbol scope (.member o target name))
      below := (c.inspect scope target).close target }
  | .call _ callee args =>
    let method := c.method? scope callee
    let i := c.inspect scope callee
    let i := { i with symbol := method.map Symbol.method <|> i.symbol }
    { symbol := method.map .method
      ty := method.bind (·.returnType)
      below := i.close callee ++ c.inspectArgs scope args }
  | .create _ ty args => { ty := some ty, below := c.inspectArgs scope args }
  | .unary _ op e =>
    let i := c.inspect scope e
    { ty := if op == .not then some .boolean else i.ty, below := i.close e }
  | .binary _ op l r =>
    let i := c.inspect scope l
    let j := c.inspect scope r
    { ty := op.resultType? i.ty j.ty, below := i.close l ++ j.close r }
  | .conditional _ cond y n =>
    let h := c.inspect scope cond
    let i := c.inspect scope y
    let j := c.inspect scope n
    { ty := i.ty <|> j.ty, below := h.close cond ++ i.close y ++ j.close n }
  | .assign _ _ t v =>
    let i := c.inspect scope t
    let j := c.inspect scope v
    { ty := i.ty <|> j.ty, below := i.close t ++ j.close v }
  | .lambda _ params body =>
    let inner := params.foldl (fun s p => Scope.bind s p (.localVar none)) scope
    { below := (c.inspect inner body).close body }
  | .cast _ ty e => { ty := some ty, below := (c.inspect scope e).close e }
  | .index _ t i =>
    let j := c.inspect scope t
    { ty := j.ty.map TypeName.element, below := j.close t ++ (c.inspect scope i).close i }
  | .block _ body value =>
    let (inner, found) := c.inspectBody scope body
    let (ty, last) := c.inspectOption inner value
    { ty := ty, below := found ++ last }

def inspectArgs (c : ScopeContext) (scope : Scope) : List Argument → Findings
  | [] => {}
  | .mk _ e :: rest => (c.inspect scope e).close e ++ c.inspectArgs scope rest

def inspectOption (c : ScopeContext) (scope : Scope) : Option Expr → Option TypeName × Findings
  | none => (none, {})
  | some e =>
    let i := c.inspect scope e
    (i.ty, i.close e)

/-- Inspects a statement, and gives the scope after it. -/
def inspectStmt (c : ScopeContext) (scope : Scope) : CodeStmt → Scope × Findings
  | .eval e => (scope, (c.inspect scope e).close e)
  | .declare name ty init _ =>
    let (initTy, found) := c.inspectOption scope init
    (scope.bind name (.localVar (if ty.isInferred then initTy else some ty)), found)
  | .block body => (scope, (c.inspectBody scope body).2)
  | .branch cond y n =>
    (scope, (c.inspect scope cond).close cond ++ (c.inspectStmt scope y).2 ++
      c.inspectElse scope n)
  | .loop cond body =>
    (scope, (c.inspect scope cond).close cond ++ (c.inspectStmt scope body).2)

def inspectElse (c : ScopeContext) (scope : Scope) : Option CodeStmt → Findings
  | none => {}
  | some s => (c.inspectStmt scope s).2

def inspectBody (c : ScopeContext) (scope : Scope) : List CodeStmt → Scope × Findings
  | [] => (scope, {})
  | s :: rest =>
    let (inner, found) := c.inspectStmt scope s
    let (last, more) := c.inspectBody inner rest
    (last, found ++ more)
end

end ScopeContext

end Workflow
