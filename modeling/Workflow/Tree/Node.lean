import Workflow.Code.Expr
import Workflow.Error

/-!
# The parse tree

A program comes as one parse tree for each source file. Every construct is a node with a label,
named members, ordered items, an optional text and embedded code. Which members a construct reads is
decided when the activity is built; the accessors here only say what is missing.
-/

namespace Workflow

structure ParseNode where
  /-- The construct, such as `sequence`, `if` or `receive`. -/
  label : String := ""
  span : Span := {}
  /-- Named children. The first one of a name counts; otherwise their order is immaterial. -/
  members : List (String × ParseNode) := []
  /-- Ordered children. -/
  items : List ParseNode := []
  /-- A name or the text of a type. -/
  text : Option String := none
  code : Option (List CodeStmt) := none
  expr : Option Expr := none
deriving Inhabited

structure ParseUnit where
  path : Option String := none
  ns : Option String := none
  imports : List String := []
  activities : List ParseNode := []
deriving Inhabited

/-- The source files that are compiled together. -/
structure ParseProgram where
  units : List ParseUnit := []
deriving Inhabited

namespace ParseNode

mutual
/-- How many nodes stand inside each other at the deepest place. -/
def depth : ParseNode → Nat
  | ⟨_, _, members, items, _, _, _⟩ => max (depthMembers members) (depthItems items) + 1

def depthMembers : List (String × ParseNode) → Nat
  | [] => 0
  | (_, n) :: rest => max n.depth (depthMembers rest)

def depthItems : List ParseNode → Nat
  | [] => 0
  | n :: rest => max n.depth (depthItems rest)
end

def find? (name : String) : List (String × ParseNode) → Option ParseNode
  | [] => none
  | (k, n) :: rest => if k = name then some n else find? name rest

/-- Sets a member: in place if the name is there, else at the end. -/
def put (name : String) (node : ParseNode) : List (String × ParseNode) → List (String × ParseNode)
  | [] => [(name, node)]
  | (k, n) :: rest => if k = name then (k, node) :: rest else (k, n) :: put name node rest

def expression (e : Expr) : ParseNode := { label := "expr", expr := some e }

def typeName (ty : String) : ParseNode := { label := "type", text := some ty }

def reference (name : String) : ParseNode := { label := "ref", text := some name }

def codeBlock (body : List CodeStmt) : ParseNode := { label := "code", code := some body }

def withMember (n : ParseNode) (name : String) (node : ParseNode) : ParseNode :=
  { n with members := put name node n.members }

/-- Marks a flag, which is the presence of a member. -/
def withFlag (n : ParseNode) (name : String) : ParseNode := n.withMember name { label := "flag" }

def withItems (n : ParseNode) (nodes : List ParseNode) : ParseNode :=
  { n with items := n.items ++ nodes }

def member (n : ParseNode) (name : String) : Option ParseNode := find? name n.members

def hasFlag (n : ParseNode) (name : String) : Bool := (n.member name).isSome

def require (n : ParseNode) (name : String) : Except CompileError ParseNode :=
  match n.member name with
  | some m => .ok m
  | none => .error ((Cause.missingMember n.label name).error n.span)

def requireText (n : ParseNode) : Except CompileError String :=
  match n.text with
  | some s => .ok s
  | none => .error ((Cause.missingMember n.label "text").error n.span)

def memberText (n : ParseNode) (name : String) : Option String := (n.member name).bind (·.text)

/-- The type that a member names; without one it is inferred. -/
def memberType (n : ParseNode) (name : String) : TypeName :=
  match n.memberText name with
  | some s => ⟨s⟩
  | none => .inferred

/-- A member that has to be there and to hold an expression: the member and its expression. -/
def requireExpr (n : ParseNode) (name : String) : Except CompileError (ParseNode × Expr) := do
  let m ← n.require name
  match m.expr with
  | some e => .ok (m, e)
  | none =>
    .error ((Cause.invalidValue n.label s!"member '{name}' must be an expression").error m.span)

/-- A member that has to hold an expression if it is there. -/
def optionalExpr (n : ParseNode) (name : String) :
    Except CompileError (Option (ParseNode × Expr)) :=
  match n.member name with
  | none => .ok none
  | some _ => (n.requireExpr name).map some

theorem depth_eq (n : ParseNode) :
    n.depth = max (depthMembers n.members) (depthItems n.items) + 1 := by
  cases n
  rfl

theorem depth_le_of_find? {name : String} {members : List (String × ParseNode)} {m : ParseNode}
    (h : find? name members = some m) : m.depth ≤ depthMembers members := by
  induction members with
  | nil => simp [find?] at h
  | cons f rest ih =>
    obtain ⟨k, n⟩ := f
    rw [find?] at h
    rw [depthMembers]
    split at h
    · cases h
      exact Nat.le_max_left _ _
    · exact Nat.le_trans (ih h) (Nat.le_max_right _ _)

theorem depth_lt_of_member {n m : ParseNode} {name : String} (h : n.member name = some m) :
    m.depth < n.depth := by
  have hm := depth_le_of_find? h
  rw [n.depth_eq]
  exact Nat.lt_succ_of_le (Nat.le_trans hm (Nat.le_max_left _ _))

theorem depth_le_of_mem_items {items : List ParseNode} {m : ParseNode} (h : m ∈ items) :
    m.depth ≤ depthItems items := by
  induction items with
  | nil => cases h
  | cons n rest ih =>
    rw [depthItems]
    rcases List.mem_cons.1 h with rfl | h
    · exact Nat.le_max_left _ _
    · exact Nat.le_trans (ih h) (Nat.le_max_right _ _)

theorem depth_lt_of_mem_items {n m : ParseNode} (h : m ∈ n.items) : m.depth < n.depth := by
  have hm := depth_le_of_mem_items h
  rw [n.depth_eq]
  exact Nat.lt_succ_of_le (Nat.le_trans hm (Nat.le_max_right _ _))

end ParseNode

end Workflow
