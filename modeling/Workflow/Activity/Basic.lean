import Workflow.Activity.Statement

/-!
# Activities

An activity is a workflow definition: its signature, an arena of statements and a table of stores.
Statements refer to each other by their index in the arena, and every statement knows its parent. A
chain of parents has at most as many links as there are statements, which bounds every walk.

A store is visible from its host and from everything below it.
-/

namespace Workflow

structure Activity where
  name : String
  span : Span := {}
  stmts : Array Stmt := #[]
  stores : Array Store := #[]
  parameters : List StoreId := []
  result : Option StoreId := none
  activityStores : List StoreId := []
  root : StmtId := 0
  /-- The messaging operations in document order. -/
  serviceOperations : List StmtId := []
  /-- How many temporary names were given out. -/
  temps : Nat := 0
deriving Inhabited

structure CompilationUnit where
  index : Nat
  path : Option String := none
  ns : Option String := none
  imports : List String := []
  activities : List Activity := []
deriving Inhabited

namespace Activity

/-- The parts of a statement; a place without one is empty. -/
def kind (a : Activity) (id : StmtId) : StmtKind :=
  match a.stmts[id]? with
  | some s => s.kind
  | none => .empty

def tag (a : Activity) (id : StmtId) : StmtTag :=
  match a.stmts[id]? with
  | some s => s.tag
  | none => .empty

def stmtSpan (a : Activity) (id : StmtId) : Span :=
  match a.stmts[id]? with
  | some s => s.span
  | none => {}

def parent (a : Activity) (id : StmtId) : Option StmtId := a.stmts[id]?.bind (·.parent)

def storesOf (a : Activity) (id : StmtId) : List StoreId :=
  match a.stmts[id]? with
  | some s => s.stores
  | none => []

/-- The chain of parents from a statement on, of at most `n` links. -/
def chain (a : Activity) : Nat → Option StmtId → List StmtId
  | 0, _ => []
  | _, none => []
  | n + 1, some id => id :: a.chain n (a.parent id)

def ancestors (a : Activity) (id : StmtId) : List StmtId := a.chain a.stmts.size (a.parent id)

def selfAndAncestors (a : Activity) (id : StmtId) : List StmtId := id :: a.ancestors id

/-- The innermost statement with one of the tags, the statement itself included. -/
def nearestWithTag (a : Activity) (id : StmtId) (tags : List StmtTag) : Option StmtId :=
  (a.selfAndAncestors id).find? fun s => tags.contains (a.tag s)

/-- The innermost proper ancestor with one of the tags. -/
def nearestAncestor (a : Activity) (id : StmtId) (tags : List StmtTag) : Option StmtId :=
  (a.ancestors id).find? fun s => tags.contains (a.tag s)

def storeHost (a : Activity) (id : StmtId) : StoreHost :=
  match (a.selfAndAncestors id).find? fun s => (a.tag s).isStoreHost with
  | some s => .statement s
  | none => .activity

/-- Adds a statement whose parts come later, and gives its index. -/
def alloc (a : Activity) (tag : StmtTag) (parent : Option StmtId) (span : Span) :
    StmtId × Activity :=
  (a.stmts.size, { a with stmts := a.stmts.push { parent := parent, span := span, tag := tag } })

def modifyStmt (a : Activity) (id : StmtId) (f : Stmt → Stmt) : Activity :=
  { a with stmts := a.stmts.modify id f }

def setKind (a : Activity) (id : StmtId) (kind : StmtKind) : Activity :=
  a.modifyStmt id fun s => { s with kind := kind }

def modifyStore (a : Activity) (id : StoreId) (f : Store → Store) : Activity :=
  { a with stores := a.stores.modify id f }

def findNamed (a : Activity) (name : String) (ids : List StoreId) : Option StoreId :=
  ids.find? fun id =>
    match a.stores[id]? with
    | some s => s.name == name
    | none => false

/-- The hosts of the stores visible from a host, innermost first: lists of stores. -/
def visible (a : Activity) : StoreHost → List (List StoreId)
  | .activity => [a.activityStores]
  | .statement id => (a.selfAndAncestors id).map a.storesOf ++ [a.activityStores]

def lookup (a : Activity) (host : StoreHost) (name : String) : Option StoreId :=
  (a.visible host).findSome? (a.findNamed name)

def addStore (a : Activity) (store : Store) : Activity :=
  let id := a.stores.size
  let a := { a with stores := a.stores.push store }
  match store.host with
  | .activity => { a with activityStores := a.activityStores ++ [id] }
  | .statement s => a.modifyStmt s fun stmt => { stmt with stores := stmt.stores ++ [id] }

/-- Declares a store, unless its name is visible from its host already. -/
def declare (a : Activity) (store : Store) : Except CompileError (StoreId × Activity) :=
  match a.lookup store.host store.name with
  | some _ => .error ((Cause.duplicateName store.name).error store.span)
  | none => .ok (a.stores.size, a.addStore store)

def storeByMarker (a : Activity) (m : Marker) : Option StoreId :=
  a.stores.findIdx? fun s => s.marker == m

def resultType (a : Activity) : Option TypeName :=
  a.result.bind fun id => a.stores[id]?.map (·.ty)

/-- A name not given out before: `__`, a stem and a number. -/
def nextTemp (a : Activity) (stem : String) : String × Activity :=
  (s!"__{stem}{a.temps + 1}", { a with temps := a.temps + 1 })

/-- A statement and everything below it, in pre-order, down to a depth. -/
def preorderFrom (a : Activity) : Nat → StmtId → List StmtId
  | 0, _ => []
  | n + 1, id => id :: (a.kind id).children.flatMap (a.preorderFrom n)

def preorder (a : Activity) : List StmtId := a.preorderFrom a.stmts.size a.root

def service? (a : Activity) (id : StmtId) : Option ServiceOperation :=
  match a.kind id with
  | .service op => some op
  | _ => none

end Activity

end Workflow
