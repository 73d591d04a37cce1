import Workflow.Code.Expr

/-!
# Walking embedded code

The expressions of a tree in pre-order: an expression before its parts, the parts from left to
right, with the bodies of lambdas and the statements of blocks included. Numbering goes the same
way, so the identities it gives out increase along the walk.
-/

namespace Workflow

mutual
/-- An expression and everything below it, in pre-order. -/
def Expr.nodes : Expr → List Expr
  | .literal o v => [.literal o v]
  | .name o n => [.name o n]
  | .member o t n => .member o t n :: t.nodes
  | .call o c args => .call o c args :: (c.nodes ++ Argument.nodesList args)
  | .create o ty args => .create o ty args :: Argument.nodesList args
  | .unary o op e => .unary o op e :: e.nodes
  | .binary o op l r => .binary o op l r :: (l.nodes ++ r.nodes)
  | .conditional o c y n => .conditional o c y n :: (c.nodes ++ (y.nodes ++ n.nodes))
  | .assign o op t v => .assign o op t v :: (t.nodes ++ v.nodes)
  | .lambda o ps b => .lambda o ps b :: b.nodes
  | .cast o ty e => .cast o ty e :: e.nodes
  | .index o t i => .index o t i :: (t.nodes ++ i.nodes)
  | .block o b v => .block o b v :: (CodeStmt.nodesList b ++ Expr.nodesOpt v)

def Argument.nodesList : List Argument → List Expr
  | [] => []
  | .mk _ e :: rest => e.nodes ++ Argument.nodesList rest

def CodeStmt.nodes : CodeStmt → List Expr
  | .eval e => e.nodes
  | .declare _ _ init _ => Expr.nodesOpt init
  | .block b => CodeStmt.nodesList b
  | .branch c y n => c.nodes ++ (y.nodes ++ CodeStmt.nodesOpt n)
  | .loop c b => c.nodes ++ b.nodes

def CodeStmt.nodesList : List CodeStmt → List Expr
  | [] => []
  | s :: rest => s.nodes ++ CodeStmt.nodesList rest

def Expr.nodesOpt : Option Expr → List Expr
  | none => []
  | some e => e.nodes

def CodeStmt.nodesOpt : Option CodeStmt → List Expr
  | none => []
  | some s => s.nodes
end

def Expr.any (p : Expr → Bool) (e : Expr) : Bool := e.nodes.any p

mutual
/-- Replaces the origins of a tree in pre-order by a function that carries a state along. -/
def Expr.mapOrigins {σ : Type} (f : σ → Origin → Origin × σ) (s : σ) : Expr → Expr × σ
  | .literal o v =>
    let (o, s) := f s o
    (.literal o v, s)
  | .name o n =>
    let (o, s) := f s o
    (.name o n, s)
  | .member o t n =>
    let (o, s) := f s o
    let (t, s) := t.mapOrigins f s
    (.member o t n, s)
  | .call o c args =>
    let (o, s) := f s o
    let (c, s) := c.mapOrigins f s
    let (args, s) := Argument.mapOriginsList f s args
    (.call o c args, s)
  | .create o ty args =>
    let (o, s) := f s o
    let (args, s) := Argument.mapOriginsList f s args
    (.create o ty args, s)
  | .unary o op e =>
    let (o, s) := f s o
    let (e, s) := e.mapOrigins f s
    (.unary o op e, s)
  | .binary o op l r =>
    let (o, s) := f s o
    let (l, s) := l.mapOrigins f s
    let (r, s) := r.mapOrigins f s
    (.binary o op l r, s)
  | .conditional o c y n =>
    let (o, s) := f s o
    let (c, s) := c.mapOrigins f s
    let (y, s) := y.mapOrigins f s
    let (n, s) := n.mapOrigins f s
    (.conditional o c y n, s)
  | .assign o op t v =>
    let (o, s) := f s o
    let (t, s) := t.mapOrigins f s
    let (v, s) := v.mapOrigins f s
    (.assign o op t v, s)
  | .lambda o ps b =>
    let (o, s) := f s o
    let (b, s) := b.mapOrigins f s
    (.lambda o ps b, s)
  | .cast o ty e =>
    let (o, s) := f s o
    let (e, s) := e.mapOrigins f s
    (.cast o ty e, s)
  | .index o t i =>
    let (o, s) := f s o
    let (t, s) := t.mapOrigins f s
    let (i, s) := i.mapOrigins f s
    (.index o t i, s)
  | .block o b v =>
    let (o, s) := f s o
    let (b, s) := CodeStmt.mapOriginsList f s b
    let (v, s) := Expr.mapOriginsOpt f s v
    (.block o b v, s)

def Argument.mapOriginsList {σ : Type} (f : σ → Origin → Origin × σ) (s : σ) :
    List Argument → List Argument × σ
  | [] => ([], s)
  | .mk d e :: rest =>
    let (e, s) := e.mapOrigins f s
    let (rest, s) := Argument.mapOriginsList f s rest
    (.mk d e :: rest, s)

/-- Replaces the origins in a statement. The span of a local is not an origin. -/
def CodeStmt.mapOrigins {σ : Type} (f : σ → Origin → Origin × σ) (s : σ) :
    CodeStmt → CodeStmt × σ
  | .eval e =>
    let (e, s) := e.mapOrigins f s
    (.eval e, s)
  | .declare name ty init span =>
    let (init, s) := Expr.mapOriginsOpt f s init
    (.declare name ty init span, s)
  | .block b =>
    let (b, s) := CodeStmt.mapOriginsList f s b
    (.block b, s)
  | .branch c y n =>
    let (c, s) := c.mapOrigins f s
    let (y, s) := y.mapOrigins f s
    let (n, s) := CodeStmt.mapOriginsOpt f s n
    (.branch c y n, s)
  | .loop c b =>
    let (c, s) := c.mapOrigins f s
    let (b, s) := b.mapOrigins f s
    (.loop c b, s)

def CodeStmt.mapOriginsList {σ : Type} (f : σ → Origin → Origin × σ) (s : σ) :
    List CodeStmt → List CodeStmt × σ
  | [] => ([], s)
  | c :: rest =>
    let (c, s) := c.mapOrigins f s
    let (rest, s) := CodeStmt.mapOriginsList f s rest
    (c :: rest, s)

def Expr.mapOriginsOpt {σ : Type} (f : σ → Origin → Origin × σ) (s : σ) :
    Option Expr → Option Expr × σ
  | none => (none, s)
  | some e =>
    let (e, s) := e.mapOrigins f s
    (some e, s)

def CodeStmt.mapOriginsOpt {σ : Type} (f : σ → Origin → Origin × σ) (s : σ) :
    Option CodeStmt → Option CodeStmt × σ
  | none => (none, s)
  | some c =>
    let (c, s) := c.mapOrigins f s
    (some c, s)
end

def Origin.number (last : ExprId) (o : Origin) : Origin × ExprId :=
  ({ o with id := some (last + 1) }, last + 1)

def Origin.inUnit (unit : Nat) (o : Origin) : Origin := { o with span := o.span.inUnit unit }

/-- Gives every expression of the tree a new identity, whatever it had before. `last` is the
identity given out last; the new last one is returned. -/
def Expr.number (last : ExprId) (e : Expr) : Expr × ExprId := e.mapOrigins Origin.number last

def CodeStmt.numberList (last : ExprId) (body : List CodeStmt) : List CodeStmt × ExprId :=
  CodeStmt.mapOriginsList Origin.number last body

def Expr.inUnit (unit : Nat) (e : Expr) : Expr :=
  (e.mapOrigins (fun _ o => (o.inUnit unit, ())) ()).1

def CodeStmt.inUnitList (unit : Nat) (body : List CodeStmt) : List CodeStmt :=
  (CodeStmt.mapOriginsList (fun _ o => (o.inUnit unit, ())) () body).1

end Workflow
