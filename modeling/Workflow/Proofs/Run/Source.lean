import Workflow.Lower.Context
import Workflow.Proofs.Run.World

/-!
# Running code as it is written

The meaning of embedded code before it is lowered: operands and arguments are evaluated from left to
right, `&&`, `||`, `??` and `?:` evaluate only the side that they need, and a scheduled call is
answered when it is met. The variables are the stores of the activity, by their index.

Covered is code that works on stores: constants, reads, writes and steps of stores, operators, casts
and scheduled calls whose arguments are passed by value. Other code has no meaning here.
-/

namespace Workflow

namespace LowerContext

def storeIdFor? (c : LowerContext) (e : Expr) : Option StoreId :=
  (c.semantics.storeMarker? e.id).bind c.activity.storeByMarker

theorem storeFor?_eq (c : LowerContext) (e : Expr) :
    c.storeFor? e = (c.storeIdFor? e).bind fun id => c.activity.stores[id]? := by
  unfold storeFor? storeIdFor?
  cases c.semantics.storeMarker? e.id <;> rfl

def isStore (c : LowerContext) (e : Expr) : Bool := (c.namedStore? e).isSome

theorem storeFor?_of_isStore {c : LowerContext} (h : c.isStore e = true) :
    ∃ store, c.storeFor? e = some store := by
  unfold isStore namedStore? at h
  split at h
  · exact Option.isSome_iff_exists.1 h
  · cases h

mutual
/-- Whether an expression works on stores, and writes some only if `writes`. Its calls are
scheduled, have a result and take values. -/
def onStores (c : LowerContext) (writes : Bool) : Expr → Bool
  | .literal .. => true
  | .name o x => c.isStore (.name o x)
  | .unary _ op e => if op.isStep then writes && c.isStore e else c.onStores writes e
  | .binary _ _ l r => c.onStores writes l && c.onStores writes r
  | .conditional _ test y n =>
    c.onStores writes test && c.onStores writes y && c.onStores writes n
  | .assign _ _ t e => writes && c.isStore t && c.onStores writes e
  | .cast _ _ e => c.onStores writes e
  | .call o _ args =>
    ((c.semantics.scheduling? o.id).bind (·.result)).isSome && c.argsOnStores writes args
  | _ => false

def argsOnStores (c : LowerContext) (writes : Bool) : List Argument → Bool
  | [] => true
  | .mk d e :: rest => d == .input && c.onStores writes e && c.argsOnStores writes rest
end

/-- Whether a statement works on stores. It may write a store as a whole, and a call as a whole needs
no result. -/
def stmtOnStores (c : LowerContext) (writes : Bool) : CodeStmt → Bool
  | .eval (.call o _ args) =>
    (c.semantics.scheduling? o.id).isSome && c.argsOnStores writes args
  | .eval (.assign _ _ t e) => c.isStore t && c.onStores writes e
  | .eval (.unary _ op e) => if op.isStep then c.isStore e else c.onStores writes e
  | .eval e => c.onStores writes e
  | _ => false

/-- Whether a fragment works on stores. One that declares a store together with its first value may
assign no other. -/
def fragmentOnStores (c : LowerContext) (writes : Bool) (stmts : List CodeStmt)
    (declared : Option StoreId) : Bool :=
  match declared, stmts with
  | some id, [.eval (.assign _ _ _ e)] =>
    (c.activity.stores[id]?).isSome && c.onStores writes e
  | _, stmts => stmts.all (c.stmtOnStores writes)

/-- An expression works on stores, with whatever writes inside it. -/
inductive OnStores (c : LowerContext) : Expr → Prop
  | literal : OnStores c (.literal o v)
  | name (h : c.isStore (.name o x) = true) : OnStores c (.name o x)
  | step (hop : op.isStep = true) (h : c.isStore e = true) : OnStores c (.unary o op e)
  | unary (hop : op.isStep = false) (he : OnStores c e) : OnStores c (.unary o op e)
  | binary (hl : OnStores c l) (hr : OnStores c r) : OnStores c (.binary o op l r)
  | conditional (he : OnStores c e) (hy : OnStores c y) (hn : OnStores c n) :
    OnStores c (.conditional o e y n)
  | assign (h : c.isStore t = true) (he : OnStores c e) : OnStores c (.assign o op t e)
  | cast (he : OnStores c e) : OnStores c (.cast o ty e)
  | call (hattr : c.semantics.scheduling? o.id = some attr) (hresult : attr.result.isSome = true)
    (hin : ∀ a ∈ args, a.direction = .input) (hargs : ∀ a ∈ args, OnStores c a.value) :
    OnStores c (.call o f args)

section OnStores

variable {c : LowerContext} {writes : Bool}

mutual
theorem OnStores.of_onStores : ∀ {e : Expr}, c.onStores writes e = true → c.OnStores e
  | .literal .., _ => .literal
  | .name .., he => .name he
  | .unary _ op _, he => by
    rw [onStores] at he
    cases hop : op.isStep with
    | true =>
      rw [if_pos hop, Bool.and_eq_true] at he
      exact .step hop he.2
    | false =>
      rw [if_neg (by simp [hop])] at he
      exact .unary hop (.of_onStores he)
  | .binary .., he => by
    rw [onStores, Bool.and_eq_true] at he
    exact .binary (.of_onStores he.1) (.of_onStores he.2)
  | .conditional .., he => by
    rw [onStores, Bool.and_eq_true, Bool.and_eq_true] at he
    exact .conditional (.of_onStores he.1.1) (.of_onStores he.1.2) (.of_onStores he.2)
  | .assign .., he => by
    rw [onStores, Bool.and_eq_true, Bool.and_eq_true] at he
    exact .assign he.1.2 (.of_onStores he.2)
  | .cast .., he => .cast (.of_onStores he)
  | .call .., he => by
    rw [onStores, Bool.and_eq_true] at he
    obtain ⟨ty, hty⟩ := Option.isSome_iff_exists.1 he.1
    obtain ⟨attr, hattr, hresult⟩ := Option.bind_eq_some_iff.1 hty
    exact .call hattr (by simp [hresult]) (of_argsOnStores he.2).1 (of_argsOnStores he.2).2
  | .member .., he | .create .., he | .lambda .., he | .index .., he | .block .., he => by cases he

theorem of_argsOnStores : ∀ {args : List Argument}, c.argsOnStores writes args = true →
    (∀ a ∈ args, a.direction = .input) ∧ ∀ a ∈ args, c.OnStores a.value
  | [], _ => by simp
  | .mk d e :: rest, h => by
    simp only [argsOnStores, Bool.and_eq_true, beq_iff_eq] at h
    obtain ⟨hin, hargs⟩ := of_argsOnStores h.2
    exact ⟨List.forall_mem_cons.2 ⟨h.1.1, hin⟩, List.forall_mem_cons.2 ⟨.of_onStores h.1.2, hargs⟩⟩
end

theorem OnStores.of_stmt (he : c.stmtOnStores writes (.eval e) = true)
    (hne : ∀ o f args, e ≠ .call o f args) : c.OnStores e := by
  cases e
  case call o f args => exact absurd rfl (hne o f args)
  case assign o op target e =>
    rw [stmtOnStores, Bool.and_eq_true] at he
    exact .assign he.1 (.of_onStores he.2)
  case unary o op e =>
    rw [stmtOnStores] at he
    cases hop : op.isStep with
    | true =>
      rw [if_pos hop] at he
      exact .step hop he
    | false =>
      rw [if_neg (by simp [hop])] at he
      exact .unary hop (.of_onStores he)
  all_goals exact .of_onStores (show c.onStores writes _ = true from he)

theorem of_stmtOnStores_call (he : c.stmtOnStores writes (.eval (.call o f args)) = true) :
    (∀ a ∈ args, a.direction = .input) ∧ ∀ a ∈ args, c.OnStores a.value := by
  rw [stmtOnStores, Bool.and_eq_true] at he
  exact of_argsOnStores he.2

end OnStores

section Schedules

variable (c : LowerContext) (o : Origin)

attribute [local simp] schedules Expr.any Expr.nodes scheduling? Expr.isCall

theorem schedules_unary (op : UnaryOp) (e : Expr) : c.schedules (.unary o op e) = c.schedules e := by
  simp

theorem schedules_cast (ty : TypeName) (e : Expr) : c.schedules (.cast o ty e) = c.schedules e := by
  simp

theorem schedules_binary (op : BinaryOp) (l r : Expr) :
    c.schedules (.binary o op l r) = (c.schedules l || c.schedules r) := by
  simp

theorem schedules_conditional (t y n : Expr) : c.schedules (.conditional o t y n) =
      (c.schedules t || (c.schedules y || c.schedules n)) := by
  simp

theorem schedules_assign (op : AssignOp) (t e : Expr) :
    c.schedules (.assign o op t e) = (c.schedules t || c.schedules e) := by
  simp

theorem schedules_call (h : c.semantics.scheduling? o.id = some attr)
    (callee : Expr) (args : List Argument) : c.schedules (.call o callee args) = true := by
  simp [Expr.id, Expr.origin, h]

end Schedules

end LowerContext

namespace Source

variable (H : Runtime) (answer : Answer) (c : LowerContext)

def stepped (step : BinaryOp) (n : Int) : Int := if step = .add then n + 1 else n - 1

mutual
def eval : Expr → World StoreId → Option (Value × World StoreId)
  | .literal _ v, w => some (.ofLiteral v, w)
  | .name o x, w => do
    let id ← c.storeIdFor? (.name o x)
    return (← w.vars id, w)
  | .unary _ op e, w =>
    match op.stepOp with
    | some step => do
      let id ← c.storeIdFor? e
      let n ← (← w.vars id).asInt
      let m := stepped step n
      return (.int (if op.isPost then n else m), w.set id (.int m))
    | none => do
      let (v, w) ← eval e w
      return (← H.unary op v, w)
  | .binary _ op l r, w => do
    let (a, w) ← eval l w
    H.operate op a (fun w => eval r w) w
  | .conditional _ test y n, w => do
    let (a, w) ← eval test w
    if ← a.asBool then eval y w else eval n w
  | .assign _ op t e, w => do
    let id ← c.storeIdFor? t
    match op.binary with
    | none =>
      let (v, w) ← eval e w
      return (v, w.set id v)
    | some bin =>
      -- The old value is read before the right side is evaluated.
      let old ← w.vars id
      let (v, w) ← eval e w
      let v ← H.binary bin old v
      return (v, w.set id v)
  | .cast _ _ e, w => eval e w
  | .call o _ args, w => do
    let attr ← c.semantics.scheduling? o.id
    let (vs, w) ← evalArgs args w
    return w.schedule answer attr.nodeType vs
  | _, _ => none

def evalArgs : List Argument → World StoreId → Option (List Value × World StoreId)
  | [], w => some ([], w)
  | .mk d e :: rest, w => do
    if d = .input then
      let (v, w) ← eval e w
      let (vs, w) ← evalArgs rest w
      return (v :: vs, w)
    else none
end

abbrev Evaluator := Expr → World StoreId → Option (Value × World StoreId)

def body (ev : Evaluator) : List CodeStmt → World StoreId → Option (World StoreId)
  | [], w => some w
  | .eval e :: rest, w => do
    let (_, w) ← ev e w
    body ev rest w
  | _ :: _, _ => none

/-- Runs a fragment. One that declares a store together with its first value assigns that value. -/
def fragment (ev : Evaluator) (stmts : List CodeStmt) (declared : Option StoreId)
    (w : World StoreId) : Option (World StoreId) :=
  match declared, stmts with
  | some id, [.eval (.assign _ _ _ e)] => do
    let (v, w) ← ev e w
    return w.set id v
  | _, stmts => body ev stmts w

def fragmentExprs (stmts : List CodeStmt) (declared : Option StoreId) : List Expr :=
  match declared, stmts with
  | some _, [.eval (.assign _ _ _ e)] => [e]
  | _, stmts => stmts.filterMap fun
    | .eval e => some e
    | _ => none

def fragments (ev : Evaluator) :
    List (List CodeStmt × Option StoreId) → World StoreId → Option (World StoreId)
  | [], w => some w
  | (stmts, declared) :: rest, w => do
    let w ← fragment ev stmts declared w
    fragments ev rest w

end Source

end Workflow
