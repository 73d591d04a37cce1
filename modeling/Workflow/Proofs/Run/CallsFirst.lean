import Workflow.Proofs.Run.Source

/-!
# Running code with its calls first

Produced code cannot stop in the middle of an expression, so a scheduled call is made before the
expression around it is evaluated: the calls of an expression are made from left to right, and what
is left of it is evaluated after them. An operator that may skip a side with calls is evaluated as a
whole in its place among the calls, and so are the arguments of a call.
-/

namespace Workflow.Source

open Option

abbrev Rest (α : Type) := World StoreId → Option (α × World StoreId)

namespace Rest

def done {α : Type} (a : α) : Rest α := fun w => some (a, w)

def unary (H : Runtime) (op : UnaryOp) (k : Rest Value) : Rest Value := fun w => do
  let (v, w) ← k w
  return (← H.unary op v, w)

/-- An operator with two sides, of which the right one may not be needed. -/
def operate (H : Runtime) (op : BinaryOp) (left right : Rest Value) : Rest Value := fun w => do
  let (a, w) ← left w
  H.operate op a right w

def choose (test yes no : Rest Value) : Rest Value := fun w => do
  let (a, w) ← test w
  if ← a.asBool then yes w else no w

/-- An assignment. A compound one reads the old value first. -/
def assign (H : Runtime) (op : AssignOp) (id : StoreId) (k : Rest Value) : Rest Value := fun w =>
  match op.binary with
  | none => do
    let (v, w) ← k w
    return (v, w.set id v)
  | some bin => do
    let old ← w.vars id
    let (v, w) ← k w
    let v ← H.binary bin old v
    return (v, w.set id v)

def cons (k : Rest Value) (ks : Rest (List Value)) : Rest (List Value) := fun w => do
  let (v, w) ← k w
  let (vs, w) ← ks w
  return (v :: vs, w)

end Rest

/-- Evaluates what is left after the calls at once. -/
def atOnce {α : Type} (calls : World StoreId → Option (Rest α × World StoreId)) : Rest α :=
  fun w => do
    let (k, w) ← calls w
    k w

theorem atOnce_eq_some {α : Type} {calls : World StoreId → Option (Rest α × World StoreId)}
    {q : α × World StoreId} :
    atOnce calls w = some q ↔ ∃ k u, calls w = some (k, u) ∧ k u = some q := by
  constructor
  · intro h
    obtain ⟨⟨k, u⟩, hk, hq⟩ := bind_eq_some_iff.1 h
    exact ⟨k, u, hk, hq⟩
  · rintro ⟨k, u, hk, hq⟩
    exact bind_eq_some_iff.2 ⟨(k, u), hk, hq⟩

variable (H : Runtime) (answer : Answer) (c : LowerContext)

mutual
/-- Makes the calls of an expression, and gives what is left. -/
def settle : Expr → World StoreId → Option (Rest Value × World StoreId)
  | .literal o v, w => some (eval H answer c (.literal o v), w)
  | .name o x, w => some (eval H answer c (.name o x), w)
  | .unary o op e, w =>
    if op.isStep then some (eval H answer c (.unary o op e), w)
    else do
      let (k, w) ← settle e w
      return (.unary H op k, w)
  | .binary _ op l r, w => do
    let (left, w) ← settle l w
    if op.isShortCircuit && c.schedules r then
      let (a, w) ← left w
      let (v, w) ← H.operate op a (atOnce fun w => settle r w) w
      return (.done v, w)
    else
      let (right, w) ← settle r w
      return (.operate H op left right, w)
  | .conditional _ test y n, w => do
    let (first, w) ← settle test w
    if c.schedules y || c.schedules n then
      let (a, w) ← first w
      let t ← a.asBool
      let (v, w) ← (if t then atOnce (fun w => settle y w) w else atOnce (fun w => settle n w) w)
      return (.done v, w)
    else
      let (yes, w) ← settle y w
      let (no, w) ← settle n w
      return (.choose first yes no, w)
  | .assign _ op t e, w => do
    let id ← c.storeIdFor? t
    let (k, w) ← settle e w
    return (.assign H op id k, w)
  | .cast _ _ e, w => settle e w
  | .call o _ args, w => do
    let attr ← c.semantics.scheduling? o.id
    let (vs, w) ← atOnce (fun w => settleArgs args w) w
    let (v, w) := w.schedule answer attr.nodeType vs
    return (.done v, w)
  | _, _ => none

def settleArgs : List Argument → World StoreId → Option (Rest (List Value) × World StoreId)
  | [], w => some (.done [], w)
  | .mk d e :: rest, w => do
    if d = .input then
      let (k, w) ← settle e w
      let (ks, w) ← settleArgs rest w
      return (.cons k ks, w)
    else none
end

def callsFirst (e : Expr) : Rest Value := atOnce (settle H answer c e)

/-- An evaluator has no other results for an expression than its evaluation with the calls first. -/
def Faithful (ev : Evaluator) (e : Expr) : Prop :=
  ∀ w q, ev e w = some q → callsFirst H answer c e w = some q

variable {H answer c}

attribute [local simp] settle settleArgs

/-- A scheduled call makes the calls of its arguments first, then evaluates them. -/
theorem callsFirst_call
    (h : c.semantics.scheduling? o.id = some attr) (callee : Expr) (args : List Argument)
    (w : World StoreId) : callsFirst H answer c (.call o callee args) w =
      (atOnce (settleArgs H answer c args) w).map fun q =>
        q.2.schedule answer attr.nodeType q.1 := by
  rw [callsFirst, atOnce, settle, h]
  simp only [bind_eq_bind, bind_some, bind_assoc, pure_def, Rest.done]
  cases atOnce (settleArgs H answer c args) w <;> rfl

/-- An assignment makes all calls before it writes. -/
theorem callsFirst_assign {t : Expr} {id : StoreId} (h : c.storeIdFor? t = some id) (o : Origin)
    (e : Expr) (w : World StoreId) : callsFirst H answer c (.assign o .assign t e) w =
      (callsFirst H answer c e w).map fun q => (q.1, q.2.set id q.1) := by
  rw [callsFirst, callsFirst, atOnce, atOnce, settle, h]
  simp only [bind_eq_bind, bind_some, bind_assoc, pure_def,
    Rest.assign, AssignOp.binary, map_bind, Function.comp_def]
  refine congrArg _ (funext fun q => ?_)
  cases q.1 q.2 <;> rfl

end Workflow.Source
