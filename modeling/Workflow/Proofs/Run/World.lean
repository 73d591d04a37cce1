import Workflow.Code.Expr

/-!
# Running code: values and worlds

A world holds the values of variables and the calls that were scheduled so far, in order. Variables
are kept by a key: by the index of a store where code is run as it is written, by the name of a
variable where produced code is run by the engine.

Of the strict operators of the host nothing is asked except on the values that produced code itself
works with. Integers are exact.
-/

namespace Workflow

variable {v : Value} {op : BinaryOp}

/-- A value. -/
inductive Value where
  | null
  | bool (b : Bool)
  | int (n : Int)
  | float (x : Float)
  | str (s : String)
  /-- An object of the host language. -/
  | object (id : Nat)
deriving Inhabited

namespace Value

def ofLiteral : Literal → Value
  | .null => .null
  | .bool b => .bool b
  | .int n => .int n
  | .float x => .float x
  | .str s => .str s

def isNull : Value → Bool
  | .null => true
  | _ => false

def asBool : Value → Option Bool
  | .bool b => some b
  | _ => none

def asInt : Value → Option Int
  | .int n => some n
  | _ => none

theorem eq_bool_of_asBool (h : v.asBool = some b) : v = .bool b := by
  cases v <;> simp_all [asBool]

theorem eq_int_of_asInt (h : v.asInt = some n) : v = .int n := by
  cases v <;> simp_all [asInt]

@[simp]
theorem asBool_bool (b : Bool) : (Value.bool b).asBool = some b := rfl

@[simp]
theorem asInt_int (n : Int) : (Value.int n).asInt = some n := rfl

@[simp]
theorem isNull_null : Value.null.isNull = true := rfl

end Value

/-- A scheduled call: the node type and the values of the arguments. -/
structure ScheduledCall where
  nodeType : String
  args : List Value
deriving Inhabited

/-- What the engine answers to a scheduled call, given everything that was scheduled; the call
itself is the last. -/
abbrev Answer := List ScheduledCall → Value

/-- Strict operators, which may fail, and the value of a variable without a default when its node
starts, given what it held before. -/
structure Runtime where
  unary : UnaryOp → Value → Option Value
  binary : BinaryOp → Value → Value → Option Value
  start : Option Value → Value
  not_bool : ∀ b, unary .not (.bool b) = some (.bool (!b))
  add_int : ∀ m n, binary .add (.int m) (.int n) = some (.int (m + n))
  sub_int : ∀ m n, binary .sub (.int m) (.int n) = some (.int (m - n))
  eq_int : ∀ m n, binary .eq (.int m) (.int n) = some (.bool (m == n))
  ne_null : ∀ v, binary .ne v .null = some (.bool (!v.isNull))

/-- The values of variables and the calls scheduled so far. -/
@[ext]
structure World (κ : Type) where
  vars : κ → Option Value
  trace : List ScheduledCall

namespace World

variable {κ : Type} [DecidableEq κ]

def set (w : World κ) (k : κ) (v : Value) : World κ :=
  { w with vars := fun i => if i = k then some v else w.vars i }

def schedule (answer : Answer) (w : World κ) (nodeType : String) (args : List Value) :
    Value × World κ :=
  let trace := w.trace ++ [{ nodeType := nodeType, args := args }]
  (answer trace, { w with trace := trace })

@[simp]
theorem vars_set_self (w : World κ) (k : κ) (v : Value) : (w.set k v).vars k = some v := by
  simp [set]

theorem vars_set_of_ne (w : World κ) {k i : κ} (v : Value) (h : i ≠ k) :
    (w.set k v).vars i = w.vars i := by
  simp [set, h]

@[simp]
theorem trace_set (w : World κ) (k : κ) (v : Value) : (w.set k v).trace = w.trace := rfl

end World

/-- The value of an operation that its left side alone decides. -/
def BinaryOp.decided? : BinaryOp → Value → Option Value
  | .andAlso, .bool false => some (.bool false)
  | .orElse, .bool true => some (.bool true)
  | .coalesce, a => if a.isNull then none else some a
  | _, _ => none

namespace BinaryOp

theorem decided?_andAlso (h : decided? .andAlso a = some v) : a = .bool false ∧ v = .bool false := by
  rcases a with _ | ⟨_ | _⟩ | _ | _ | _ | _ <;> simp_all [decided?]

theorem decided?_orElse (h : decided? .orElse a = some v) : a = .bool true ∧ v = .bool true := by
  rcases a with _ | ⟨_ | _⟩ | _ | _ | _ | _ <;> simp_all [decided?]

theorem decided?_coalesce (h : decided? .coalesce a = some v) : a.isNull = false ∧ v = a := by
  cases ha : a.isNull <;> simp_all [decided?]

end BinaryOp

namespace Runtime

def combine (H : Runtime) (op : BinaryOp) (a b : Value) : Option Value :=
  match op with
  | .andAlso | .orElse => do
    let _ ← a.asBool
    return .bool (← b.asBool)
  | .coalesce => some b
  | op => H.binary op a b

/-- Applies an operator; the right side is evaluated only if the left one does not decide. -/
def operate {κ : Type} (H : Runtime) (op : BinaryOp) (a : Value)
    (right : World κ → Option (Value × World κ)) (w : World κ) : Option (Value × World κ) :=
  match op.decided? a with
  | some v => some (v, w)
  | none => do
    let (b, w) ← right w
    return (← H.combine op a b, w)

theorem combine_of_strict (H : Runtime) (h : op.isShortCircuit = false) (a b : Value) :
    H.combine op a b = H.binary op a b := by
  cases op <;> first | rfl | exact absurd h (by decide)

theorem eq_of_combine (H : Runtime) (h : op.isShortCircuit = true)
    (hv : H.combine op a b = some v) : v = b := by
  cases op
  case coalesce => exact (Option.some.inj hv).symm
  case andAlso | orElse =>
    obtain ⟨_, _, hv⟩ := Option.bind_eq_some_iff.1 hv
    obtain ⟨y, hb, hv⟩ := Option.bind_eq_some_iff.1 hv
    rw [Value.eq_bool_of_asBool hb]
    exact (Option.some.inj hv).symm
  all_goals cases h

theorem operate_of_strict {κ : Type} (H : Runtime) (h : op.isShortCircuit = false) (a : Value)
    (right : World κ → Option (Value × World κ)) (w : World κ) :
    H.operate op a right w = (right w).bind fun r => (H.binary op a r.1).map fun v => (v, r.2) := by
  have hd : op.decided? a = none := by cases op <;> first | rfl | exact absurd h (by decide)
  simp only [operate, hd, combine_of_strict H h]
  cases right w with
  | none => rfl
  | some r => cases hb : H.binary op a r.1 <;> simp [hb]

/-- A host with integers and truth values. -/
def arithmetic : Runtime where
  unary
    | .not, .bool b => some (.bool (!b))
    | .neg, .int n => some (.int (-n))
    | _, _ => none
  binary
    | .add, .int m, .int n => some (.int (m + n))
    | .sub, .int m, .int n => some (.int (m - n))
    | .mul, .int m, .int n => some (.int (m * n))
    | .eq, .int m, .int n => some (.bool (m == n))
    | .lt, .int m, .int n => some (.bool (decide (m < n)))
    | .ne, v, .null => some (.bool (!v.isNull))
    | _, _, _ => none
  start old := old.getD .null
  not_bool _ := rfl
  add_int _ _ := rfl
  sub_int _ _ := rfl
  eq_int _ _ := rfl
  ne_null _ := rfl

instance : Inhabited Runtime := ⟨arithmetic⟩

end Runtime

theorem AssignOp.strict_of_binary {op : AssignOp} {bin : BinaryOp} (h : op.binary = some bin) :
    bin.isShortCircuit = false := by
  cases op <;> simp [binary] at h <;> subst h <;> rfl

/-- Repeats a body as long as a test holds, with at most `n` tests. -/
def iterate {σ : Type} (test : σ → Option (Bool × σ)) (body : σ → Option σ) :
    Nat → σ → Option σ
  | 0, _ => none
  | n + 1, w => do
    let (b, w) ← test w
    if b then
      let w ← body w
      iterate test body n w
    else some w

end Workflow
