import Workflow.Code.Expr
import Workflow.Error

/-!
# Stores

A store is a typed, named location that embedded code can refer to: a parameter of the activity, its
result, or a variable. Its host is the activity itself or the statement that declares it. Code
reaches a store through its handle, which is its name unless accesses are redirected.
-/

namespace Workflow

abbrev StmtId := Nat

abbrev StoreId := Nat

/-- A token that ties a fragment or a declaration to its place in the model program. -/
abbrev Marker := Nat

def markerText (m : Marker) : String := s!"__wm{m}"

inductive StoreKind where
  | input
  | output
  | byRef
  | var
  | result
deriving DecidableEq, Repr, Inhabited

namespace StoreKind

/-- Whether the store is part of the activity's signature. -/
def isArgument : StoreKind → Bool
  | .var => false
  | _ => true

def direction : StoreKind → Direction
  | .input | .var => .input
  | .output | .result => .output
  | .byRef => .byRef

def ofDirection : Direction → StoreKind
  | .input => .input
  | .output => .output
  | .byRef => .byRef

def word : StoreKind → String
  | .input => "in"
  | .output => "out"
  | .byRef => "ref"
  | .var => "local"
  | .result => "result"

def ofWord? : String → Option StoreKind
  | "in" => some .input
  | "out" => some .output
  | "ref" => some .byRef
  | "local" => some .var
  | "result" => some .result
  | _ => none

end StoreKind

inductive StoreHost where
  | activity
  | statement (id : StmtId)
deriving DecidableEq, Repr, Inhabited

structure Store where
  name : String
  /-- The declared type, which may have to be inferred. -/
  ty : TypeName
  kind : StoreKind
  /-- The marker of its declaration. -/
  marker : Marker
  host : StoreHost
  span : Span
  /-- Whether a code statement declares the store together with its first value. -/
  initialized : Bool := false
  /-- The handle that accesses are redirected to. -/
  redirect : Option Expr := none
deriving Inhabited

namespace Store

def handle (s : Store) : Expr := s.redirect.getD (.ident s.name)

/-- Redirects the accesses to a store, which can be done once. -/
def redirectTo (s : Store) (e : Expr) : Except CompileError Store :=
  if s.redirect.isSome then .error ((Cause.alreadyRedirected s.name).error s.span)
  else .ok { s with redirect := some e }

end Store

end Workflow
