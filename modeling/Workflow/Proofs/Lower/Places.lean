import Workflow.Proofs.Lower.Derivation

/-!
# Places that are assigned to

Arguments that are passed by reference and the targets of assignments and steps have to be places: a
name, a member or an element. Staging keeps a place that is no store as a place. A store becomes a
local that is copied, if a call passes it, or a write; only the arguments of constructors are staged
as values.

The arguments of a scheduled call are bound to the parameters of what it schedules.
-/

namespace Workflow

namespace Expr

def isStoreRead : Expr → Bool
  | .call _ (.member _ _ method) [.mk .input (.name _ x)] => method == "Get" && x == contextName
  | _ => false

/-- What can be assigned to, as it is written. -/
def isPlace : Expr → Bool
  | .name .. | .member .. | .index .. => true
  | _ => false

/-- The expression itself assigns to no store read and passes none by reference. -/
def KeepsPlaces : Expr → Prop
  | .call _ _ args | .create _ _ args =>
    ∀ a ∈ args, a.direction ≠ .input → a.value.isStoreRead = false
  | .unary _ op e => op.isStep = true → e.isStoreRead = false
  | .assign _ _ target _ => target.isStoreRead = false
  | _ => True

instance : DecidablePred KeepsPlaces := fun e => by
  unfold KeepsPlaces
  split <;> infer_instance

end Expr

/-- The expression assigns to and passes places, and to a constructor none that is a store. -/
def LowerContext.AssignsPlaces (c : LowerContext) : Expr → Prop
  | .call _ _ args => ∀ a ∈ args, a.direction ≠ .input → a.value.isPlace = true
  | .create _ _ args =>
    ∀ a ∈ args, a.direction ≠ .input → a.value.isPlace = true ∧ c.namedStore? a.value = none
  | .unary _ op e => op.isStep = true → e.isPlace = true
  | .assign _ _ target _ => target.isPlace = true
  | _ => True

instance (c : LowerContext) : DecidablePred c.AssignsPlaces := fun e => by
  unfold LowerContext.AssignsPlaces
  split <;> infer_instance

/-- An assignment and a step of a store become a write. -/
def LowerContext.Writes (c : LowerContext) : Expr → Expr → Prop
  | .assign o op target _, e' =>
    ∀ store, c.storeFor? target = some store → ∃ v, e' = Stage.storeAssign o op store v
  | .unary _ op e, e' => ∀ step store, op.stepOp = some step → c.storeFor? e = some store →
    e' = Stage.storeStep op step store
  | _, _ => True

/-- A store that is passed by reference, and the local that is passed in its place. -/
structure StoreCopy where
  direction : Direction
  store : Store
  name : String
  ty : TypeName

namespace StoreCopy

def argument (k : StoreCopy) : Argument := .mk k.direction (.ident k.name)

/-- What goes out only is not copied in. -/
def before (k : StoreCopy) : CodeStmt :=
  .localVar k.name k.ty (if k.direction == .byRef then some (.storeGet k.store.handle) else none)

def after (k : StoreCopy) : CodeStmt := .eval (.storeSet k.store.handle (.ident k.name))

end StoreCopy

/-- What a scheduled call passes at a position, under the name and in the direction of the
parameter: a value of its type or the location of a store. -/
structure LowerContext.Binds (c : LowerContext) (attr : SchedulingAttribute) (i : Nat)
    (arg : Argument) (a : NodeArgument) : Prop where
  name : a.name = Stage.argumentName attr i
  direction : a.direction = arg.direction
  asked : ∀ p ∈ attr.parameters[i]?, p.direction = a.direction
  value : a.direction = .input →
    ∃ v, a.value = .value { ty := Stage.argumentType? attr i, expr := v }
  location : a.direction ≠ .input → ∃ store loc, c.namedStore? arg.value = some store ∧
    a.value = .location loc ∧ loc.handle = store.handle

/-- A node has the arguments of a scheduled call, and a result only where the attribute has one, of
its type or in a store. -/
def LowerContext.Invokes (c : LowerContext) (attr : SchedulingAttribute) (args : List Argument)
    (as : List NodeArgument) (result : Option Location) : Prop :=
  List.Forall₂ (fun x a => c.Binds attr x.2 x.1 a) args.zipIdx as ∧
    ∀ l ∈ result, attr.result.isSome = true ∧
      (l.ty = attr.result ∨ ∃ store ∈ c.activity.stores, l.handle = store.handle)

namespace Staging

variable {site : Site} {a : List Step} {s t : StageState} {args as : List Argument}

theorem isPlace (h : Staging site (.expr e e') a s t) (he : e.isPlace = true)
    (hstore : site.context.namedStore? e = none) : e'.isStoreRead = false := by
  cases h with
  | read hsome => cases hstore.symm.trans hsome
  | name | member | index => rfl
  | _ => cases he

theorem plain_keepsPlaces (h : Staging site (.plain args p) a s t)
    (hargs : ∀ a ∈ args, a.direction ≠ .input → a.value.isPlace = true) :
    ∀ a ∈ p.args, a.direction ≠ .input → a.value.isStoreRead = false := by
  induction args generalizing s p a with
  | nil =>
    cases h
    exact fun a ha => by cases ha
  | cons arg rest ih =>
    obtain ⟨hplace, hrest⟩ := List.forall_mem_cons.1 hargs
    cases h with
    | copied _ _ _ _ _ h => exact List.forall_mem_cons.2 ⟨fun _ => rfl, ih h hrest⟩
    | passed hnone he h =>
      exact List.forall_mem_cons.2 ⟨fun hd => he.isPlace (hplace hd) (hnone hd), ih h hrest⟩

theorem values_keepPlaces (h : Staging site (.values args as) a s t)
    (hargs : ∀ a ∈ args, a.direction ≠ .input → a.value.isPlace = true ∧
      site.context.namedStore? a.value = none) :
    ∀ a ∈ as, a.direction ≠ .input → a.value.isStoreRead = false := by
  induction args generalizing s as a with
  | nil =>
    cases h
    exact fun a ha => by cases ha
  | cons arg rest ih =>
    obtain ⟨hplace, hrest⟩ := List.forall_mem_cons.1 hargs
    cases h with
    | valuesCons he h =>
      exact List.forall_mem_cons.2
        ⟨fun hd => he.isPlace (hplace hd).1 (hplace hd).2, ih h hrest⟩

theorem writes (h : Staging site (.expr e e') a s t) : site.context.Writes e e' := by
  cases h with
  | write hstore =>
    intro store hsome
    cases hstore.symm.trans hsome
    exact ⟨_, rfl⟩
  | assign hnone =>
    intro store hsome
    cases hnone.symm.trans hsome
  | step hop hstore =>
    intro step store hstep hsome
    cases hop.symm.trans hstep
    cases hstore.symm.trans hsome
    rfl
  | unary hplain =>
    intro step store hstep hsome
    rcases hplain with hnone | hnone
    · cases hnone.symm.trans hstep
    · cases hnone.symm.trans hsome
  | _ => trivial

theorem binds {attr : SchedulingAttribute} {i : Nat} {as : List NodeArgument}
    (h : Staging site (.inputs attr i args as) a s t) :
    List.Forall₂ (fun x a => site.context.Binds attr x.2 x.1 a) (args.zipIdx i) as := by
  induction args generalizing s as a i with
  | nil =>
    cases h
    exact .nil
  | cons arg rest ih =>
    rw [List.zipIdx_cons]
    cases h with
    | input _ h hasked =>
      exact .cons ⟨rfl, rfl, hasked, fun _ => ⟨_, rfl⟩, fun hd => absurd rfl hd⟩ (ih h)
    | location hd hstore hhandle _ _ h hasked =>
      exact .cons ⟨rfl, rfl, hasked, fun h => absurd h hd,
        fun _ => ⟨_, _, hstore, rfl, hhandle⟩⟩ (ih h)

theorem invokes {attr : SchedulingAttribute} {result : CallResult} {as : List NodeArgument}
    {p : Option Location × Option Expr} (h : Staging site (.inputs attr 0 args as) a s t)
    (hinto : ∀ store, result = .into store → store ∈ site.context.activity.stores)
    (hresult : Stage.resultLocation site attr result t = .ok p u) :
    site.context.Invokes attr args as p.1 := by
  refine ⟨h.binds, fun l hl => ?_⟩
  obtain ⟨-, -, ⟨hloc, -⟩ | ⟨n, ty, hty, rfl⟩⟩ := Stage.resultLocation_ok hresult
  · obtain ⟨hsome, store, hst, hhandle⟩ := hloc l hl
    exact ⟨hsome, .inr ⟨store, hinto store hst, hhandle⟩⟩
  · cases hl
    exact ⟨by rw [hty]; rfl, .inl hty.symm⟩

end Staging

end Workflow
