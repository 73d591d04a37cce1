import Workflow.Proofs.Run.CallsFirst
import Workflow.Proofs.Run.Footprint

/-!
# Effects of expressions

What an expression reads and writes is collected from its form, apart for the time when its calls
are made and for the time afterwards. An expression is orderly if its calls may be made first: what
is left of its parts when a later part makes its calls is neither disturbed by these calls nor
disturbs them.
-/

namespace Workflow

open LowerContext Option

variable {F : Footprint} {o : Origin}

/-- What an expression does while its calls are made and what it does afterwards, and whether it is
in order. -/
structure Effects where
  steps : Footprint := {}
  rest : Footprint := {}
  orderly : Bool := true
deriving DecidableEq, Repr, Inhabited

namespace Effects

/-- An expression that is evaluated as a whole while calls are made. -/
def atOnce (a : Effects) : Effects := { steps := a.steps ∪ a.rest, orderly := a.orderly }

/-- Two expressions that are evaluated as a whole, one after the other. -/
def inTurn (a b : Effects) : Effects :=
  { steps := (a.steps ∪ a.rest) ∪ (b.steps ∪ b.rest), orderly := a.orderly && b.orderly }

/-- Two expressions, the calls of both of which are made before the rest of either is evaluated. -/
def both (a b : Effects) : Effects :=
  { steps := a.steps ∪ b.steps
    rest := a.rest ∪ b.rest
    orderly := a.orderly && b.orderly && a.rest.apart b.steps }

/-- The assignment of a value to stores, of which the old values may be read. -/
def assign (a : Effects) (old new : List StoreId) : Effects :=
  { steps := a.steps
    rest := { reads := old } ∪ (a.rest ∪ { writes := new })
    orderly := a.orderly && Footprint.apart { reads := old } a.steps }

end Effects

namespace LowerContext

mutual
def effects (c : LowerContext) : Expr → Effects
  | .name o x => { rest := { reads := (c.storeIdFor? (.name o x)).toList } }
  | .unary _ op e =>
    if op.isStep then
      let ids := (c.storeIdFor? e).toList
      { rest := { reads := ids } ∪ { writes := ids } }
    else c.effects e
  | .binary _ op l r =>
    if op.isShortCircuit && c.schedules r then (c.effects l).inTurn (c.effects r)
    else (c.effects l).both (c.effects r)
  | .conditional _ test y n =>
    if c.schedules y || c.schedules n then
      (c.effects test).inTurn ((c.effects y).inTurn (c.effects n))
    else (c.effects test).both ((c.effects y).both (c.effects n))
  | .assign _ op t e =>
    let ids := (c.storeIdFor? t).toList
    (c.effects e).assign (if op.binary.isSome then ids else []) ids
  | .cast _ _ e => c.effects e
  | .call _ _ args =>
    let a := (c.argsEffects args).atOnce
    { a with steps := a.steps ∪ { calls := true } }
  | _ => {}

def argsEffects (c : LowerContext) : List Argument → Effects
  | [] => {}
  | .mk _ e :: rest => (c.effects e).both (c.argsEffects rest)
end

/-- Whether the calls of an expression may be made first. -/
def orderly (c : LowerContext) (e : Expr) : Bool := (c.effects e).orderly

end LowerContext

namespace Source

variable {α : Type} {id : StoreId}

theorem local_read (id : StoreId) :
    Local { reads := [id] } (fun w => (w.vars id).bind fun v => some (v, w)) := by
  intro u a u' hu x hx
  obtain ⟨v, hv, h⟩ := bind_eq_some_iff.1 hu
  cases h
  exact bind_eq_some_iff.2 ⟨a, (hx.1 id (.inl List.mem_cons_self)).trans hv, rfl⟩

theorem local_write (id : StoreId) (a : α) (v : Value) :
    Local { writes := [id] } (fun w => some (a, w.set id v)) := by
  intro u b u' hu x hx
  cases hu
  refine congrArg (fun y => some (a, y)) (World.ext (funext fun i => ?_) rfl)
  by_cases hi : i = id
  · subst hi
    rw [World.vars_patch_of_mem List.mem_cons_self, World.vars_set_self, World.vars_set_self]
  · rw [World.vars_patch_of_not_mem (by simp [hi]), World.vars_set_of_ne x v hi]

theorem local_schedule (answer : Answer) (nodeType : String) (args : List Value) (f : Value → α) :
    Local { calls := true } (fun w =>
      some (f (w.schedule answer nodeType args).1, (w.schedule answer nodeType args).2)) := by
  intro u a u' hu x hx
  cases hu
  simp only [World.schedule, hx.2 rfl]
  refine congrArg (fun y => some (_, y)) (World.ext (funext fun i => ?_) rfl)
  rw [World.vars_patch_of_not_mem (by simp)]

theorem local_operate (H : Runtime) (op : BinaryOp) (a : Value)
    {f : World StoreId → Option (Value × World StoreId)} (h : Local F f) :
    Local F (H.operate op a f) := by
  unfold Runtime.operate
  cases op.decided? a with
  | some v => exact .pure F v
  | none => exact h.filterMap (H.combine op a)

/-- Making calls is local to the first footprint, and what is left is local to the second. -/
def LocalIn {α : Type} (a : Effects) (S : World StoreId → Option (Rest α × World StoreId)) :
    Prop :=
  Local a.steps S ∧ ∀ w k w₁, S w = some (k, w₁) → Local a.rest k

namespace LocalIn

variable {α β γ : Type} {a b : Effects} {S : World StoreId → Option (Rest α × World StoreId)}
variable {T : World StoreId → Option (Rest β × World StoreId)}

theorem none (a : Effects) : LocalIn a (fun _ => (none : Option (Rest α × World StoreId))) :=
  ⟨.none _, fun _ _ _ hS => by cases hS⟩

theorem here {k : Rest α} (h : Local F k) : LocalIn { rest := F } (fun w => some (k, w)) :=
  ⟨.pure {} k, fun _ _ _ hS => by cases hS; exact h⟩

theorem done {f : Rest α} (h : Local a.steps f) :
    LocalIn a (fun w => (f w).bind fun q => some (Rest.done q.1, q.2)) := by
  refine ⟨h.map Rest.done, fun w k w₁ hS => ?_⟩
  obtain ⟨q, _, hk⟩ := bind_eq_some_iff.1 hS
  cases hk
  exact .pure a.rest q.1

theorem atOnce (h : LocalIn a S) : Local (a.steps ∪ a.rest) (Source.atOnce S) :=
  h.1.bind h.2

theorem map (f : Rest α → Rest β) (h : LocalIn a S) (hsteps : b.steps = a.steps)
    (hf : ∀ k, Local a.rest k → Local b.rest (f k)) :
    LocalIn b (fun w => (S w).bind fun r => some (f r.1, r.2)) := by
  refine ⟨hsteps ▸ h.1.map f, fun w k w₁ hS => ?_⟩
  obtain ⟨r, hr, hk⟩ := bind_eq_some_iff.1 hS
  cases hk
  exact hf r.1 (h.2 w r.1 r.2 hr)

theorem both (f : Rest α → Rest β → Rest γ) (ha : LocalIn a S) (hb : LocalIn b T)
    (hf : ∀ k l, Local a.rest k → Local b.rest l → Local (a.rest ∪ b.rest) (f k l)) :
    LocalIn (a.both b)
      (fun w => (S w).bind fun r => (T r.2).bind fun q => some (f r.1 q.1, q.2)) := by
  refine ⟨ha.1.bind fun _ k _ _ => hb.1.map (f k), fun w k w₁ hS => ?_⟩
  obtain ⟨r, hr, hS⟩ := bind_eq_some_iff.1 hS
  obtain ⟨q, hq, hS⟩ := bind_eq_some_iff.1 hS
  cases hS
  exact hf r.1 q.1 (ha.2 w r.1 r.2 hr) (hb.2 r.2 q.1 q.2 hq)

end LocalIn

variable {H : Runtime} {answer : Answer} {c : LowerContext}

attribute [local simp] eval effects

theorem localIn_unary (hop : op.isStep = false) (h : LocalIn (c.effects e) (settle H answer c e)) :
    LocalIn (c.effects (.unary o op e)) (settle H answer c (.unary o op e)) := by
  have hS : settle H answer c (.unary o op e) = fun w =>
      (settle H answer c e w).bind fun r => some (Rest.unary H op r.1, r.2) := by
    funext w
    rw [settle, if_neg (by simp [hop])]
    rfl
  rw [hS, effects, if_neg (by simp [hop])]
  exact h.map _ rfl fun k hk => hk.filterMap (H.unary op)

theorem localIn_binary (hl : LocalIn (c.effects l) (settle H answer c l))
    (hr : LocalIn (c.effects r) (settle H answer c r)) :
    LocalIn (c.effects (.binary o op l r)) (settle H answer c (.binary o op l r)) := by
  rw [effects]
  cases hskip : op.isShortCircuit && c.schedules r with
  | true =>
    have hS : settle H answer c (.binary o op l r) = fun w =>
        (Rest.operate H op (atOnce (settle H answer c l)) (atOnce (settle H answer c r)) w).bind
          fun q => some (Rest.done q.1, q.2) := by
      funext w
      rw [settle, hskip]
      simp only [if_true, bind_eq_bind, bind_assoc, atOnce, pure_def,
        Rest.operate]
    rw [hS, if_pos rfl]
    exact .done (hl.atOnce.bind fun _ a _ _ => local_operate H op a hr.atOnce)
  | false =>
    have hS : settle H answer c (.binary o op l r) = fun w =>
        (settle H answer c l w).bind fun p => (settle H answer c r p.2).bind fun q =>
          some (Rest.operate H op p.1 q.1, q.2) := by
      funext w
      rw [settle, hskip]
      rfl
    rw [hS, if_neg (by simp)]
    exact hl.both _ hr fun k k' hk hk' => hk.bind fun _ a _ _ => local_operate H op a hk'

theorem local_choose {G K : Footprint} {f g k : Rest Value} (hf : Local F f) (hg : Local G g)
    (hk : Local K k) : Local (F ∪ (G ∪ K)) (Rest.choose f g k) := by
  have hpick : ∀ a : Value, Local (G ∪ K)
      (fun w => a.asBool.bind fun t => if t then g w else k w) := by
    intro a
    cases a.asBool with
    | none => exact .none _
    | some t =>
      cases t with
      | true => exact hg.mono (Footprint.le_union_left G K)
      | false => exact hk.mono (Footprint.le_union_right G K)
  exact hf.bind fun _ a _ _ => hpick a

theorem localIn_conditional (ht : LocalIn (c.effects test) (settle H answer c test))
    (hy : LocalIn (c.effects y) (settle H answer c y))
    (hn : LocalIn (c.effects n) (settle H answer c n)) :
    LocalIn (c.effects (.conditional o test y n)) (settle H answer c (.conditional o test y n)) := by
  rw [effects]
  cases hskip : c.schedules y || c.schedules n with
  | true =>
    have hS : settle H answer c (.conditional o test y n) = fun w =>
        (Rest.choose (atOnce (settle H answer c test)) (atOnce (settle H answer c y))
          (atOnce (settle H answer c n)) w).bind fun q => some (Rest.done q.1, q.2) := by
      funext w
      rw [settle, hskip]
      simp only [if_true, bind_eq_bind, bind_assoc, atOnce, pure_def,
        Rest.choose]
    rw [hS, if_pos rfl]
    have hall := local_choose ht.atOnce hy.atOnce hn.atOnce
    exact .done (by simpa [Effects.inTurn] using hall)
  | false =>
    have hS : settle H answer c (.conditional o test y n) = fun w =>
        (settle H answer c test w).bind fun p => (settle H answer c y p.2).bind fun q =>
          (settle H answer c n q.2).bind fun r => some (Rest.choose p.1 q.1 r.1, r.2) := by
      funext w
      rw [settle, hskip]
      rfl
    rw [hS, if_neg (by simp)]
    refine ⟨ht.1.bind fun _ p _ _ => hy.1.bind fun _ q _ _ => hn.1.map (Rest.choose p q),
      fun w k w₁ hw => ?_⟩
    obtain ⟨p, hp, hw⟩ := bind_eq_some_iff.1 hw
    obtain ⟨q, hq, hw⟩ := bind_eq_some_iff.1 hw
    obtain ⟨r, hr, hw⟩ := bind_eq_some_iff.1 hw
    cases hw
    exact local_choose (ht.2 w p.1 p.2 hp) (hy.2 p.2 q.1 q.2 hq) (hn.2 q.2 r.1 r.2 hr)

theorem local_assign (H : Runtime) (op : AssignOp) (id : StoreId) {k : Rest Value}
    (hk : Local F k) :
    Local ({ reads := if op.binary.isSome then [id] else [] } ∪ (F ∪ { writes := [id] }))
      (Rest.assign H op id k) := by
  unfold Rest.assign
  cases op.binary with
  | none =>
    have := hk.bind fun _ v _ _ => local_write id v v
    exact this.mono (Footprint.le_union_right _ _)
  | some bin =>
    have hwrite : ∀ old v, Local { writes := [id] } (fun w =>
        (H.binary bin old v).bind fun v => some (v, w.set id v)) := by
      intro old v
      cases H.binary bin old v with
      | none => exact .none _
      | some v' => exact local_write id v' v'
    have hrest := fun old => hk.bind fun _ v _ _ => hwrite old v
    have := (local_read id).bind fun _ old _ _ => hrest old
    simpa [bind_assoc] using this

theorem localIn_assign (h : LocalIn (c.effects e) (settle H answer c e)) :
    LocalIn (c.effects (.assign o op t e)) (settle H answer c (.assign o op t e)) := by
  rw [effects]
  cases hid : c.storeIdFor? t with
  | none =>
    have hS : settle H answer c (.assign o op t e) = fun _ => none := by
      funext w
      rw [settle, hid]
      rfl
    rw [hS]
    exact .none _
  | some id =>
    have hS : settle H answer c (.assign o op t e) = fun w =>
        (settle H answer c e w).bind fun r => some (Rest.assign H op id r.1, r.2) := by
      funext w
      rw [settle, hid]
      rfl
    rw [hS]
    refine h.map _ ?_ fun k hk => ?_
    · rfl
    · exact local_assign H op id hk

theorem localIn_call (h : LocalIn (c.argsEffects args) (settleArgs H answer c args)) :
    LocalIn (c.effects (.call o callee args)) (settle H answer c (.call o callee args)) := by
  rw [effects]
  cases hattr : c.semantics.scheduling? o.id with
  | none =>
    have hS : settle H answer c (.call o callee args) = fun _ => none := by
      funext w
      rw [settle, hattr]
      rfl
    rw [hS]
    exact .none _
  | some attr =>
    have hS : settle H answer c (.call o callee args) = fun w =>
        ((atOnce (settleArgs H answer c args) w).bind fun q =>
          some ((q.2.schedule answer attr.nodeType q.1).1,
            (q.2.schedule answer attr.nodeType q.1).2)).bind fun q =>
              some (Rest.done q.1, q.2) := by
      funext w
      rw [settle, hattr]
      simp only [bind_eq_bind, bind_assoc, bind_some, pure_def]
    rw [hS]
    exact .done (h.atOnce.bind fun _ vs _ _ => local_schedule answer attr.nodeType vs id)

theorem localIn_args_cons (he : LocalIn (c.effects e) (settle H answer c e))
    (hrest : LocalIn (c.argsEffects rest) (settleArgs H answer c rest)) :
    LocalIn (c.argsEffects (.mk d e :: rest)) (settleArgs H answer c (.mk d e :: rest)) := by
  rw [argsEffects]
  by_cases hd : d = .input
  · have hS : settleArgs H answer c (.mk d e :: rest) = fun w =>
        (settle H answer c e w).bind fun r => (settleArgs H answer c rest r.2).bind fun q =>
          some (Rest.cons r.1 q.1, q.2) := by
      funext w
      rw [settleArgs, if_pos hd]
      rfl
    rw [hS]
    exact he.both _ hrest fun k ks hk hks => hk.bind fun _ v _ _ => hks.map (v :: ·)
  · have hS : settleArgs H answer c (.mk d e :: rest) = fun _ => none := by
      funext w
      rw [settleArgs, if_neg hd]
    rw [hS]
    exact .none _

theorem localIn_name (o : Origin) (x : String) :
    LocalIn (c.effects (.name o x)) (settle H answer c (.name o x)) := by
  have hS : settle H answer c (.name o x) = fun w => some (eval H answer c (.name o x), w) := by
    funext w
    rw [settle]
  have hE : eval H answer c (.name o x) = fun w =>
      (c.storeIdFor? (.name o x)).bind fun id => (w.vars id).bind fun v => some (v, w) := by
    funext w
    rw [eval]
    rfl
  rw [hS, effects]
  refine .here ?_
  rw [hE]
  cases c.storeIdFor? (.name o x) with
  | none => exact .none _
  | some id => exact local_read id

theorem localIn_step (hop : op.isStep = true) :
    LocalIn (c.effects (.unary o op e)) (settle H answer c (.unary o op e)) := by
  obtain ⟨step, hstep⟩ := isSome_iff_exists.1 hop
  have hS : settle H answer c (.unary o op e) = fun w =>
      some (eval H answer c (.unary o op e), w) := by
    funext w
    rw [settle, if_pos hop]
  have hE : eval H answer c (.unary o op e) = fun w => (c.storeIdFor? e).bind fun id =>
      ((w.vars id).bind fun v => some (v, w)).bind fun r => r.1.asInt.bind fun n =>
        some (.int (if op.isPost then n else stepped step n),
          r.2.set id (.int (stepped step n))) := by
    funext w
    rw [eval, hstep]
    simp only [bind_eq_bind, bind_assoc, bind_some, pure_def]
  rw [hS, effects, if_pos hop]
  refine .here ?_
  rw [hE]
  cases c.storeIdFor? e with
  | none => exact .none _
  | some id =>
    have hwrite : ∀ v : Value, Local { writes := [id] } (fun w => v.asInt.bind fun n =>
        some (Value.int (if op.isPost then n else stepped step n),
          w.set id (.int (stepped step n)))) := by
      intro v
      cases v.asInt with
      | none => exact .none _
      | some n => exact local_write id _ _
    exact (local_read id).bind fun _ v _ _ => hwrite v

mutual
theorem localIn_expr : ∀ e : Expr, LocalIn (c.effects e) (settle H answer c e)
  | .literal o v => by
    have hS : settle H answer c (.literal o v) = fun w =>
        some (fun w => some (.ofLiteral v, w), w) := by
      funext w
      rw [settle]
      refine congrArg (fun k => some (k, w)) (funext fun w => ?_)
      rw [eval]
    rw [hS]
    exact .here (.pure _ _)
  | .name o x => localIn_name o x
  | .unary o op e => by
    cases hop : op.isStep with
    | true => exact localIn_step hop
    | false => exact localIn_unary hop (localIn_expr e)
  | .binary o op l r => localIn_binary (localIn_expr l) (localIn_expr r)
  | .conditional o t y n =>
    localIn_conditional (localIn_expr t) (localIn_expr y) (localIn_expr n)
  | .assign o op t e => localIn_assign (localIn_expr e)
  | .cast o ty e => by
    have hS : settle H answer c (.cast o ty e) = settle H answer c e := by
      funext w
      rw [settle]
    rw [hS, effects]
    exact localIn_expr e
  | .call o callee args => localIn_call (localIn_args args)
  | .member .. | .create .. | .lambda .. | .index .. | .block .. => by
    refine cast (congrArg (LocalIn _) (funext fun w => ?_)) (LocalIn.none {})
    simp only [settle]

theorem localIn_args : ∀ args : List Argument,
    LocalIn (c.argsEffects args) (settleArgs H answer c args)
  | [] => by
    have hS : settleArgs H answer c [] = fun w => some (.done [], w) := by
      funext w
      rw [settleArgs]
    rw [hS]
    exact .here (.pure _ _)
  | .mk d e :: rest => localIn_args_cons (localIn_expr e) (localIn_args rest)
end

end Source

end Workflow
