import Workflow.Proofs.Lower.View
import Workflow.Proofs.Semantics.Shown

/-!
# What staging reads

Staging an expression or a statement keeps to a view of the lowering: it is staged alike in the
other context, with the errors, the places and the names that are expected.
-/

namespace Workflow

open Option (isSome_some isSome_none)
open Stage CodeStmt List

variable {e : Expr} {o : Origin} {result : CallResult}

namespace LowerContext.View

variable {c : LowerContext} {W : c.View} {site : Site}

/-! ### Stores and places -/

attribute [local simp] Expr.mentions Argument.mentionsList mentions
  mentionsList Expr.mentionsOpt mentionsOpt mentionsList_append

section Parts

open Vocabulary

variable {still : Prop} {es : List Expr} {ms : List Mention} {st : Store}

theorem storeType_eq (hst : st ∈ c.activity.stores) :
    Lower.storeType W.other st = Lower.storeType c st := by
  rw [Lower.storeType, Lower.storeType, W.type_eq st hst]

theorem reports_storeType (hst : st ∈ c.activity.stores) : W.Reports (Lower.storeType c st) := by
  have hnone : ∀ l (a : TypeName), ∃ new, ((Pure.pure a : Lower TypeName).run l).2.errors.errors =
      l.errors.errors ++ new ∧ ∀ e ∈ new, W.allows e :=
    fun l a => ⟨[], (append_nil _).symm, fun _ he => by cases he⟩
  intro l
  unfold Lower.storeType
  split
  · exact hnone l _
  · split
    · exact hnone l _
    · refine ⟨[_], rfl, fun e he => ?_⟩
      rw [mem_singleton.1 he]
      exact W.plain rfl rfl (W.stores st hst)

theorem stages_location (hst : st ∈ c.activity.stores) :
    W.Stages still (ofLower (Lower.location c st))
      (ofLower (Lower.location W.other st)) fun l => W.names.All l.handle.mentions := by
  rw [Lower.location, Lower.location, storeType_eq hst]
  exact .ofLower (reports_storeType hst) fun _ => W.names.handle st hst

theorem stages_checkLambda (hsite : W.At site) (he : W.place e.span) (st : Store) :
    W.Stages still (checkLambda site e st) (checkLambda site e st) fun _ => True := by
  unfold checkLambda
  split
  · exact .fail (W.plain rfl rfl (hsite.spanOf he))
  · exact .pure trivial

theorem stages_noteLocal (hsite : W.At site) (ho : W.place o.span) (name : String) :
    W.Stages still (noteLocal site o name) (noteLocal site o name) fun _ => True := by
  refine .of_ok fun s hs => ⟨(), s.noted site o name, noteLocal_eq o name,
    noteLocal_eq o name, ?_⟩
  unfold StageState.noted
  split
  · exact ⟨.of_eq rfl fun _ => rfl, hs, trivial⟩
  · split
    · exact ⟨.of_eq rfl fun _ => rfl, hs, trivial⟩
    · refine ⟨.of_eq rfl fun _ => rfl, ⟨hs.steps, forall_mem_append.2 ⟨hs.uses, ?_⟩⟩, trivial⟩
      simpa using hsite.spanOf ho

theorem stages_checkDirection (attr : SchedulingAttribute) (i : Nat) (d : Direction) {span : Span}
    (hspan : W.place span) :
    W.Stages still (checkDirection attr i d span) (checkDirection attr i d span)
      fun _ => True := by
  unfold checkDirection
  split
  · exact .pure trivial
  · split
    · exact .fail (W.plain rfl rfl hspan)
    · exact .pure trivial

theorem stages_argumentLocation (hsite : W.At site) (h : W.Knows es ms)
    (attr : SchedulingAttribute) (i : Nat) (d : Direction) (he : e ∈ es) {span : Span}
    (hspan : W.place span) : W.Stages still (argumentLocation site attr i d e span)
      (argumentLocation (site.within W.other) attr i d e span)
      fun v => W.names.AllSlots v.slots := by
  have hstore : (site.within W.other).context.namedStore? e = c.namedStore? e := h.namedStore? he
  unfold argumentLocation
  rw [hstore, hsite.context]
  split
  · exact .fail (W.plain rfl rfl hspan)
  · next st hst =>
    refine (stages_location (namedStore?_mem hst)).bind fun l hl => .pure ?_
    simpa [AllSlots, ArgumentValue.slots] using hl

theorem stages_resultLocation (hsite : W.At site) (hstill : ¬ still) (attr : SchedulingAttribute)
    (hresult : ∀ st, result = .into st → st ∈ c.activity.stores) :
    W.Stages still (resultLocation site attr result)
      (resultLocation (site.within W.other) attr result) fun r =>
        (∀ l ∈ r.1, W.names.All l.handle.mentions) ∧ ∀ e ∈ r.2, W.names.All e.mentions := by
  unfold resultLocation
  rw [hsite.context]
  split
  · exact .pure (by simp)
  · exact (stages_location (hresult _ rfl)).bind fun l hl => .pure (by simpa using hl)
  · exact .pure (by simp)
  · exact (Stages.temp hstill _).bind fun x hx => .pure (by simp [all_ident hx])
  · exact .pure (by simp)

/-- A call is scheduled only where this is possible. -/
theorem stages_schedule (hsite : W.At site) (ho : W.place o.span) (attr : SchedulingAttribute)
    (hresult : ∀ st, result = .into st → st ∈ c.activity.stores)
    (hargs : W.Stages (site.canSchedule = false) args args' fun as =>
      ∀ a ∈ as, W.names.AllSlots a.value.slots) :
    W.Stages (site.canSchedule = false) (schedule site o attr result args)
      (schedule (site.within W.other) o attr result args')
      fun r => W.names.All (r.getD .null).mentions := by
  have hplace := hsite.spanOf ho
  unfold schedule
  cases hscope : site.inLambda || site.nested with
  | true =>
    have hscope' : ((site.within W.other).inLambda || (site.within W.other).nested) = true := hscope
    rw [hscope']
    exact .fail (W.plain rfl rfl hplace)
  | false =>
    have hscope' : ((site.within W.other).inLambda || (site.within W.other).nested) = false :=
      hscope
    rw [hscope']
    cases hslot : site.slot with
    | some slot =>
      have hslot' : (site.within W.other).slot = some slot := hslot
      rw [hslot']
      exact .fail (W.plain rfl rfl hplace)
    | none =>
      have hslot' : (site.within W.other).slot = none := hslot
      have hstill : ¬ site.canSchedule = false := by
        obtain ⟨hlambda, hnested⟩ := Bool.or_eq_false_iff.1 hscope
        simp [Site.canSchedule, hslot, hlambda, hnested]
      rw [hslot']
      refine hargs.bind fun as has => (stages_resultLocation hsite hstill attr hresult).bind ?_
      rintro ⟨location, read⟩ ⟨hlocation, hread⟩
      have hnode : W.names.All (Step.node ((Node.ofKind (.invoke attr.nodeType as location)).named
          (Text.lastSegment attr.nodeType))).mentions := by
        rw [Step.mentions, Node.mentions_named]
        simp only [Node.mentions_ofKind, NodeKind.mentions, NodeKind.binders, NodeKind.slots,
          NodeKind.body, NodeKind.children, mentionsList, map_nil, nil_append,
          flatMap_nil, append_nil, Mention.all_flatMap]
        refine forall_mem_append.2 ⟨fun e he => ?_, fun e he => ?_⟩
        · obtain ⟨a, ha, he⟩ := mem_flatMap.1 he
          exact has a ha e he
        · obtain ⟨l, hl, rfl⟩ := mem_map.1 he
          exact hlocation l (Option.mem_toList.1 hl)
      refine (Stages.modifySteps hstill fun _ hl => hl.push hnode trivial).bind fun _ _ => .pure ?_
      cases read with
      | none => simp
      | some e => exact hread e rfl

theorem stages_plainCall (o : Origin) (discard : Bool)
    (hcallee : W.names.All callee.mentions) (hp : W.names.Plain p) :
    W.Stages still (plainCall o discard callee p) (plainCall o discard callee p)
      fun e => W.names.All e.mentions := by
  unfold plainCall
  split
  · exact .pure (by simp [hcallee, hp.args])
  · split
    · exact .pure (by simp [hcallee, hp.args, hp.before, hp.after])
    · refine (Stages.holder (by simp)).bind fun x hx => .pure ?_
      simp [localVar, hcallee, hp.args, hp.before, hp.after, all_ident hx,
        (W.names.temp x hx).1]

theorem stages_copiedStore (hsite : W.At site) (d : Direction) (hst : st ∈ c.activity.stores)
    (hrest : W.Stages still rest rest' W.names.Plain) : W.Stages still (copiedStore site d st rest)
      (copiedStore (site.within W.other) d st rest') W.names.Plain := by
  have hhandle := W.names.handle st hst
  have htype : Lower.storeType (site.within W.other).context st = Lower.storeType c st :=
    storeType_eq hst
  unfold copiedStore
  rw [htype, hsite.context]
  refine (Stages.holder (by simp)).bind fun x hx => ?_
  refine (Stages.ofLower (Q := fun _ => True) (reports_storeType hst) fun _ => trivial).bind
    fun ty _ => hrest.bind fun p hp => .pure ?_
  constructor
  · simp [all_ident hx, hp.args]
  · split <;> simp [localVar, (W.names.temp x hx).1, hhandle, hp.before]
  · simp [hhandle, all_ident hx, hp.after]

theorem stages_operatorSkip (hstill : ¬ still) (h : W.Knows es ms) (op : BinaryOp) {lhs : Expr}
    (hlhs : lhs ∈ es) {left : Expr} {result : String} (ty : TypeName)
    (hleft : W.names.All left.mentions) (hresult : Lower.IsHolder result) :
    W.Stages still (operatorSkip c op lhs left result ty)
      (operatorSkip W.other op lhs left result ty) fun _ => True := by
  unfold operatorSkip
  rw [h.type lhs hlhs]
  split
  · exact .pushSkip hstill (by simp [Step.mentions, all_setVar hresult hleft, all_getVar hresult])
  · exact .pushSkip hstill (by simp [Step.mentions, all_setVar hresult hleft, all_getVar hresult])
  · refine (Stages.holder (by simp)).bind fun x hx => .pushSkip hstill ?_
    have hcast : W.names.All (setVar result (.cast {} ty (.ident x))).mentions :=
      all_setVar hresult (by simp [all_ident hx])
    simp [Step.mentions, localVar, hleft, (W.names.temp x hx).1, all_ident hx, hcast]

theorem stages_shortCircuit (hstill : ¬ still) (h : W.Knows es ms) (op : BinaryOp)
    (he : e ∈ es) (hlhs : lhs ∈ es)
    (hleft : W.Stages still left left' fun e => W.names.All e.mentions)
    (hright : W.Stages still right right' fun e => W.names.All e.mentions) :
    W.Stages still (shortCircuit c e op lhs left right)
      (shortCircuit W.other e op lhs left' right') fun e => W.names.All e.mentions := by
  unfold shortCircuit
  rw [h.type e he]
  refine hleft.bind fun l hl => (Stages.ensureIndex hstill).bind fun _ _ => ?_
  refine (Stages.temp hstill _).bind fun x hx =>
    (stages_operatorSkip hstill h op hlhs _ hl hx).bind fun skip _ => ?_
  refine hright.bind fun r hr => (Stages.pushPlain hstill (all_setVar hx hr)).bind fun _ _ => ?_
  exact (Stages.skipToHere hstill _).bind fun _ _ => .pure (all_getVar hx)

theorem stages_choice (hstill : ¬ still) (ty : TypeName)
    (hc : W.Stages still condition condition' fun e => W.names.All e.mentions)
    (hyes : W.Stages still yes yes' fun e => W.names.All e.mentions)
    (hno : W.Stages still no no' fun e => W.names.All e.mentions) :
    W.Stages still (choice ty condition yes no) (choice ty condition' yes' no')
      fun e => W.names.All e.mentions := by
  refine hc.bind fun t ht => (Stages.ensureIndex hstill).bind fun _ _ => ?_
  refine (Stages.temp hstill _).bind fun x hx => ?_
  refine (Stages.pushSkip hstill (by simp [Step.mentions, ht])).bind fun toElse _ => ?_
  refine hyes.bind fun y hy => ?_
  refine (Stages.pushSkip hstill (by simp [Step.mentions, all_setVar hx hy])).bind fun toEnd _ => ?_
  refine (Stages.modifySteps hstill fun _ hl => hl.patchSkip _ _).bind fun _ _ => ?_
  refine hno.bind fun n hn => (Stages.pushPlain hstill (all_setVar hx hn)).bind fun _ _ => ?_
  exact (Stages.skipToHere hstill _).bind fun _ _ => .pure (all_getVar hx)

end Parts

/-! ### Expressions -/

section Walk

open Vocabulary

theorem Covers.inside (h : W.Covers site (e :: es) ms (n + 1)) : W.Covers site.deeper es ms n :=
  ⟨h.toAt.deeper, h.toKnows.tail, h.reaches.inside (Nat.lt_succ_self n)⟩

theorem Covers.flat (h : W.Covers site (e :: es) ms (n + 1)) : W.Covers site es ms n :=
  ⟨h.toAt, h.toKnows.tail, h.reaches.mono (Nat.le_succ n)⟩

theorem Covers.deeper (h : W.Covers site e.nodes e.mentions e.height) :
    W.Covers site.deeper e.nodes e.mentions 0 :=
  ⟨h.toAt.deeper, h.toKnows, h.reaches.inside e.height_pos⟩

theorem Covers.descend (h : W.Covers site e.nodes e.mentions e.height) {still : Prop} {β : Type}
    {f g : Site → Stage β} {R : β → Prop}
    (hf : W.Stages still (f site.deeper) (g (site.deeper.within W.other)) R) :
    W.Stages still (descend site e >>= f) (descend (site.within W.other) e >>= g) R :=
  .descend h.toAt (h.placed e e.mem_nodes_self) h.reaches e.height_pos hf

/-- Inside a nested scope nothing is scheduled, whether or not it may be around it. -/
theorem Stages.nested {α : Type} {x y : Stage α} {Q : α → Prop}
    (h : W.Stages (site.nest.canSchedule = false) x y Q) :
    W.Stages (site.canSchedule = false) x y Q :=
  h.mono (fun _ ha => ha) fun _ => Site.canSchedule_nest site

mutual
theorem stages_expr {site : Site} : (e : Expr) → W.Covers site e.nodes e.mentions e.height →
    W.Stages (site.canSchedule = false) (expr site e) (expr (site.within W.other) e)
      fun e' => W.names.All e'.mentions
  | .literal o v => fun h => by
    rw [expr, expr]
    exact h.descend (.pure h.named)
  | .name o n => fun h => by
    have hself := Expr.mem_nodes_self (.name o n)
    rw [expr, expr]
    refine h.descend ?_
    dsimp only
    rw [h.deeper.storeFor? hself]
    split
    · next st hst =>
      rw [h.deeper.context] at hst
      refine (stages_checkLambda h.toAt.deeper (h.placed _ hself) _).bind fun _ _ => .pure ?_
      rw [Expr.mentions_withSpan]
      exact all_storeGet.2 (W.names.handle st (storeFor?_mem hst))
    · exact (stages_noteLocal h.toAt.deeper (h.placed _ hself) _).bind fun _ _ => .pure h.named
  | .member o target n => fun h => by
    rw [expr, expr]
    exact h.descend ((stages_expr target h.inside).bind fun t ht => .pure ht)
  | .call o callee args => fun h => by
    have hself := Expr.mem_nodes_self (.call o callee args)
    have hat := h.toAt.deeper
    rw [expr, expr]
    refine h.descend ?_
    cases hattr : site.deeper.context.semantics.scheduling? o.id <;>
      simp only [isScheduled, scheduledCall, h.deeper.scheduling? hself, hattr, isSome_some,
        isSome_none, reduceCtorEq, if_true, if_false]
    case some attr =>
      exact (stages_schedule hat (h.placed _ hself) _ (by rintro _ ⟨⟩)
        (stages_scheduledArgs _ _ (hat.spanOf (h.placed _ hself)) 0 args h.inside.right)).bind
          fun r hr => .pure hr
    case none =>
      exact (stages_expr callee h.inside.left).bind fun f hf =>
        (stages_plainArgs args h.inside.right).bind fun p hp => stages_plainCall _ _ hf hp
  | .create o ty args => fun h => by
    rw [expr, expr]
    exact h.descend ((stages_valueArgs args h.inside).bind fun as has => .pure has)
  | .unary o op operand => fun h => by
    have hmem : operand ∈ (Expr.unary o op operand).nodes := by
      simp [Expr.nodes, Expr.mem_nodes_self]
    rw [expr, expr]
    refine h.descend ?_
    dsimp only
    rw [h.deeper.storeFor? hmem]
    split
    · next step st _ hst =>
      rw [h.deeper.context] at hst
      exact (stages_checkLambda h.toAt.deeper (h.placed _ hmem) _).bind fun _ _ =>
        .pure (all_storeStep _ _ (W.names.handle st (storeFor?_mem hst)))
    · exact (stages_expr operand h.inside).bind fun e he => .pure he
  | .binary o op l r => fun h => by
    have hl : l ∈ (Expr.binary o op l r).nodes := by simp [Expr.nodes, Expr.mem_nodes_self]
    have hleft := stages_expr l h.inside.left
    have hright := stages_expr r h.inside.right
    rw [expr, expr]
    refine h.descend ?_
    dsimp only
    rw [h.deeper.schedules (by simp +contextual [Expr.nodes])]
    change W.Stages _ _ (if op.isShortCircuit && site.deeper.canSchedule && _ then _ else _) _
    split
    · next hcan =>
      have hstill : ¬ site.canSchedule = false := by
        rw [Bool.and_eq_true, Bool.and_eq_true] at hcan
        simpa using hcan.1.2
      rw [h.deeper.context]
      exact stages_shortCircuit hstill h.toKnows op (Expr.mem_nodes_self _) hl hleft hright
    · exact hleft.bind fun a ha => hright.bind fun b hb => .pure (Mention.all_append.2 ⟨ha, hb⟩)
  | .conditional o t y n => fun h => by
    have htype : choiceType (site.deeper.within W.other).context (.conditional o t y n) y n =
        choiceType site.deeper.context (.conditional o t y n) y n := by
      have htype : ∀ e ∈ (Expr.conditional o t y n).nodes,
          (site.deeper.within W.other).context.exprType? e = site.deeper.context.exprType? e :=
        fun e he => (h.type e he).trans (by rw [h.deeper.context])
      rw [choiceType, choiceType, htype _ (Expr.mem_nodes_self _),
        htype y (by simp [Expr.nodes, Expr.mem_nodes_self]),
        htype n (by simp [Expr.nodes, Expr.mem_nodes_self])]
    have htest := stages_expr t h.inside.left
    have hyes := stages_expr y h.inside.right.left
    have hno := stages_expr n h.inside.right.right
    rw [expr, expr]
    refine h.descend ?_
    dsimp only
    rw [h.deeper.schedules (e := y) (by simp +contextual [Expr.nodes]),
      h.deeper.schedules (e := n) (by simp +contextual [Expr.nodes]), htype]
    change W.Stages _ _ (if site.deeper.canSchedule && _ then _ else _) _
    split
    · next hcan =>
      have hstill : ¬ site.canSchedule = false := by
        rw [Bool.and_eq_true] at hcan
        simpa using hcan.1
      exact stages_choice hstill _ htest hyes hno
    · exact htest.bind fun a ha => hyes.bind fun b hb => hno.bind fun d hd =>
        .pure (Mention.all_append.2 ⟨ha, Mention.all_append.2 ⟨hb, hd⟩⟩)
  | .assign o op target value => fun h => by
    have hmem : target ∈ (Expr.assign o op target value).nodes := by
      simp [Expr.nodes, Expr.mem_nodes_self]
    have hvalue := stages_expr value h.inside.right
    rw [expr, expr]
    refine h.descend ?_
    dsimp only
    rw [h.deeper.storeFor? hmem]
    split
    · next st hst =>
      rw [h.deeper.context] at hst
      exact (stages_checkLambda h.toAt.deeper (h.placed _ hmem) _).bind fun _ _ => hvalue.bind
        fun e he => .pure (all_storeAssign _ _ (W.names.handle st (storeFor?_mem hst)) he)
    · exact (stages_expr target h.inside.left).bind fun a ha => hvalue.bind fun b hb =>
        .pure (Mention.all_append.2 ⟨ha, hb⟩)
  | .lambda o params body => fun h => by
    obtain ⟨hparams, hbody⟩ := Mention.all_append.1 h.named
    have hinside : W.Covers (site.deeper.enterLambda params) body.nodes body.mentions body.height :=
      ⟨⟨h.context, h.span⟩, { h.toKnows.tail with named := hbody }, h.reaches.inside (by
        rw [Expr.height]
        omega)⟩
    have hbody := (stages_expr body hinside).mono (fun _ he => he)
      fun (_ : site.canSchedule = false) => Site.canSchedule_enterLambda _ _
    rw [expr, expr]
    exact h.descend (hbody.bind fun e he => .pure (Mention.all_append.2 ⟨hparams, he⟩))
  | .cast o ty operand => fun h => by
    rw [expr, expr]
    exact h.descend ((stages_expr operand h.inside).bind fun e he => .pure he)
  | .index o target i => fun h => by
    rw [expr, expr]
    exact h.descend ((stages_expr target h.inside.left).bind fun a ha =>
      (stages_expr i h.inside.right).bind fun b hb => .pure (Mention.all_append.2 ⟨ha, hb⟩))
  | .block o body value => fun h => by
    have hafter := stages_optionalExpr value (h.inside.nest.right.afterAll body)
    rw [← Site.afterAll_within, Site.canSchedule_afterAll] at hafter
    rw [expr, expr]
    exact h.descend ((stages_nestedBody body h.inside.nest.left).nested.bind fun b hb =>
      Stages.nested (hafter.bind fun v hv => .pure (Mention.all_append.2 ⟨hb, hv⟩)))

theorem stages_optionalExpr {site : Site} : (e : Option Expr) →
    W.Covers site (Expr.nodesOpt e) (Expr.mentionsOpt e) (Expr.heightOpt e) →
    W.Stages (site.canSchedule = false) (optionalExpr site e)
      (optionalExpr (site.within W.other) e) fun e' => W.names.All (Expr.mentionsOpt e')
  | none => fun h => by
    rw [optionalExpr, optionalExpr]
    exact .pure h.named
  | some e => fun h => by
    rw [optionalExpr, optionalExpr]
    exact (stages_expr e h).map fun _ he => he

theorem stages_valueArgs {site : Site} : (args : List Argument) →
    W.Covers site (Argument.nodesList args) (Argument.mentionsList args)
      (Argument.heightList args) → W.Stages (site.canSchedule = false) (valueArgs site args)
      (valueArgs (site.within W.other) args)
      fun as => W.names.All (Argument.mentionsList as)
  | [] => fun h => by
    rw [valueArgs, valueArgs]
    exact .pure h.named
  | .mk d e :: rest => fun h => by
    rw [valueArgs, valueArgs]
    exact (stages_expr e h.left).bind fun v hv => (stages_valueArgs rest h.right).bind
      fun as has => .pure (Mention.all_append.2 ⟨hv, has⟩)

theorem stages_scheduledArgs {site : Site} (attr : SchedulingAttribute) (span : Span)
    (hspan : W.place span) : (i : Nat) → (args : List Argument) →
    W.Covers site (Argument.nodesList args) (Argument.mentionsList args)
      (Argument.heightList args) →
    W.Stages (site.canSchedule = false) (scheduledArgs site attr span i args)
      (scheduledArgs (site.within W.other) attr span i args)
      fun as => ∀ a ∈ as, W.names.AllSlots a.value.slots
  | _, [] => fun _ => by
    rw [scheduledArgs, scheduledArgs]
    exact .pure fun _ ha => by cases ha
  | i, .mk d e :: rest => fun h => by
    have hothers := stages_scheduledArgs attr span hspan (i + 1) rest h.right
    rw [scheduledArgs, scheduledArgs]
    refine (stages_checkDirection _ _ _ hspan).bind fun _ _ => ?_
    cases d with
    | input =>
      refine (stages_expr e h.left).bind fun v hv => hothers.bind fun as has =>
        .pure (forall_mem_cons.2 ⟨?_, has⟩)
      simpa [AllSlots, ArgumentValue.slots] using hv
    | output | byRef =>
      exact (stages_argumentLocation h.toAt h.left.toKnows _ _ _ e.mem_nodes_self hspan).bind
        fun v hv => hothers.bind fun as has => .pure (forall_mem_cons.2 ⟨hv, has⟩)

theorem stages_plainArgs {site : Site} : (args : List Argument) →
    W.Covers site (Argument.nodesList args) (Argument.mentionsList args)
      (Argument.heightList args) → W.Stages (site.canSchedule = false) (plainArgs site args)
      (plainArgs (site.within W.other) args) W.names.Plain
  | [] => fun _ => by
    rw [plainArgs, plainArgs]
    exact .pure ⟨by simp, by simp, by simp⟩
  | .mk d e :: rest => fun h => by
    have hothers := stages_plainArgs rest h.right
    have hstore : (site.within W.other).context.namedStore? e = c.namedStore? e :=
      h.left.toKnows.namedStore? e.mem_nodes_self
    rw [plainArgs, plainArgs, hstore, h.context]
    split
    · next st hst =>
      have hmem : st ∈ c.activity.stores := by
        split at hst
        · cases hst
        · exact namedStore?_mem hst
      exact (stages_checkLambda h.toAt (h.left.placed e e.mem_nodes_self) _).bind fun _ _ =>
        stages_copiedStore h.toAt _ hmem hothers
    · exact (stages_expr e h.left).bind fun v hv => hothers.bind fun p hp =>
        .pure ⟨Mention.all_append.2 ⟨hv, hp.args⟩, hp.before, hp.after⟩

theorem stages_nestedStmt {site : Site} : (stmt : CodeStmt) →
    W.Covers site stmt.nodes stmt.mentions stmt.height →
    W.Stages (site.canSchedule = false) (nestedStmt site stmt)
      (nestedStmt (site.within W.other) stmt) fun s => W.names.All s.mentions
  | .eval (.call o callee args) => fun h => by
    have hself := Expr.mem_nodes_self (.call o callee args)
    rw [nestedStmt, nestedStmt]
    cases hattr : site.context.semantics.scheduling? o.id <;>
      simp only [isScheduled, scheduledCall, h.scheduling? hself, hattr, isSome_some,
        isSome_none, reduceCtorEq, if_true, if_false]
    case some attr =>
      exact (stages_schedule h.toAt (h.placed _ hself) _ (by rintro _ ⟨⟩)
        (stages_scheduledArgs _ _ (h.toAt.spanOf (h.placed _ hself)) 0 args h.flat.right)).bind
          fun r hr => .pure hr
    case none =>
      exact (stages_expr callee h.flat.left).bind fun f hf =>
        (stages_plainArgs args h.flat.right).bind fun p hp =>
          (stages_plainCall _ _ hf hp).bind fun v hv => .pure hv
  | .eval (.literal ..) | .eval (.name ..) | .eval (.member ..) | .eval (.create ..)
  | .eval (.unary ..) | .eval (.binary ..) | .eval (.conditional ..) | .eval (.assign ..)
  | .eval (.lambda ..) | .eval (.cast ..) | .eval (.index ..) | .eval (.block ..) => fun h => by
    simp only [nestedStmt]
    exact (stages_expr _ h).bind fun v hv => .pure hv
  | .declare name ty init span => fun h => by
    obtain ⟨hname, hinit⟩ := Mention.all_cons.1 h.named
    rw [nestedStmt, nestedStmt]
    exact (stages_optionalExpr init { h with named := hinit }).bind fun v hv =>
      .pure (Mention.all_cons.2 ⟨hname, hv⟩)
  | .block body => fun h => by
    rw [nestedStmt, nestedStmt]
    exact (stages_nestedBody body h).bind fun b hb => .pure hb
  | .branch t y n => fun h => by
    rw [nestedStmt, nestedStmt]
    exact (stages_expr t h.left).bind fun a ha =>
      (stages_nestedStmt y h.right.left.nest).nested.bind fun b hb =>
        (stages_nestedElse n h.right.right.nest).nested.bind fun d hd =>
          .pure (Mention.all_append.2 ⟨ha, Mention.all_append.2 ⟨hb, hd⟩⟩)
  | .loop t body => fun h => by
    rw [nestedStmt, nestedStmt]
    exact (stages_expr t h.left).bind fun a ha =>
      (stages_nestedStmt body h.right.nest).nested.bind fun b hb =>
        .pure (Mention.all_append.2 ⟨ha, hb⟩)

theorem stages_nestedBody {site : Site} : (body : List CodeStmt) →
    W.Covers site (nodesList body) (mentionsList body) (heightList body) →
    W.Stages (site.canSchedule = false) (nestedBody site body)
      (nestedBody (site.within W.other) body) fun b => W.names.All (mentionsList b)
  | [] => fun h => by
    rw [nestedBody, nestedBody]
    exact .pure h.named
  | stmt :: rest => fun h => by
    have hothers := stages_nestedBody rest (h.right.afterAll [stmt])
    change W.Stages ((site.after stmt).canSchedule = false) _ _ _ at hothers
    rw [Site.canSchedule_after] at hothers
    rw [nestedBody, nestedBody, Site.after_within]
    exact (stages_nestedStmt stmt h.left).bind fun a ha =>
      hothers.bind fun b hb => .pure (Mention.all_append.2 ⟨ha, hb⟩)

theorem stages_nestedElse {site : Site} : (n : Option CodeStmt) →
    W.Covers site (nodesOpt n) (mentionsOpt n) (heightOpt n) →
    W.Stages (site.canSchedule = false) (nestedElse site n)
      (nestedElse (site.within W.other) n) fun s => W.names.All (mentionsOpt s)
  | none => fun h => by
    rw [nestedElse, nestedElse]
    exact .pure h.named
  | some stmt => fun h => by
    rw [nestedElse, nestedElse]
    exact (stages_nestedStmt stmt h).map fun _ hs => hs
end

end Walk

/-! ### Fragments -/

section Fragments

open Vocabulary

theorem stages_scheduledCall
    (h : W.Covers site (Argument.nodesList args) (Argument.mentionsList args)
      (Argument.heightList args)) (hspan : W.place o.span) (attr : SchedulingAttribute)
    (hresult : ∀ st, result = .into st → st ∈ c.activity.stores) : W.Stages False
      (schedule site o attr result (scheduledArgs site attr (site.spanOf o) 0 args))
      (schedule (site.within W.other) o attr result
        (scheduledArgs (site.within W.other) attr (site.spanOf o) 0 args)) fun _ => True :=
  (stages_schedule h.toAt hspan attr hresult
    (stages_scheduledArgs attr _ (h.toAt.spanOf hspan) 0 args h)).mono (fun _ _ => trivial)
      False.elim

theorem stages_evalStmt (h : W.Covers site e.nodes e.mentions e.height) :
    W.Stages False (evalStmt site e) (evalStmt (site.within W.other) e) fun _ => True := by
  have hplain : W.Stages False (do pushPlain (.eval (← expr site e)))
      (do pushPlain (.eval (← expr (site.within W.other) e))) fun _ => True :=
    (stages_expr e h).loosen.bind fun _ he => .pushPlain id he
  unfold evalStmt
  split
  · next o callee args =>
    have hself := Expr.mem_nodes_self (.call o callee args)
    cases hattr : site.context.semantics.scheduling? o.id <;>
      simp only [isScheduled, scheduledCall, h.scheduling? hself, hattr, isSome_some,
        isSome_none, reduceCtorEq, if_true, if_false]
    case some attr =>
      exact (stages_scheduledCall h.flat.right (h.placed _ hself) _ (by rintro _ ⟨⟩)).bind
        fun _ _ => .pure trivial
    case none =>
      exact (stages_expr callee h.flat.left).loosen.bind fun f hf =>
        (stages_plainArgs args h.flat.right).loosen.bind fun p hp =>
          (stages_plainCall _ _ hf hp).bind fun _ hv => .pushPlain id hv
  · next o target o' callee args =>
    have hself := Expr.mem_nodes_self (.call o' callee args)
    have hcall : W.Covers site (Expr.call o' callee args).nodes
        (Expr.call o' callee args).mentions (Expr.call o' callee args).height := h.flat.right
    have htarget := h.storeFor? (e := target) (by simp [Expr.nodes, Expr.mem_nodes_self])
    cases hattr : site.context.semantics.scheduling? o'.id <;>
      simp only [isScheduled, scheduledCall, hcall.scheduling? hself, hattr, isSome_some, isSome_none,
        htarget]
    case none => exact hplain
    cases hst : site.context.storeFor? target
    case none => exact hplain
    case some st =>
      rw [h.context] at hst
      refine (stages_scheduledCall hcall.flat.right (hcall.placed _ hself) _ ?_).bind
        fun _ _ => .pure trivial
      rintro _ ⟨⟩
      exact storeFor?_mem hst
  · exact hplain

theorem stages_stmt {stmt : CodeStmt} (h : W.Covers site stmt.nodes stmt.mentions stmt.height) :
    W.Stages False (Stage.stmt site stmt) (Stage.stmt (site.within W.other) stmt)
      fun _ => True := by
  have hnested : ∀ {stmt : CodeStmt}, W.Covers site stmt.nodes stmt.mentions stmt.height →
      W.Stages False (Stage.nestedStmt site.nest stmt)
        (Stage.nestedStmt (site.within W.other).nest stmt) fun s => W.names.All s.mentions :=
    fun h => (stages_nestedStmt _ h.nest).loosen
  cases stmt with
  | eval e => exact stages_evalStmt h
  | declare name ty init span =>
    obtain ⟨hname, hinit⟩ := Mention.all_cons.1 h.named
    exact (stages_optionalExpr init { h with named := hinit }).loosen.bind
      fun _ hv => (Stages.declareLocal _).bind fun _ _ =>
        .pushPlain id (Mention.all_cons.2 ⟨hname, hv⟩)
  | block body => exact (hnested h).bind fun _ hs => .pushPlain id hs
  | branch t y n =>
    exact (stages_expr t h.left).loosen.bind fun _ ha => (hnested h.right.left).bind
      fun _ hb => (stages_nestedElse n h.right.right.nest).loosen.bind
        fun _ hd => .pushPlain id (Mention.all_append.2 ⟨ha, Mention.all_append.2 ⟨hb, hd⟩⟩)
  | loop t body => exact (hnested h).bind fun _ hs => .pushPlain id hs

theorem stages_body (h : W.Covers site (nodesList stmts) (mentionsList stmts) (heightList stmts)) :
    W.Stages False (Stage.body site stmts) (Stage.body (site.within W.other) stmts)
      fun _ => True := by
  induction stmts with
  | nil => exact .pure trivial
  | cons stmt rest ih =>
    exact (stages_stmt h.left).bind fun _ _ => Stages.checkUses.bind fun _ _ => ih h.right

theorem stages_initializer {st : Store} (hst : st ∈ c.activity.stores) {value : Expr}
    (h : W.Covers site value.nodes value.mentions value.height) :
    W.Stages False (initializer site st value)
      (initializer (site.within W.other) st value) fun _ => True := by
  have hplain : W.Stages False
      (do pushPlain (.eval (.storeSet st.handle (← expr site value))))
      (do pushPlain (.eval (.storeSet st.handle (← expr (site.within W.other) value))))
      fun _ => True :=
    (stages_expr value h).loosen.bind fun _ he =>
      .pushPlain id (all_storeSet.2 ⟨W.names.handle st hst, he⟩)
  unfold initializer
  split
  · next o callee args =>
    have hself := Expr.mem_nodes_self (.call o callee args)
    cases hattr : site.context.semantics.scheduling? o.id <;>
      simp only [isScheduled, scheduledCall, h.scheduling? hself, hattr, isSome_some,
        isSome_none, reduceCtorEq, if_true, if_false]
    case none => exact hplain
    case some attr =>
      refine (stages_scheduledCall h.flat.right (h.placed _ hself) _ ?_).bind fun _ _ =>
        .pure trivial
      rintro _ ⟨⟩
      exact hst
  · exact hplain

/-- The first value of a store is staged as such; all other code is staged as it stands. -/
theorem stages_code {body : List CodeStmt} {initializes : Option StoreId}
    (h : W.Covers site (StmtKind.shownCode initializes body) (mentionsList body) (heightList body))
    (hstore : ∀ k ∈ (Emit.assignedValue body).bind fun _ => initializes,
      k < c.activity.stores.size) :
    W.Stages False (code site body (initializes.bind fun k => c.activity.stores[k]?))
      (code (site.within W.other) body (initializes.bind fun k => c.activity.stores[k]?))
      fun _ => True := by
  unfold StmtKind.shownCode at h
  split at h
  · next k o op target value =>
    have hlt : k < c.activity.stores.size := hstore k (by simp [Emit.assignedValue])
    have hget : (some k).bind (fun k => c.activity.stores[k]?) =
        some c.activity.stores[k] := by simp [hlt]
    have hnamed := (Mention.all_append.1 (Mention.all_append.1 h.named).1).2
    rw [hget]
    refine stages_initializer (Array.getElem_mem hlt)
      ⟨h.toAt, { h.toKnows with named := hnamed }, h.reaches.mono ?_⟩
    simp only [heightList, height, Expr.height]
    omega
  · next hother =>
    have hbody : ∀ (site : Site) (st : Option Store),
        (st.isSome = true → initializes.isSome = true) →
        Stage.code site body st = Stage.body site body := by
      intro site st hsome
      unfold Stage.code
      split
      · next o op target value =>
        obtain ⟨k, hk⟩ := Option.isSome_iff_exists.1 (hsome rfl)
        exact absurd rfl (hother k o op target value hk)
      · rfl
    have hsome : (initializes.bind fun k => c.activity.stores[k]?).isSome = true →
        initializes.isSome = true := by
      cases initializes <;> simp
    rw [hbody _ _ hsome, hbody _ _ hsome]
    exact stages_body h

theorem stages_value (h : W.Covers site e.nodes e.mentions e.height) :
    W.Stages False (value site e) (value (site.within W.other) e)
      fun e' => W.names.All e'.mentions :=
  (stages_expr e h).loosen.bind fun _ he =>
    (Stages.modifySteps id fun _ hl => hl.flush).bind fun _ _ => .pure he

end Fragments

end LowerContext.View

end Workflow
