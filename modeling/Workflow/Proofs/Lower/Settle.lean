import Workflow.Proofs.Arena.Fragments
import Workflow.Proofs.Graph.Weight
import Workflow.Proofs.Lower.Nesting
import Workflow.Proofs.Lower.Places

/-!
# What staging settles

A staged expression names no store and schedules nothing any more, and the lambdas in it are as they
were written. The calls that are scheduled in the source are those of the added steps, as long as
nothing that schedules a call is dropped: the callees of scheduled calls, and expressions that stand
for stores.

An account counts both at once. It gives nothing to expressions that are settled. A strict one also
asks that no store is read where a place is needed.
-/

namespace Workflow

open Stage CodeStmt LowerContext Step

variable {attr : SchedulingAttribute} {d : Direction}

/-- Nothing is left to be lowered in an expression itself; `kept` are the lambdas that may stay. -/
def LowerContext.Settled (c : LowerContext) (kept : Expr → Prop) : Expr → Prop
  | .name o n => c.storeFor? (.name o n) = none
  | .call o _ _ => c.semantics.scheduling? o.id = none
  | .lambda o params body => kept (.lambda o params body)
  | _ => True

/-- All stores are accessed by names that the compiler makes. -/
def LowerContext.PlainHandles (c : LowerContext) : Prop :=
  ∀ st ∈ c.activity.stores, ∃ x, st.handle = .ident x

/-- What is given to unsettled expressions, to scheduled node types, and to nodes with other
arguments than their calls. -/
structure Account (β : Type) where
  context : LowerContext
  kept : Expr → Prop
  strict : Prop
  unsettled : Expr → Multiset β
  invoke : String → Multiset β
  unbound : String → List NodeArgument → Option Location → Multiset β
  settled : ∀ e, context.Settled kept e → (strict → e.KeepsPlaces) → unsettled e = 0

namespace Account

variable {β : Type} (k : Account β)

def Clears (e : Expr) : Prop := k.context.Settled k.kept e ∧ (k.strict → e.KeepsPlaces)

def AllSettled (es : List Expr) : Prop := ∀ e ∈ es, k.Clears e

def sent : Expr → Multiset β
  | .call o _ _ =>
    match k.context.semantics.scheduling? o.id with
    | some attr => k.invoke attr.nodeType
    | none => 0
  | _ => 0

def calls (es : List Expr) : Multiset β := (es.map k.sent).sum

/-- Lowering an expression may keep its lambdas and drops no scheduled call with it. -/
structure Fair (e : Expr) : Prop where
  kept : ∀ o params body, e = .lambda o params body → k.kept e
  store : (k.context.storeFor? e).isSome = true → k.calls e.nodes = 0
  callee : ∀ o f args, e = .call o f args → (k.context.semantics.scheduling? o.id).isSome = true →
    k.calls f.nodes = 0
  bound : ∀ o f args attr as l, e = .call o f args →
    k.context.semantics.scheduling? o.id = some attr → k.context.Invokes attr args as l →
    k.unbound attr.nodeType as l = 0
  places : k.strict → k.context.AssignsPlaces e

def AllFair (es : List Expr) : Prop := ∀ e ∈ es, k.Fair e

/-- Expressions and code weigh what is not settled in them. -/
def weighing : Weighing β where
  expr e := (e.nodes.map k.unsettled).sum
  body b := ((nodesList b).map k.unsettled).sum
  invoke nodeType arguments result := k.invoke nodeType + k.unbound nodeType arguments result
  skip before condition onSkip := ((nodesList before ++ (Expr.nodesOpt condition ++
    nodesList onSkip)).map k.unsettled).sum

section Lists

variable {k} {e : Expr} {es fs : List Expr}

@[simp]
theorem allSettled_nil : k.AllSettled [] := by simp [AllSettled]

@[simp]
theorem allSettled_cons : k.AllSettled (e :: es) ↔ k.Clears e ∧ k.AllSettled es := by
  simp [AllSettled]

@[simp]
theorem allSettled_append : k.AllSettled (es ++ fs) ↔ k.AllSettled es ∧ k.AllSettled fs := by
  simp [AllSettled, or_imp, forall_and]

theorem AllSettled.sum_eq (h : k.AllSettled es) : (es.map k.unsettled).sum = 0 := by
  refine List.sum_eq_zero fun x hx => ?_
  obtain ⟨e, he, rfl⟩ := List.mem_map.1 hx
  exact k.settled e (h e he).1 (h e he).2

@[simp]
theorem calls_nil : k.calls [] = 0 := rfl

@[simp]
theorem calls_cons : k.calls (e :: es) = k.sent e + k.calls es := by
  simp [calls]

@[simp]
theorem calls_append : k.calls (es ++ fs) = k.calls es + k.calls fs := by
  simp [calls]

theorem calls_eq_zero (h : ∀ nodeType, k.invoke nodeType = 0) (es : List Expr) : k.calls es = 0 := by
  refine List.sum_eq_zero fun x hx => ?_
  obtain ⟨e, -, rfl⟩ := List.mem_map.1 hx
  unfold sent
  split
  · split
    · exact h _
    · rfl
  · rfl

@[simp]
theorem allFair_nil : k.AllFair [] := by simp [AllFair]

@[simp]
theorem allFair_cons : k.AllFair (e :: es) ↔ k.Fair e ∧ k.AllFair es := by
  simp [AllFair]

@[simp]
theorem allFair_append : k.AllFair (es ++ fs) ↔ k.AllFair es ∧ k.AllFair fs := by
  simp [AllFair, or_imp, forall_and]

theorem sent_call (h : k.context.semantics.scheduling? o.id = some attr) :
    k.sent (.call o f args) = k.invoke attr.nodeType := by
  rw [sent, h]

theorem sent_plain
    (h : k.context.semantics.scheduling? o.id = none) : k.sent (.call o f args) = 0 := by
  rw [sent, h]

end Lists

attribute [local simp] Expr.nodes Argument.nodesList nodes nodesList
  Expr.nodesOpt nodesOpt Clears Settled Expr.KeepsPlaces
  nodesList_append

section Produced

variable (x : String) (handle e : Expr) (span : Span)

theorem settled_name (ho : o.id = none) : k.Clears (.name o x) := by
  refine ⟨?_, fun _ => trivial⟩
  rw [Settled, storeFor?, Expr.id, Expr.origin, ho]
  rfl

@[simp]
theorem settled_ident : k.AllSettled (Expr.ident x).nodes := by
  rw [Expr.ident, Expr.nodes, allSettled_cons]
  exact ⟨settled_name k x rfl, allSettled_nil⟩

@[simp]
theorem settled_storeGet :
    k.AllSettled (Expr.storeGet handle).nodes ↔ k.AllSettled handle.nodes := by
  have hcontext := settled_ident k Expr.contextName
  simp [Expr.storeGet, Expr.methodCall, Argument.plain, hcontext]
  exact fun _ => rfl

@[simp]
theorem settled_storeSet : k.AllSettled (Expr.storeSet handle e).nodes ↔
      k.AllSettled handle.nodes ∧ k.AllSettled e.nodes := by
  have hcontext := settled_ident k Expr.contextName
  simp [Expr.storeSet, Expr.methodCall, Argument.plain, hcontext]
  exact fun _ _ => rfl

theorem settled_withSpan_storeGet :
    k.AllSettled ((Expr.storeGet handle).withSpan span).nodes ↔ k.AllSettled handle.nodes := by
  have hcontext := settled_ident k Expr.contextName
  simp [Expr.withSpan, Expr.withOrigin, Expr.storeGet, Expr.methodCall, Argument.plain, hcontext]
  exact fun _ => rfl

theorem settled_withSpan_storeSet : k.AllSettled ((Expr.storeSet handle e).withSpan span).nodes ↔
      k.AllSettled handle.nodes ∧ k.AllSettled e.nodes := by
  have hcontext := settled_ident k Expr.contextName
  simp [Expr.withSpan, Expr.withOrigin, Expr.storeSet, Expr.methodCall, Argument.plain, hcontext]
  exact fun _ _ => rfl

@[simp]
theorem settled_apply (op : BinaryOp) (a b : Expr) :
    k.AllSettled (Expr.apply op a b).nodes ↔ k.AllSettled a.nodes ∧ k.AllSettled b.nodes := by
  simp [Expr.apply]

@[simp]
theorem settled_int (n : Int) : k.AllSettled (Expr.int n).nodes := by
  simp [Expr.int]

@[simp]
theorem settled_null : k.AllSettled Expr.null.nodes := by
  simp [Expr.null]

@[simp]
theorem settled_not : k.AllSettled e.not.nodes ↔ k.AllSettled e.nodes := by
  simp [Expr.not, UnaryOp.isStep, UnaryOp.stepOp]

theorem lawful : k.weighing.Lawful where
  read x := AllSettled.sum_eq (by simp)
  int n := AllSettled.sum_eq (by simp)
  position x i := AllSettled.sum_eq (by simp [StepList.atPosition, StepList.readIndex])
  write x e he := by
    have hcall : k.unsettled (.call {} (.member {} (.ident x) "Set")
        [.mk .input (.ident Expr.contextName), .mk .input e]) = 0 :=
      k.settled _ rfl fun _ => by simp
    have hmember : k.unsettled (.member {} (.ident x) "Set") = 0 :=
      k.settled _ trivial fun _ => trivial
    have hident : ∀ y, ((Expr.ident y).nodes.map k.unsettled).sum = 0 := fun y =>
      (settled_ident k y).sum_eq
    have he : (e.nodes.map k.unsettled).sum = 0 := he
    simp [weighing, Expr.storeSet, Expr.methodCall, Argument.plain, hcall, hmember, hident, he]
  advance x d := AllSettled.sum_eq (by simp [StepList.advance, StepList.readIndex])
  guarded x i body := by
    have hposition : k.AllSettled (StepList.atPosition x i).nodes := by
      simp [StepList.atPosition, StepList.readIndex]
    have hadvance : k.AllSettled (StepList.advance x 1).nodes := by
      simp [StepList.advance, StepList.readIndex]
    simp [weighing, hposition.sum_eq, hadvance.sum_eq]
  skipped x i before condition onSkip d := by
    have hposition : k.AllSettled (StepList.atPosition x i).nodes := by
      simp [StepList.atPosition, StepList.readIndex]
    have hadvance : ∀ d, k.AllSettled (StepList.advance x d).nodes := by
      simp [StepList.advance, StepList.readIndex]
    cases condition <;>
      simp [weighing, StepList.skipCode, hposition.sum_eq, (hadvance _).sum_eq]

end Produced

section Walk

variable {k} {e : Expr} {args : List Argument} {a b : List Step} {p q : Multiset β}

variable (k) in
/-- Steps of some weight, with nested skips. -/
def Adds (a : List Step) (q : Multiset β) : Prop :=
  weights k.weighing a = q ∧ StepList.Nested (a.map over?)

@[simp]
theorem adds_nil : k.Adds [] q ↔ q = 0 := by
  simp [Adds, StepList.Nested.nil, eq_comm]

theorem Adds.append (h : k.Adds a p) (h' : k.Adds b q) : k.Adds (a ++ b) (p + q) :=
  ⟨by rw [weights_append, h.1, h'.1], by simpa using h.2.append h'.2⟩

theorem Adds.both {L A B : Prop}
    (h : k.Adds a p ∧ k.AllSettled es ∧ (L → A)) (h' : k.Adds b q ∧ k.AllSettled fs ∧ (L → B)) :
    k.Adds (a ++ b) (p + q) ∧ k.AllSettled (es ++ fs) ∧ (L → A ∧ B) :=
  ⟨h.1.append h'.1, allSettled_append.2 ⟨h.2.1, h'.2.1⟩, fun hl => ⟨h.2.2 hl, h'.2.2 hl⟩⟩

variable (k) in
/-- A piece that is staged adds the calls in it and is settled. In a lambda it stays as it is. -/
def Settles (site : Site) (p : Piece) (a : List Step) : Prop :=
  k.AllFair p.source → site.context = k.context →
    k.Adds a (k.calls p.source) ∧ k.AllSettled p.produced ∧ (site.inLambda = true → p.Same)

theorem settled_handle (hh : k.context.PlainHandles)
    (hs : store ∈ k.context.activity.stores) : k.AllSettled store.handle.nodes := by
  obtain ⟨x, hx⟩ := hh store hs
  rw [hx]
  exact settled_ident k x

/-- The steps of an operator that may be skipped weigh what those of its right side do. -/
theorem weights_operatorSteps (op : BinaryOp) (hl : k.AllSettled l.nodes)
    (hr : k.AllSettled r.nodes) (result held : String) (ty heldType : TypeName) (b : List Step) :
    weights k.weighing (operatorSteps op l result held ty heldType b r) = weights k.weighing b := by
  have hskip : ∀ d, (operatorStep op l result held ty heldType d).weight k.weighing = 0 := by
    intro d
    refine AllSettled.sum_eq ?_
    unfold skipParts
    split <;> simp [setVar, getVar, localVar, hl]
  have hwrite : (Node.code [setVar result r]).weight k.weighing = 0 := by
    rw [Node.weight_code]
    exact AllSettled.sum_eq (by simp [setVar, hr])
  have hstep : ∀ n : Node, (node n).weight k.weighing = n.weight k.weighing := fun _ => rfl
  simp [operatorSteps, hskip, hstep, hwrite]

theorem weights_choiceSteps (ht : k.AllSettled test.nodes)
    (hf : k.AllSettled first.nodes) (hs : k.AllSettled second.nodes) (result : String)
    (b d : List Step) : weights k.weighing (choiceSteps test result b first d second) =
      weights k.weighing b + weights k.weighing d := by
  have htest : ∀ d, (skip [] (some test.not) [] d).weight k.weighing = 0 := fun _ =>
    AllSettled.sum_eq (by simp [ht])
  have hfirst : ∀ d, (skip [setVar result first] none [] d).weight k.weighing = 0 :=
    fun _ => AllSettled.sum_eq (by simp [setVar, hf])
  have hwrite : (node (Node.code [setVar result second])).weight k.weighing = 0 := by
    rw [weight, Node.weight_code]
    exact AllSettled.sum_eq (by simp [setVar, hs])
  simp [choiceSteps, htest, hfirst, hwrite]


/-- A scheduled call adds its node after the steps of its arguments. -/
theorem weight_invokeNode (attr : SchedulingAttribute)
    (has : k.AllSettled ((as.flatMap (·.value.slots)).flatMap Expr.nodes))
    (hlocation : ∀ l ∈ location, k.AllSettled l.handle.nodes)
    (hbound : k.unbound attr.nodeType as location = 0) :
    (invokeNode attr as location).weight k.weighing = k.invoke attr.nodeType := by
  have hslots : ((as.flatMap (·.value.slots) ++ location.toList.map (·.handle)).map
      k.weighing.expr).sum = 0 := by
    refine List.sum_eq_zero fun y hy => ?_
    obtain ⟨x, hx, rfl⟩ := List.mem_map.1 hy
    rcases List.mem_append.1 hx with hx | hx
    · exact AllSettled.sum_eq fun e he => has e (List.mem_flatMap.2 ⟨x, hx, he⟩)
    · obtain ⟨l, hl, rfl⟩ := List.mem_map.1 hx
      exact (hlocation l (Option.mem_toList.1 hl)).sum_eq
  rw [invokeNode, Node.weight_named, Node.weight_ofKind, NodeKind.weight, NodeKind.slots, hslots]
  simp [NodeKind.action, NodeKind.children, weighing, hbound]

theorem settled_result {site : Site} {attr : SchedulingAttribute} {result : CallResult}
    {s t : StageState} {p : Option Location × Option Expr}
    (h : resultLocation site attr result s = .ok p t)
    (hinto : ∀ store, result = .into store → k.AllSettled store.handle.nodes) :
    (∀ l ∈ p.1, k.AllSettled l.handle.nodes) ∧ k.AllSettled (p.2.getD .null).nodes := by
  obtain ⟨-, -, ⟨hloc, hread⟩ | ⟨n, ty, -, rfl⟩⟩ := resultLocation_ok h
  · refine ⟨fun l hl => ?_, by simp [hread]⟩
    obtain ⟨-, store, rfl, hhandle⟩ := hloc l hl
    rw [hhandle]
    exact hinto store rfl
  · simp [getVar]

theorem settled_plainCall {o : Origin} {discard : Bool} {f e : Expr} {p : PlainArgs}
    {s t : StageState} (h : plainCall o discard f p s = .ok e t) (hf : k.AllSettled f.nodes)
    (ho : k.Clears (.call o f p.args)) (hargs : k.AllSettled (Piece.plain args p).produced) :
    k.AllSettled e.nodes := by
  simp only [Piece.produced, allSettled_append] at hargs
  obtain ⟨-, -, rfl | rfl | ⟨n, rfl⟩⟩ := plainCall_ok h
  all_goals simpa [localVar, hf, hargs] using ho

attribute [local simp] Piece.source Piece.produced Piece.Same

theorem settles (hh : k.context.PlainHandles) {site : Site} {p : Piece} {s t : StageState}
    (h : Staging site p a s t) : k.Settles site p a := by
  induction h with (
    intro hfair hsite
    simp only [Piece.source, Expr.nodes, Expr.nodesOpt, Argument.nodesList, nodes, nodesList,
      nodesOpt, allFair_cons, allFair_append] at hfair)
  | literal => simp [sent]
  | read hstore hlambda =>
    rw [hsite] at hstore
    simp [sent, hlambda, settled_withSpan_storeGet, settled_handle hh (storeFor?_mem hstore)]
  | name hnone =>
    rw [hsite] at hnone
    simpa [sent] using hnone
  | member _ ih | cast _ ih => simpa [sent] using ih hfair.2 hsite
  | scheduled _ _ ih =>
    obtain ⟨hadds, hsettled, hsame⟩ := ih (by simpa using hfair) hsite
    exact ⟨hadds, hsettled, fun hl => (hsame hl).elim⟩
  | create hargs ih =>
    have hplaces : k.strict → _ := fun hs => hargs.values_keepPlaces (hsite ▸ hfair.1.places hs)
    obtain ⟨hadds, hsettled, hsame⟩ := ih hfair.2 hsite
    exact ⟨by simpa [sent] using hadds, by simpa using ⟨hplaces, hsettled⟩, fun hl => by
      rw [hsame hl]; rfl⟩
  | step _ hstore hlambda =>
    rw [hsite] at hstore
    have hhandle := settled_handle hh (storeFor?_mem hstore)
    -- the operand stands for the store, so nothing in it is scheduled
    have hcalls := (hfair.2 _ (Expr.mem_nodes_self _)).store (by simp [hstore])
    refine ⟨by simp [sent, hcalls], ?_, by simp [hlambda]⟩
    dsimp only [Piece.produced]
    unfold storeStep
    split <;> simp [hhandle]
  | unary hplain he ih =>
    obtain ⟨hadds, hsettled, hsame⟩ := ih hfair.2 hsite
    have hplace : k.strict → _ → _ := fun hs hop =>
      he.isPlace (hfair.1.places hs hop) (namedStore?_of_storeFor? (hplain.resolve_left
        fun hnone => by simp [UnaryOp.isStep, hnone] at hop))
    exact ⟨by simpa [sent] using hadds, by simpa using ⟨hplace, hsettled⟩, fun hl => by
      rw [hsame hl]; rfl⟩
  | operator hskip _ _ _ _ _ _ _ _ ih ih' =>
    obtain ⟨⟨hweight, hnested⟩, hsettled, -⟩ := ih hfair.2.1 hsite
    obtain ⟨⟨hweight', hnested'⟩, hsettled', -⟩ := ih' hfair.2.2 hsite
    refine ⟨⟨?_, ?_⟩, by simp [getVar], fun hl => ?_⟩
    · rw [weights_append, weights_operatorSteps _ hsettled hsettled', hweight, hweight']
      simp [sent]
    · rw [List.map_append]
      exact hnested.append (hnested'.operatorSteps ..)
    · simp [Site.canSchedule, hl] at hskip
  | binary _ _ _ ih ih' | index _ _ ih ih' =>
    simpa [sent] using Adds.both (ih hfair.2.1 hsite) (ih' hfair.2.2 hsite)
  | choice hskip _ _ _ _ _ _ _ _ _ _ _ ih ihy ihn =>
    obtain ⟨⟨hweight, hnested⟩, htest, -⟩ := ih hfair.2.1 hsite
    obtain ⟨⟨hweight', hnested'⟩, hfirst, -⟩ := ihy hfair.2.2.1 hsite
    obtain ⟨⟨hweight'', hnested''⟩, hsecond, -⟩ := ihn hfair.2.2.2 hsite
    refine ⟨⟨?_, ?_⟩, by simp [getVar], fun hl => ?_⟩
    · rw [weights_append, weights_choiceSteps htest hfirst hsecond, hweight, hweight', hweight'']
      simp [sent]
    · rw [List.map_append]
      exact hnested.append (hnested'.choiceSteps hnested'' ..)
    · simp [Site.canSchedule, hl] at hskip
  | conditional _ _ _ _ ih ihy ihn =>
    simpa [sent] using Adds.both (ih hfair.2.1 hsite)
      (Adds.both (ihy hfair.2.2.1 hsite) (ihn hfair.2.2.2 hsite))
  | write hstore hlambda _ ih =>
    rw [hsite] at hstore
    have hhandle := settled_handle hh (storeFor?_mem hstore)
    have hcalls := (hfair.2.1 _ (Expr.mem_nodes_self _)).store (by simp [hstore])
    obtain ⟨hadds, hsettled, -⟩ := ih hfair.2.2 hsite
    refine ⟨by simpa [sent, hcalls] using hadds, ?_, by simp [hlambda]⟩
    rw [Piece.produced, storeAssign, settled_withSpan_storeSet]
    split <;> simpa [hhandle] using hsettled
  | assign hnone ht _ ih ih' =>
    obtain ⟨hadds, hsettled, hsame⟩ := Adds.both (ih hfair.2.1 hsite) (ih' hfair.2.2 hsite)
    have hplace : k.strict → _ := fun hs =>
      ht.isPlace (hfair.1.places hs) (namedStore?_of_storeFor? hnone)
    exact ⟨by simpa [sent] using hadds, by simpa using ⟨hplace, by simpa using hsettled⟩, by
      simpa using hsame⟩
  | lambda _ ih =>
    obtain ⟨hadds, hsettled, hsame⟩ := ih hfair.2 hsite
    obtain rfl := hsame rfl
    exact ⟨by simpa [sent] using hadds, by simpa using ⟨hfair.1.kept _ _ _ rfl, hsettled⟩,
      fun _ => rfl⟩
  | block _ _ ih ih' =>
    have hlast := ih' hfair.2.2 ((Site.context_afterAll ..).trans hsite)
    rw [Site.inLambda_afterAll] at hlast
    simpa [sent] using Adds.both (ih hfair.2.1 hsite) hlast
  | absent | valuesNil | inputsNil | plainNil | bodyNil | branchNone => simp
  | called _ ih | present _ ih | evalCall _ ih | eval _ _ ih | declare _ ih | blockStmt _ _ ih
  | branchSome _ _ ih => simpa using ih (by simpa using hfair) hsite
  | valuesCons _ _ ih ih' | loop _ _ _ ih ih' =>
    simpa using Adds.both (ih hfair.1 hsite) (ih' hfair.2 hsite)
  | input _ _ _ ih ih' =>
    obtain ⟨hadds, hsettled, -⟩ := Adds.both (ih hfair.1 hsite) (ih' hfair.2 hsite)
    exact ⟨by simpa using hadds, by simpa [ArgumentValue.slots] using hsettled, by simp⟩
  | location _ hstore hhandle _ _ _ _ ih =>
    rw [hsite] at hstore
    have hstore := storeFor?_of_namedStore? hstore
    have hsettled := settled_handle hh (storeFor?_mem hstore)
    have hcalls := (hfair.1 _ (Expr.mem_nodes_self _)).store (by simp [hstore])
    simpa [ArgumentValue.slots, hcalls, hhandle, hsettled] using ih hfair.2 hsite
  | copied _ hstore hlambda _ _ _ ih =>
    rw [hsite] at hstore
    have hstore := storeFor?_of_namedStore? hstore
    have hhandle := settled_handle hh (storeFor?_mem hstore)
    have hcalls := (hfair.1 _ (Expr.mem_nodes_self _)).store (by simp [hstore])
    obtain ⟨hadds, hsettled, -⟩ := ih hfair.2 hsite
    simp only [Piece.produced, allSettled_append] at hsettled
    refine ⟨by simpa [hcalls] using hadds, ?_, by simp [hlambda]⟩
    rw [Piece.produced]
    split <;> simp [localVar, hhandle, hsettled]
  | passed _ _ _ ih ih' =>
    obtain ⟨hadds, hsettled, hsame⟩ := Adds.both (ih hfair.1 hsite) (ih' hfair.2 hsite)
    exact ⟨by simpa using hadds, by simpa [and_assoc] using hsettled, by
      simpa [and_assoc] using hsame⟩
  | send hattr hinto hcan hargs hresult _ _ _ ih =>
    have hinvokes := hargs.invokes hinto hresult
    rw [hsite] at hattr hinvokes
    have hcallee := hfair.1.callee _ _ _ rfl (by simp [hattr])
    have hbound := hfair.1.bound _ _ _ _ _ _ rfl hattr hinvokes
    obtain ⟨hadds, hsettled, -⟩ := ih hfair.2.2 hsite
    obtain ⟨hlocation, hread⟩ := settled_result hresult fun store hst =>
      settled_handle hh (hsite ▸ hinto store hst)
    refine ⟨?_, hread, fun hl => by simp [Site.canSchedule, hl] at hcan⟩
    rw [Piece.source, Expr.nodes, calls_cons, calls_append, sent_call hattr, hcallee, zero_add,
      add_comm]
    exact hadds.append ⟨by simpa [weight] using weight_invokeNode _ hsettled hlocation hbound, .node⟩
  | call hnone _ hargs hcall ih ih' =>
    rw [hsite] at hnone
    obtain ⟨hadds, hsettled, hsame⟩ := Adds.both (ih hfair.2.1 hsite) (ih' hfair.2.2 hsite)
    rw [allSettled_append] at hsettled
    refine ⟨by simpa [sent_plain hnone] using hadds, settled_plainCall hcall hsettled.1
      ⟨hnone, fun hs => hargs.plain_keepsPlaces (hfair.1.places hs)⟩ hsettled.2, fun hl => ?_⟩
    obtain ⟨rfl, rfl, hbefore⟩ := hsame hl
    exact plainCall_of_before hbefore hcall
  | branchStmt _ _ _ ih ihy ihn =>
    simpa using Adds.both (ih hfair.1 hsite) (Adds.both (ihy hfair.2.1 hsite) (ihn hfair.2.2 hsite))
  | bodyCons _ _ _ ih ih' =>
    have hothers := ih' hfair.2 ((Site.context_after ..).trans hsite)
    rw [Site.inLambda_after] at hothers
    simpa using Adds.both (ih hfair.1 hsite) hothers

end Walk

end Account

end Workflow
