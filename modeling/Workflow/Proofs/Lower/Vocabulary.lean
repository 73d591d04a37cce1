import Workflow.Proofs.Graph.Landmarks
import Workflow.Proofs.Lower.Staging
import Workflow.Proofs.Scope.Mentions

/-!
# The names that staging puts into steps

A vocabulary is a property of names that the names of the code itself, the handles of the stores
that it reaches and the variables that staging makes all have; then every name in the steps and in
the values has it, whether an error is found later or not.
-/

namespace Workflow

open StepList CodeStmt List Lower

def Lower.IsTemp (x : String) : Prop :=
  ∃ stem ∈ ["step", "r", "c", "v", "l"], ∃ n, x = tempName stem n

/-- The name of a variable or a local that is made to hold a value. -/
def Lower.IsHolder (x : String) : Prop := ∃ stem ∈ ["r", "c", "v", "l"], ∃ n, x = tempName stem n

/-- A property of the names that lowering may put into steps and, if it is `whole`, into the graph.
-/
structure LowerContext.Vocabulary (c : LowerContext) where
  has : Mention → Prop
  context : has (.used Expr.contextName)
  temp : ∀ x, IsHolder x → has (.bound x) ∧ has (.used x)
  handle : ∀ st ∈ c.activity.stores, Mention.All has st.handle.mentions
  whole : Prop
  position : whole → ∀ n, has (.bound (indexName n)) ∧ has (.used (indexName n))
  name : whole → ∀ st ∈ c.activity.stores, has (.bound st.name)
  delegate : whole → ∀ st ∈ c.activity.stores, has (.bound (delegateArgument st.handle))
  code : whole → ∀ id, Mention.All has (c.activity.kind id).mentions

namespace LowerContext.Vocabulary

variable {c : LowerContext} (V : c.Vocabulary)

abbrev All (ms : List Mention) : Prop := Mention.All V.has ms

attribute [local simp] Expr.mentions Argument.mentionsList mentions
  mentionsList Expr.mentionsOpt mentionsOpt mentionsList_append

section Produced

variable {V} {x : String} {e handle : Expr} {span : Span}

theorem all_ident (hx : IsHolder x) : V.All (Expr.ident x).mentions := by
  simp [Expr.ident, (V.temp x hx).2]

@[simp]
theorem all_storeGet : V.All (Expr.storeGet handle).mentions ↔ V.All handle.mentions := by
  simp [Expr.storeGet, Expr.methodCall, Argument.plain, Expr.ident, V.context]

@[simp]
theorem all_storeSet :
    V.All (Expr.storeSet handle e).mentions ↔ V.All handle.mentions ∧ V.All e.mentions := by
  simp [Expr.storeSet, Expr.methodCall, Argument.plain, Expr.ident, V.context]

@[simp]
theorem all_apply : V.All (Expr.apply op a b).mentions ↔ V.All a.mentions ∧ V.All b.mentions := by
  simp [Expr.apply]

@[simp]
theorem all_int (n : Int) : V.All (Expr.int n).mentions := by simp [Expr.int]

@[simp]
theorem all_null : V.All Expr.null.mentions := by simp [Expr.null]

@[simp]
theorem all_not : V.All e.not.mentions ↔ V.All e.mentions := by simp [Expr.not]

end Produced

end LowerContext.Vocabulary

/-! ### Step lists -/

def Step.mentions : Step → List Mention
  | .node n => n.mentions
  | .skip before condition onSkip _ => mentionsList before ++
      (Expr.mentionsOpt condition ++ mentionsList onSkip)

/-- The step runs code, schedules a call or skips. -/
def Step.IsSimple : Step → Prop
  | .node (.mk _ (.code _)) | .node (.mk _ (.invoke ..)) | .skip .. => True
  | _ => False

theorem Step.IsSimple.landmarks {step : Step} (h : step.IsSimple) : step.landmarks = [] := by
  unfold IsSimple at h
  split at h
  · exact Node.landmarks_code _
  · rfl
  · rfl
  · cases h

namespace LowerContext.Vocabulary

variable {c : LowerContext} (V : c.Vocabulary)

def Vars (vars : List VariableDecl) : Prop :=
  ∀ v ∈ vars, V.has (.bound v.name) ∧ V.All (Expr.mentionsOpt v.default)

/-- All names in a step list belong to the vocabulary, and its nodes run code or schedule a call. -/
structure Steps (l : StepList) : Prop where
  steps : ∀ step ∈ l.steps, V.All step.mentions ∧ step.IsSimple
  pending : V.All (mentionsList l.pending)
  vars : V.whole → V.Vars l.vars
  index : ∀ x, l.index = some x → ∃ n, x = indexName n

attribute [local simp] Expr.mentions Argument.mentionsList mentions
  mentionsList Expr.mentionsOpt mentionsOpt mentionsList_append

namespace Vars

variable {V} {vars vars' : List VariableDecl}

theorem nil : V.Vars [] := fun _ hv => by cases hv

theorem cons {v : VariableDecl} (hname : V.has (.bound v.name))
    (hdefault : V.All (Expr.mentionsOpt v.default)) (h : V.Vars vars) : V.Vars (v :: vars) :=
  forall_mem_cons.2 ⟨⟨hname, hdefault⟩, h⟩

theorem append (h : V.Vars vars) (h' : V.Vars vars') : V.Vars (vars ++ vars') :=
  forall_mem_append.2 ⟨h, h'⟩

theorem names (h : V.Vars vars) : ∀ x ∈ VariableDecl.names vars, V.has (.bound x) := by
  intro x hx
  obtain ⟨v, hv, rfl⟩ := mem_map.1 hx
  exact (h v hv).1

theorem slots (h : V.Vars vars) : ∀ e ∈ VariableDecl.slots vars, V.All e.mentions := by
  intro e he
  obtain ⟨v, hv, he⟩ := mem_flatMap.1 he
  have hdefault := (h v hv).2
  rw [Option.mem_toList.1 he] at hdefault
  exact hdefault

end Vars

variable {V} in
theorem all_sequence {vars : List VariableDecl} {ns : List Node} (hvars : V.Vars vars) :
    V.All (Node.sequence vars ns).mentions ↔ ∀ n ∈ ns, V.All n.mentions := by
  have hnames := hvars.names
  have hslots := hvars.slots
  simp_all [Node.sequence, Node.mentions_ofKind, NodeKind.mentions, NodeKind.binders,
    NodeKind.slots, NodeKind.body, NodeKind.children]

namespace Steps

variable {V} {l : StepList}

theorem empty : V.Steps {} where
  steps _ h := by cases h
  pending := by simp
  vars _ := .nil
  index _ h := by cases h

theorem pushPlain (h : V.Steps l) {stmt : CodeStmt} (hstmt : V.All stmt.mentions) :
    V.Steps (l.pushPlain stmt) where
  steps := h.steps
  pending := by simp [StepList.pushPlain, h.pending, hstmt]
  vars := h.vars
  index := h.index

theorem flush (h : V.Steps l) : V.Steps l.flush := by
  unfold StepList.flush
  split
  · exact h
  · refine ⟨forall_mem_append.2 ⟨h.steps, fun step hstep => ?_⟩, by simp, h.vars, h.index⟩
    rw [mem_singleton.1 hstep, Step.mentions, Node.mentions_code]
    exact ⟨h.pending, trivial⟩

theorem push {step : Step} (h : V.Steps l) (hstep : V.All step.mentions)
    (hsimple : step.IsSimple) : V.Steps (l.push step) where
  steps := forall_mem_append.2 ⟨h.flush.steps, by simpa using ⟨hstep, hsimple⟩⟩
  pending := h.flush.pending
  vars := h.flush.vars
  index := h.flush.index

theorem patchSkip (h : V.Steps l) (position distance : Nat) :
    V.Steps (l.patchSkip position distance) where
  steps step hstep := by
    obtain ⟨i, hi, rfl⟩ := getElem_of_mem hstep
    have hlt : i < l.steps.length := by simpa [StepList.patchSkip] using hi
    have hold := h.steps _ (getElem_mem hlt)
    simp only [StepList.patchSkip, getElem_modify]
    split
    · cases hk : l.steps[i] <;> rw [hk] at hold <;> exact hold
    · exact hold
  pending := h.pending
  vars := h.vars
  index := h.index

theorem declare {x : String} (h : V.Steps l) (hx : IsHolder x) (ty : TypeName) :
    V.Steps (l.declare { name := x, ty := ty }) where
  steps := h.steps
  pending := h.pending
  vars hw := (h.vars hw).append (.cons (V.temp x hx).1 (by simp) .nil)
  index := h.index

theorem useIndex (h : V.Steps l) (n : Nat) : V.Steps (l.useIndex (indexName n)) where
  steps := h.steps
  pending := h.pending
  vars hw := .cons (V.position hw n).1 (by simp) (h.vars hw)
  index y hy := by
    cases hy
    exact ⟨n, rfl⟩

/-! The nodes of a list refer to its position. -/

section Position

variable {x : String} (hx : V.All (Expr.ident x).mentions)

include hx

theorem all_readIndex : V.All (readIndex x).mentions :=
  all_storeGet.2 hx

theorem all_atPosition (position : Nat) : V.All (atPosition x position).mentions :=
  all_apply.2 ⟨all_readIndex hx, all_int _⟩

theorem all_advance (distance : Nat) : V.All (advance x distance).mentions := by
  simp [advance, hx, all_readIndex hx]

theorem all_guardedCode (position : Nat) (hbody : V.All (mentionsList body)) :
    V.All (guardedCode x position body).mentions := by
  simp [guardedCode, Node.mentions_code, all_atPosition hx, hbody]

theorem all_indexed (position : Nat) {step : Step} (hstep : V.All step.mentions) :
    V.All (indexed x position step).mentions := by
  have hnode : ∀ name kind, V.All (Node.mk name kind).mentions → V.All (Node.ofKind (.conditional
      { ty := some .boolean, expr := atPosition x position }
      (some (.sequence [] [.mk name kind, .code [advance x 1]])) none)).mentions := by
    intro name kind hkind
    simp [Node.mentions_ofKind, NodeKind.mentions, NodeKind.binders, NodeKind.slots, NodeKind.body,
      NodeKind.children, all_atPosition hx, all_sequence .nil, hkind, Node.mentions_code,
      all_advance hx]
  cases step with
  | skip before condition onSkip distance =>
    refine all_guardedCode hx position ?_
    cases condition <;> simp_all [Step.mentions, skipCode, all_advance hx]
  | node n =>
    obtain ⟨name, kind⟩ := n
    cases kind
    case code body =>
      refine all_guardedCode hx position ?_
      simp_all [Step.mentions, Node.mentions_mk, NodeKind.mentions, NodeKind.body, all_advance hx]
    all_goals exact hnode name _ hstep

end Position

theorem nodes (h : V.Steps l) (hw : V.whole) : ∀ n ∈ l.nodes, V.All n.mentions := by
  have hflush := h.flush
  intro n hn
  unfold StepList.nodes at hn
  cases hindex : l.flush.index with
  | none =>
    rw [hindex] at hn
    obtain ⟨step, hstep, hnode⟩ := mem_filterMap.1 hn
    have hstep := (hflush.steps step hstep).1
    cases step with
    | node n' =>
      cases hnode
      exact hstep
    | skip => cases hnode
  | some x =>
    rw [hindex] at hn
    obtain ⟨k, rfl⟩ := hflush.index x hindex
    have hx : V.All (Expr.ident (indexName k)).mentions := by
      simp [Expr.ident, (V.position hw k).2]
    have hall : ∀ (steps : List Step) (position : Nat), (∀ step ∈ steps, V.All step.mentions) →
        ∀ n ∈ indexedFrom (indexName k) position steps, V.All n.mentions := by
      intro steps
      induction steps with
      | nil => intro _ _ n hn; cases hn
      | cons step rest ih =>
        intro position hsteps n hn
        rcases mem_cons.1 hn with rfl | hn
        · exact all_indexed hx position (hsteps step mem_cons_self)
        · exact ih _ (fun s hs => hsteps s (mem_cons_of_mem step hs)) n hn
    exact hall _ 0 (fun step hstep => (hflush.steps step hstep).1) n hn

theorem landmarks_nodes (h : V.Steps l) : l.nodes.flatMap Node.landmarks = [] := by
  rw [StepList.landmarks_nodes]
  exact flatMap_eq_nil_iff.2 fun step hstep => (h.flush.steps step hstep).2.landmarks

theorem finish (h : V.Steps l) (hw : V.whole) : ∀ n ∈ l.finish, V.All n.mentions := by
  have hnodes := h.nodes hw
  intro n hn
  unfold StepList.finish at hn
  split at hn
  · cases hn
  · next n' _ heq =>
    obtain rfl : n' = n := Option.some.inj hn
    exact hnodes n' (by rw [heq]; exact mem_singleton_self n')
  · cases hn
    exact (all_sequence (h.vars hw)).2 hnodes

end Steps

/-! ### Parts of staged code -/

section Parts

variable {V} {e : Expr} {store : Store} {x : String}

def AllSlots (V : c.Vocabulary) (es : List Expr) : Prop := ∀ e ∈ es, V.All e.mentions

/-- The parts of a plain call keep to the vocabulary. -/
structure Plain (V : c.Vocabulary) (p : PlainArgs) : Prop where
  args : V.All (Argument.mentionsList p.args)
  before : V.All (mentionsList p.before)
  after : V.All (mentionsList p.after)

theorem all_storeStep (op : UnaryOp) (step : BinaryOp) (h : V.All store.handle.mentions) :
    V.All (Stage.storeStep op step store).mentions := by
  unfold Stage.storeStep
  split <;> simp [h]

theorem all_storeAssign (o : Origin) (op : AssignOp) (h : V.All store.handle.mentions)
    (he : V.All e.mentions) : V.All (Stage.storeAssign o op store e).mentions := by
  unfold Stage.storeAssign
  rw [Expr.mentions_withSpan]
  cases op.binary <;> simp [h, he]

theorem all_setVar (hx : IsHolder x) (he : V.All e.mentions) :
    V.All (Stage.setVar x e).mentions := by
  simp [Stage.setVar, all_ident hx, he]

theorem all_getVar (hx : IsHolder x) : V.All (Stage.getVar x).mentions := by
  simp [Stage.getVar, all_ident hx]

end Parts

def any (c : LowerContext) : c.Vocabulary where
  has _ := True
  context := trivial
  temp _ _ := ⟨trivial, trivial⟩
  handle _ _ _ _ := trivial
  whole := True
  position _ _ := ⟨trivial, trivial⟩
  name _ _ _ := trivial
  delegate _ _ _ := trivial
  code _ _ _ _ := trivial

end LowerContext.Vocabulary

end Workflow
