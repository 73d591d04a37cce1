import Workflow.Graph.Format
import Workflow.Proofs.Format.Code

/-!
# Reading back node graphs

What is written of a node can be read again, up to what the format keeps of its code. The numbers of
the code and the positions in flowcharts and machines have to fit into the words of the format.
-/

namespace Workflow

open Node TransitionNode FlowNode PickBranchNode StateNode CatchNode CaseNode

variable {v : ValueExpr}

/-! ### What the format keeps -/

def VariableDecl.kept (v : VariableDecl) : VariableDecl :=
  { v with default := v.default.map Expr.kept }

def ValueExpr.kept (v : ValueExpr) : ValueExpr := { v with expr := v.expr.kept }

def Location.kept (l : Location) : Location := { l with handle := l.handle.kept }

def ArgumentValue.kept : ArgumentValue → ArgumentValue
  | .value v => .value v.kept
  | .location l => .location l.kept

def NodeArgument.kept (a : NodeArgument) : NodeArgument := { a with value := a.value.kept }

def FlowSwitchCase.kept (c : FlowSwitchCase) : FlowSwitchCase := { c with key := c.key.kept }

def MessageContent.kept : MessageContent → MessageContent
  | .message value => .message value.kept
  | .parameters params => .parameters (params.map fun p => (p.1, p.2.kept))

def MessagingNode.kept (m : MessagingNode) : MessagingNode :=
  { m with
    content := m.content.map MessageContent.kept
    correlatesWith := m.correlatesWith.map ValueExpr.kept
    correlationInitializers := m.correlationInitializers.map Location.kept
    endpoint := m.endpoint.map ValueExpr.kept }

mutual
def Node.kept : Node → Node
  | .mk displayName kind => .mk displayName kind.kept

def NodeKind.kept : NodeKind → NodeKind
  | .sequence vars activities =>
    .sequence (vars.map VariableDecl.kept) (Node.keptList activities)
  | .conditional condition yes no =>
    .conditional condition.kept (Node.keptOption yes) (Node.keptOption no)
  | .loop condition body testAfter => .loop condition.kept (Node.keptOption body) testAfter
  | .switch value cases fallback =>
    .switch value.kept (CaseNode.keptList cases) (Node.keptOption fallback)
  | .raise exception => .raise exception.kept
  | .reraise => .reraise
  | .guarded body handlers final =>
    .guarded (Node.keptOption body) (CatchNode.keptList handlers) (Node.keptOption final)
  | .forEach itemType itemArgument values body parallel completion =>
    .forEach itemType itemArgument values.kept (Node.keptOption body) parallel
      (completion.map ValueExpr.kept)
  | .delay duration => .delay duration.kept
  | .parallel branches completion =>
    .parallel (Node.keptList branches) (completion.map ValueExpr.kept)
  | .pick branches => .pick (PickBranchNode.keptList branches)
  | .stateMachine vars states initial =>
    .stateMachine (vars.map VariableDecl.kept) (StateNode.keptList states) initial
  | .flowchart vars nodes start =>
    .flowchart (vars.map VariableDecl.kept) (FlowNode.keptList nodes) start
  | .transaction body timeout =>
    .transaction (Node.keptOption body) (timeout.map ValueExpr.kept)
  | .cancellable body onCancel => .cancellable (Node.keptOption body) (Node.keptOption onCancel)
  | .compensable token body compensation confirmation cancellation =>
    .compensable (token.map Location.kept) (Node.keptOption body)
      (Node.keptOption compensation) (Node.keptOption confirmation)
      (Node.keptOption cancellation)
  | .confirm target => .confirm (target.map ValueExpr.kept)
  | .compensate target => .compensate (target.map ValueExpr.kept)
  | .persist => .persist
  | .noPersist body => .noPersist (Node.keptOption body)
  | .terminate reason exception =>
    .terminate (reason.map ValueExpr.kept) (exception.map ValueExpr.kept)
  | .receive op => .receive op.kept
  | .send op => .send op.kept
  | .sendReply op => .sendReply op.kept
  | .receiveReply op => .receiveReply op.kept
  | .initializeCorrelation handle data =>
    .initializeCorrelation handle.kept (data.map fun p => (p.1, p.2.kept))
  | .transactedReceive vars request body =>
    .transactedReceive (vars.map VariableDecl.kept) request.kept (Node.keptOption body)
  | .invoke nodeType arguments result =>
    .invoke nodeType (arguments.map NodeArgument.kept) (result.map Location.kept)
  | .code body => .code (CodeStmt.keptList body)

def Node.keptList : List Node → List Node
  | [] => []
  | n :: rest => n.kept :: Node.keptList rest

def Node.keptOption : Option Node → Option Node
  | none => none
  | some n => some n.kept

def CaseNode.keptList : List CaseNode → List CaseNode
  | [] => []
  | .mk key body :: rest => .mk key.kept (Node.keptOption body) :: CaseNode.keptList rest

def CatchNode.keptList : List CatchNode → List CatchNode
  | [] => []
  | .mk exceptionType argument body :: rest =>
    .mk exceptionType argument (Node.keptOption body) :: CatchNode.keptList rest

def PickBranchNode.keptList : List PickBranchNode → List PickBranchNode
  | [] => []
  | .mk vars trigger action :: rest =>
    .mk (vars.map VariableDecl.kept) (Node.keptOption trigger) (Node.keptOption action) ::
      PickBranchNode.keptList rest

def TransitionNode.keptList : List TransitionNode → List TransitionNode
  | [] => []
  | .mk trigger condition action target :: rest =>
    .mk trigger (condition.map ValueExpr.kept) (Node.keptOption action) target ::
      TransitionNode.keptList rest

def StateNode.keptList : List StateNode → List StateNode
  | [] => []
  | .mk name isFinal entry exit triggers transitions :: rest =>
    .mk name isFinal (Node.keptOption entry) (Node.keptOption exit) (Node.keptList triggers)
      (TransitionNode.keptList transitions) :: StateNode.keptList rest

def FlowNode.keptList : List FlowNode → List FlowNode
  | [] => []
  | .step name action next :: rest =>
    .step name (Node.keptOption action) next :: FlowNode.keptList rest
  | .decision name condition onTrue onFalse :: rest =>
    .decision name condition.kept onTrue onFalse :: FlowNode.keptList rest
  | .switch name value cases fallback :: rest =>
    .switch name value.kept (cases.map FlowSwitchCase.kept) fallback :: FlowNode.keptList rest
end

/-! ### Numbers in range -/

def VariableDecl.AllInRange (vars : List VariableDecl) : Prop :=
  ∀ v ∈ vars, ∀ e ∈ v.default, e.InRange

def ValueExpr.OptInRange (v : Option ValueExpr) : Prop := ∀ u ∈ v, u.expr.InRange

def Location.OptInRange (l : Option Location) : Prop := ∀ k ∈ l, k.handle.InRange

def ArgumentValue.InRange : ArgumentValue → Prop
  | .value v => v.expr.InRange
  | .location l => l.handle.InRange

def MessageContent.InRange : MessageContent → Prop
  | .message value => value.InRange
  | .parameters params => ∀ p ∈ params, p.2.InRange

/-- The numbers of a messaging operation fit. -/
structure MessagingNode.InRange (m : MessagingNode) : Prop where
  content : ∀ c ∈ m.content, c.InRange
  correlatesWith : ValueExpr.OptInRange m.correlatesWith
  initializers : ∀ l ∈ m.correlationInitializers, l.handle.InRange
  endpoint : ValueExpr.OptInRange m.endpoint

/-- A place in a flowchart or a machine that may be absent fits into a word of 64 bits. -/
def PlaceInRange (i : Option Nat) : Prop := ∀ n ∈ i, Json.InWord 64 n

mutual
def Node.InRange : Node → Prop
  | .mk _ kind => kind.InRange

def NodeKind.InRange : NodeKind → Prop
  | .sequence vars activities => VariableDecl.AllInRange vars ∧ Node.AllInRange activities
  | .conditional v yes no => v.expr.InRange ∧ Node.OptInRange yes ∧ Node.OptInRange no
  | .loop v body _ => v.expr.InRange ∧ Node.OptInRange body
  | .switch v cases fallback =>
    v.expr.InRange ∧ CaseNode.AllInRange cases ∧ Node.OptInRange fallback
  | .raise v | .delay v => v.expr.InRange
  | .guarded body handlers final =>
    Node.OptInRange body ∧ CatchNode.AllInRange handlers ∧ Node.OptInRange final
  | .forEach _ _ v body _ completion =>
    v.expr.InRange ∧ Node.OptInRange body ∧ ValueExpr.OptInRange completion
  | .parallel branches v => Node.AllInRange branches ∧ ValueExpr.OptInRange v
  | .pick branches => PickBranchNode.AllInRange branches
  | .stateMachine vars states initial =>
    VariableDecl.AllInRange vars ∧ StateNode.AllInRange states ∧ Json.InWord 64 initial
  | .flowchart vars nodes start =>
    VariableDecl.AllInRange vars ∧ FlowNode.AllInRange nodes ∧ PlaceInRange start
  | .transaction body v => Node.OptInRange body ∧ ValueExpr.OptInRange v
  | .cancellable body onCancel => Node.OptInRange body ∧ Node.OptInRange onCancel
  | .compensable token body compensation confirmation cancellation =>
    Location.OptInRange token ∧ Node.OptInRange body ∧ Node.OptInRange compensation ∧
      Node.OptInRange confirmation ∧ Node.OptInRange cancellation
  | .confirm v | .compensate v => ValueExpr.OptInRange v
  | .reraise | .persist => True
  | .noPersist body => Node.OptInRange body
  | .terminate reason exception => ValueExpr.OptInRange reason ∧ ValueExpr.OptInRange exception
  | .receive op | .send op | .sendReply op | .receiveReply op => op.InRange
  | .initializeCorrelation handle data => handle.expr.InRange ∧ ∀ p ∈ data, p.2.expr.InRange
  | .transactedReceive vars request body =>
    VariableDecl.AllInRange vars ∧ request.InRange ∧ Node.OptInRange body
  | .invoke _ arguments result =>
    (∀ a ∈ arguments, a.value.InRange) ∧ Location.OptInRange result
  | .code body => CodeStmt.AllInRange body

def Node.AllInRange : List Node → Prop
  | [] => True
  | n :: rest => n.InRange ∧ Node.AllInRange rest

def Node.OptInRange : Option Node → Prop
  | none => True
  | some n => n.InRange

def CaseNode.AllInRange : List CaseNode → Prop
  | [] => True
  | .mk key body :: rest => (key.expr.InRange ∧ Node.OptInRange body) ∧ CaseNode.AllInRange rest

def CatchNode.AllInRange : List CatchNode → Prop
  | [] => True
  | .mk _ _ body :: rest => Node.OptInRange body ∧ CatchNode.AllInRange rest

def PickBranchNode.AllInRange : List PickBranchNode → Prop
  | [] => True
  | .mk vars trigger action :: rest =>
    (VariableDecl.AllInRange vars ∧ Node.OptInRange trigger ∧ Node.OptInRange action) ∧
      PickBranchNode.AllInRange rest

def TransitionNode.AllInRange : List TransitionNode → Prop
  | [] => True
  | .mk trigger condition action target :: rest =>
    (PlaceInRange trigger ∧ ValueExpr.OptInRange condition ∧ Node.OptInRange action ∧
      Json.InWord 64 target) ∧ TransitionNode.AllInRange rest

def StateNode.AllInRange : List StateNode → Prop
  | [] => True
  | .mk _ _ entry exit triggers transitions :: rest =>
    (Node.OptInRange entry ∧ Node.OptInRange exit ∧ Node.AllInRange triggers ∧
      TransitionNode.AllInRange transitions) ∧ StateNode.AllInRange rest

def FlowNode.AllInRange : List FlowNode → Prop
  | [] => True
  | .step _ action next :: rest =>
    (Node.OptInRange action ∧ PlaceInRange next) ∧ FlowNode.AllInRange rest
  | .decision _ v onTrue onFalse :: rest =>
    (v.expr.InRange ∧ PlaceInRange onTrue ∧ PlaceInRange onFalse) ∧ FlowNode.AllInRange rest
  | .switch _ v cases fallback :: rest =>
    (v.expr.InRange ∧ (∀ c ∈ cases, c.key.expr.InRange ∧ Json.InWord 64 c.target) ∧
      PlaceInRange fallback) ∧ FlowNode.AllInRange rest
end

/-! ### Writing again -/

section Writing

attribute [local simp] Expr.toJson_kept CodeStmt.toJsonList_kept Json.fieldOpt Json.fieldList
  Function.comp_def

@[simp]
theorem VariableDecl.toJson_kept (v : VariableDecl) : v.kept.toJson = v.toJson := by
  cases h : v.default <;> simp [toJson, kept, h]

@[simp]
theorem VariableDecl.listField_kept (vars : List VariableDecl) :
    listField (vars.map kept) = listField vars := by
  simp [listField]

@[simp]
theorem ValueExpr.toJson_kept (v : ValueExpr) : v.kept.toJson = v.toJson := by
  simp [toJson, fields, kept]

@[simp]
theorem ValueExpr.optionToJson_kept (v : Option ValueExpr) :
    optionToJson (v.map kept) = optionToJson v := by
  cases v <;> simp [optionToJson, Json.orNull]

@[simp]
theorem Location.toJson_kept (l : Location) : l.kept.toJson = l.toJson := by
  simp [toJson, fields, kept]

@[simp]
theorem Location.orNull_kept (l : Option Location) :
    Json.orNull toJson (l.map kept) = Json.orNull toJson l := by
  cases l <;> simp [Json.orNull]

@[simp]
theorem ArgumentValue.toJson_kept : (a : ArgumentValue) → a.kept.toJson = a.toJson
  | .value v => by simp [toJson, kept, ValueExpr.fields, ValueExpr.kept]
  | .location l => by simp [toJson, kept, Location.fields, Location.kept]

@[simp]
theorem NodeArgument.toJson_kept (a : NodeArgument) : a.kept.toJson = a.toJson := by
  simp [toJson, kept]

@[simp]
theorem FlowSwitchCase.toJson_kept (c : FlowSwitchCase) : c.kept.toJson = c.toJson := by
  simp [toJson, kept]

@[simp]
theorem MessageContent.toJson_kept : (c : MessageContent) → c.kept.toJson = c.toJson
  | .message _ => by simp [toJson, kept]
  | .parameters _ => by simp [toJson, kept, paramToJson]

@[simp]
theorem MessagingNode.fields_kept (m : MessagingNode) : m.kept.fields = m.fields := by
  obtain ⟨_, _, _, _, content, correlatesWith, _, _, endpoint⟩ := m
  cases content <;> cases correlatesWith <;> cases endpoint <;> simp [fields, kept]

theorem Node.isEmpty_keptList (ns : List Node) : (keptList ns).isEmpty = ns.isEmpty := by
  cases ns <;> rfl

theorem TransitionNode.isEmpty_keptList : (transitions : List TransitionNode) →
    (keptList transitions).isEmpty = transitions.isEmpty
  | [] | .mk .. :: _ => rfl

mutual
theorem Node.toJson_kept : (n : Node) → n.kept.toJson = n.toJson
  | .mk _ kind => by simp [kept, toJson, kind.toJson_kept]

theorem NodeKind.toJson_kept (kind : NodeKind) : kind.kept.toJson = kind.toJson := by
  cases kind <;>
    simp [NodeKind.kept, NodeKind.toJson, Node.toJson_kept, Node.toJsonList_kept,
      Node.optionToJson_kept, CaseNode.toJsonList_kept, CatchNode.toJsonList_kept,
      PickBranchNode.toJsonList_kept, StateNode.toJsonList_kept, FlowNode.toJsonList_kept,
      ValueExpr.namedToJson]

theorem Node.toJsonList_kept : (ns : List Node) →
    Node.toJsonList (Node.keptList ns) = Node.toJsonList ns
  | [] => rfl
  | n :: rest => by
    simp [Node.keptList, Node.toJsonList, n.toJson_kept, Node.toJsonList_kept rest]

theorem Node.optionToJson_kept : (n : Option Node) → optionToJson (keptOption n) = optionToJson n
  | none => rfl
  | some n => by simp [keptOption, optionToJson, n.toJson_kept]

theorem Node.toJsonField_kept : (n : Option Node) →
    toJsonField name (keptOption n) = toJsonField name n
  | none => rfl
  | some n => by simp [keptOption, toJsonField, n.toJson_kept]

theorem CaseNode.toJsonList_kept : (cases : List CaseNode) →
    toJsonList (keptList cases) = toJsonList cases
  | [] => rfl
  | .mk _ body :: rest => by
    simp [CaseNode.keptList, CaseNode.toJsonList, Node.toJsonField_kept body,
      CaseNode.toJsonList_kept rest]

theorem CatchNode.toJsonList_kept : (handlers : List CatchNode) →
    toJsonList (keptList handlers) = toJsonList handlers
  | [] => rfl
  | .mk _ _ body :: rest => by
    simp [CatchNode.keptList, CatchNode.toJsonList, Node.toJsonField_kept body,
      CatchNode.toJsonList_kept rest]

theorem PickBranchNode.toJsonList_kept : (branches : List PickBranchNode) →
    toJsonList (keptList branches) = toJsonList branches
  | [] => rfl
  | .mk _ trigger action :: rest => by
    simp [PickBranchNode.keptList, PickBranchNode.toJsonList, Node.toJsonField_kept trigger,
      Node.toJsonField_kept action, PickBranchNode.toJsonList_kept rest]

theorem TransitionNode.toJsonList_kept : (transitions : List TransitionNode) →
    toJsonList (keptList transitions) = toJsonList transitions
  | [] => rfl
  | .mk _ condition action _ :: rest => by
    cases condition <;>
      simp [TransitionNode.keptList, TransitionNode.toJsonList, Node.toJsonField_kept action,
        TransitionNode.toJsonList_kept rest]

theorem StateNode.toJsonList_kept : (states : List StateNode) →
    StateNode.toJsonList (StateNode.keptList states) = StateNode.toJsonList states
  | [] => rfl
  | .mk _ _ entry exit triggers transitions :: rest => by
    rw [StateNode.keptList, StateNode.toJsonList, StateNode.toJsonList,
      Node.toJsonField_kept entry, Node.toJsonField_kept exit, Node.isEmpty_keptList,
      Node.toJsonList_kept triggers, TransitionNode.isEmpty_keptList,
      TransitionNode.toJsonList_kept transitions, StateNode.toJsonList_kept rest]

theorem FlowNode.toJsonList_kept : (nodes : List FlowNode) →
    toJsonList (keptList nodes) = toJsonList nodes
  | [] => rfl
  | .step _ action _ :: rest => by
    simp [FlowNode.keptList, FlowNode.toJsonList, Node.toJsonField_kept action,
      FlowNode.toJsonList_kept rest]
  | .decision .. :: rest | .switch .. :: rest => by
    simp [FlowNode.keptList, FlowNode.toJsonList, FlowNode.toJsonList_kept rest]
end

end Writing

/-! ### Reading what was written -/

section Reading

open Json Json.Record

attribute [local simp ↓] Option.bind_eq_bind Option.bind_some

attribute [local simp] values_nil values_cons values_append values_fieldOpt values_fieldList
  values_ite Variant.record? Record.ofJson? str?

section Parts

attribute [local simp] required defaulted omissible ValueExpr.fields Location.fields

theorem VariableDecl.ofJsonAt?_toJson (place : Place) {v : VariableDecl}
    (h : ∀ e ∈ v.default, e.InRange) : ofJsonAt? place v.toJson = some v.kept := by
  obtain ⟨name, ty, default⟩ := v
  cases default
  case none => simp [ofJsonAt?, toJson, kept, fieldOpt]
  case some e =>
    have he := nullable?_of_some rfl (Expr.ofJsonAt?_toJson place (h e rfl))
    simp [ofJsonAt?, toJson, kept, fieldOpt, he]

theorem ValueExpr.ofRecord?_eq (h : v.expr.InRange)
    (hty : values "ty" r.fields = (v.ty.map TypeName.toJson).toList)
    (hexpr : values "expr" r.fields = [v.expr.toJson]) : ofRecord? r = some v.kept :=
  bind_of (omissible_self hty rfl fun _ _ => rfl) <|
    bind_of (required_of hexpr (Expr.ofJsonAt?_toJson .inside h)) rfl

theorem ValueExpr.ofJson?_toJson (h : v.expr.InRange) : ofJson? v.toJson = some v.kept :=
  bind_of rfl (ofRecord?_eq h (by simp) (by simp))

theorem Location.ofRecord?_eq {l : Location} {r : Record} (h : l.handle.InRange)
    (hty : values "ty" r.fields = (l.ty.map TypeName.toJson).toList)
    (hhandle : values "handle" r.fields = [l.handle.toJson]) : ofRecord? r = some l.kept :=
  bind_of (omissible_self hty rfl fun _ _ => rfl) <|
    bind_of (required_of hhandle (Expr.ofJsonAt?_toJson .inside h)) rfl

theorem Location.ofJson?_toJson {l : Location} (h : l.handle.InRange) :
    ofJson? l.toJson = some l.kept :=
  bind_of rfl (ofRecord?_eq h (by simp) (by simp))

theorem ArgumentValue.ofJson?_toJson {a : ArgumentValue} (h : a.InRange) :
    ofJson? a.toJson = some a.kept := by
  cases a with
  | value v =>
    refine bind_of (Variant.ofJson?_obj (by simp)) (bind_of rfl ?_)
    rw [ValueExpr.ofRecord?_eq h (by simp) (by simp)]
    rfl
  | location l =>
    refine bind_of (Variant.ofJson?_obj (by simp)) (bind_of rfl ?_)
    rw [Location.ofRecord?_eq h (by simp) (by simp)]
    rfl

theorem NodeArgument.ofJson?_toJson {a : NodeArgument} (h : a.value.InRange) :
    ofJson? a.toJson = some a.kept := by
  simp [ofJson?, toJson, kept, ArgumentValue.ofJson?_toJson h]

theorem FlowSwitchCase.ofJson?_toJson {c : FlowSwitchCase}
    (h : c.key.expr.InRange ∧ InWord 64 c.target) : ofJson? c.toJson = some c.kept := by
  simp [ofJson?, toJson, kept, ValueExpr.ofJson?_toJson h.1, word?_nat h.2]

theorem MessageContent.ofJson?_toJson {c : MessageContent} (h : c.InRange) :
    ofJson? c.toJson = some c.kept := by
  cases c with
  | message value =>
    exact bind_of (Variant.ofJson?_obj (by simp)) <| bind_of rfl <|
      bind_of (required_of (by simp) (ArgumentValue.ofJson?_toJson h)) rfl
  | parameters params =>
    have hparams : ∀ p ∈ params, pair? str? ArgumentValue.ofJson? (paramToJson p) =
        some (p.1, p.2.kept) := fun p hp => by
      simp [paramToJson, pair?, ArgumentValue.ofJson?_toJson (h p hp)]
    exact bind_of (Variant.ofJson?_obj (by simp)) <| bind_of rfl <|
      bind_of (required_of (by simp) (list?_map hparams)) rfl

end Parts

section Fields

variable {r : Record} {name : String}

theorem ValueExpr.required_of (h : v.expr.InRange) (hv : values name r.fields = [v.toJson]) :
    r.required name ValueExpr.ofJson? = some v.kept :=
  Record.required_of hv (ValueExpr.ofJson?_toJson h)

theorem ValueExpr.omissible_of {v : Option ValueExpr} (h : ValueExpr.OptInRange v)
    (hv : values name r.fields = (v.map ValueExpr.toJson).toList) :
    r.omissible name ValueExpr.ofJson? = some (v.map ValueExpr.kept) :=
  Record.omissible_of hv rfl fun u hu => ValueExpr.ofJson?_toJson (h u hu)

theorem ValueExpr.optional_of {v : Option ValueExpr} (h : ValueExpr.OptInRange v)
    (hv : values name r.fields = [ValueExpr.optionToJson v]) :
    r.optional name ValueExpr.ofJson? = some (v.map ValueExpr.kept) :=
  Record.optional_of hv (nullable?_orNull rfl fun u hu => ValueExpr.ofJson?_toJson (h u hu))

theorem Location.optional_of (h : Location.OptInRange l)
    (hv : values name r.fields = [orNull Location.toJson l]) :
    r.optional name Location.ofJson? = some (l.map Location.kept) :=
  Record.optional_of hv (nullable?_orNull rfl fun k hk => Location.ofJson?_toJson (h k hk))

theorem Json.Record.omissible_place (h : PlaceInRange i)
    (hv : values name r.fields = (i.map nat).toList) : r.omissible name (word? 64) = some i :=
  omissible_self hv rfl fun n hn => word?_nat (h n hn)

theorem Json.Record.optional_place (h : PlaceInRange i)
    (hv : values name r.fields = [orNull nat i]) : r.optional name (word? 64) = some i := by
  have hread : r.optional name (word? 64) = some (i.map id) :=
    optional_of hv (nullable?_orNull rfl fun n hn => word?_nat (h n hn))
  rwa [Option.map_id] at hread

theorem Json.Record.required_place (h : InWord 64 i)
    (hv : values name r.fields = [nat i]) : r.required name (word? 64) = some i :=
  required_of hv (word?_nat h)

theorem VariableDecl.read?_listField {vars : List VariableDecl} (h : VariableDecl.AllInRange vars)
    (hv : values "variables" r.fields = values "variables" (listField vars)) :
    VariableDecl.read? r = some (vars.map VariableDecl.kept) := by
  rw [listField, values_fieldList, if_pos rfl] at hv
  exact defaulted_of hv (by simp +contextual) fun _ => list?_map fun v hv =>
    VariableDecl.ofJsonAt?_toJson .inside (h v hv)

end Fields

/-- What is written of a messaging operation, after its tag, can be read again. -/
theorem MessagingNode.ofVariant?_fields {m : MessagingNode} (tag : String) (h : m.InRange) :
    ofVariant? ⟨tag, .obj (("node", .str tag) :: m.fields)⟩ = some m.kept := by
  have hinitializers : list? Location.ofJson?
      (.arr (m.correlationInitializers.map Location.toJson)) =
        some (m.correlationInitializers.map Location.kept) :=
    list?_map fun l hl => Location.ofJson?_toJson (h.initializers l hl)
  have hcontent : ∀ c ∈ m.content, MessageContent.ofJson? c.toJson = some c.kept :=
    fun c hc => MessageContent.ofJson?_toJson (h.content c hc)
  have hempty : m.correlationInitializers.isEmpty = true →
      [] = m.correlationInitializers.map Location.kept := by
    simp +contextual
  have hcreate : ¬False → bool? (.bool m.canCreateInstance) = some m.canCreateInstance :=
    fun _ => rfl
  simp only [MessagingNode.fields]
  exact bind_of rfl <| bind_of (required_str? (by simp)) <|
    bind_of (omissible_self (by simp) rfl fun _ _ => TypeName.ofJson?_toJson _) <|
    bind_of (omissible_str? (by simp)) <| bind_of (omissible_str? (by simp)) <|
    bind_of (Record.omissible_of (by simp) rfl hcontent) <|
    bind_of (ValueExpr.omissible_of h.correlatesWith (by simp)) <|
    bind_of (defaulted_of (by simp) hempty fun _ => hinitializers) <|
    bind_of (defaulted_of (by simp) False.elim hcreate) <|
    bind_of (ValueExpr.omissible_of h.endpoint (by simp)) rfl

abbrev Node.Reader := Json.Reader toJson InRange kept

section Children

open Node (Reader)

variable {node : Json → Option Node}

theorem Node.optional_of {r : Record} (R : Reader node (.obj r.fields)) :
    {n : Option Node} → OptInRange n → values name r.fields = [optionToJson n] →
    r.optional name node = some (keptOption n)
  | none, _, hv => Record.optional_of hv rfl
  | some n, h, hv =>
    Record.optional_of hv (nullable?_of_some R.null (R.read n h (depth_lt_of_values hv)))

theorem Node.omissible_of {r : Record} (R : Reader node (.obj r.fields)) :
    {n : Option Node} → OptInRange n → values name r.fields = (n.map toJson).toList →
    r.omissible name node = some (keptOption n)
  | none, _, hv => omissible_self (o := none) hv R.null fun _ h => nomatch h
  | some n, h, hv => Record.omissible_of (f := kept) hv R.null fun m hm => by
    cases hm
    exact R.read n h (depth_lt_of_values hv)

theorem Node.values_toJsonField (key name : String) (n : Option Node) :
    values key (toJsonField name n) = if name = key then (n.map toJson).toList else [] := by
  cases n <;> simp [toJsonField]

attribute [local simp] values_toJsonField VariableDecl.listField

theorem Node.list?_toJsonList : {ns : List Node} → AllInRange ns →
    Reader node (.arr (toJsonList ns)) → list? node (.arr (toJsonList ns)) = some (keptList ns)
  | [], _, _ => rfl
  | _ :: _, h, R => list?_cons (R.read_head h.1) (list?_toJsonList h.2 R.tail)

theorem CaseNode.list?_toJsonList : {cases : List CaseNode} → AllInRange cases →
    Reader node (.arr (toJsonList cases)) → list? (read? node) (.arr (toJsonList cases)) =
      some (keptList cases)
  | [], _, _ => rfl
  | .mk _ _ :: _, ⟨⟨hkey, hbody⟩, hrest⟩, R => by
    refine list?_cons ?_ (list?_toJsonList hrest R.tail)
    exact bind_of rfl <| bind_of (ValueExpr.required_of hkey (by simp)) <|
      bind_of (omissible_of R.head hbody (by simp)) rfl

theorem CatchNode.list?_toJsonList : {handlers : List CatchNode} → AllInRange handlers →
    Reader node (.arr (toJsonList handlers)) → list? (read? node) (.arr (toJsonList handlers)) =
      some (keptList handlers)
  | [], _, _ => rfl
  | .mk ty _ _ :: _, ⟨hbody, hrest⟩, R => by
    refine list?_cons ?_ (list?_toJsonList hrest R.tail)
    exact bind_of rfl <| bind_of (required_of (by simp) ty.ofJson?_toJson) <|
      bind_of (omissible_str? (by simp)) <| bind_of (omissible_of R.head hbody (by simp)) rfl

theorem PickBranchNode.list?_toJsonList : {branches : List PickBranchNode} → AllInRange branches →
    Reader node (.arr (toJsonList branches)) → list? (read? node) (.arr (toJsonList branches)) =
      some (keptList branches)
  | [], _, _ => rfl
  | .mk _ _ _ :: _, ⟨⟨hvars, htrigger, haction⟩, hrest⟩, R => by
    refine list?_cons ?_ (list?_toJsonList hrest R.tail)
    exact bind_of rfl <| bind_of (VariableDecl.read?_listField hvars (by simp)) <|
      bind_of (omissible_of R.head htrigger (by simp)) <|
      bind_of (omissible_of R.head haction (by simp)) rfl

theorem TransitionNode.list?_toJsonList : {transitions : List TransitionNode} →
    AllInRange transitions → Reader node (.arr (toJsonList transitions)) →
    list? (read? node) (.arr (toJsonList transitions)) = some (keptList transitions)
  | [], _, _ => rfl
  | .mk _ _ _ _ :: _, ⟨⟨htrigger, hcondition, haction, htarget⟩, hrest⟩, R => by
    refine list?_cons ?_ (list?_toJsonList hrest R.tail)
    exact bind_of rfl <| bind_of (omissible_place htrigger (by simp)) <|
      bind_of (ValueExpr.omissible_of hcondition (by simp)) <|
      bind_of (omissible_of R.head haction (by simp)) <|
      bind_of (required_place htarget (by simp)) rfl

theorem StateNode.list?_toJsonList : {states : List StateNode} → AllInRange states →
    Reader node (.arr (toJsonList states)) → list? (read? node) (.arr (toJsonList states)) =
      some (keptList states)
  | [], _, _ => rfl
  | .mk _ _ _ _ triggers transitions :: _, ⟨⟨hentry, hexit, htriggers, htransitions⟩, hrest⟩,
      R => by
    have hnoTriggers : triggers.isEmpty = true → Node.keptList triggers = [] := by
      simp +contextual [Node.keptList]
    have hnoTransitions : transitions.isEmpty = true →
        TransitionNode.keptList transitions = [] := by
      simp +contextual [TransitionNode.keptList]
    refine list?_cons ?_ (list?_toJsonList hrest R.tail)
    exact bind_of rfl <| bind_of (required_str? (by simp)) <|
      bind_of (required_bool? (by simp)) <|
      bind_of (Node.omissible_of R.head hentry (by simp)) <|
      bind_of (Node.omissible_of R.head hexit (by simp)) <|
      bind_of (R.head.defaulted_of (by simp) hnoTriggers (Node.list?_toJsonList htriggers)) <|
      bind_of (R.head.defaulted_of (by simp) hnoTransitions
        (TransitionNode.list?_toJsonList htransitions)) rfl

theorem FlowNode.list?_toJsonList : {nodes : List FlowNode} → AllInRange nodes →
    Reader node (.arr (toJsonList nodes)) → list? (read? node) (.arr (toJsonList nodes)) =
      some (keptList nodes)
  | [], _, _ => rfl
  | .step _ _ _ :: _, ⟨⟨haction, hnext⟩, hrest⟩, R => by
    refine list?_cons ?_ (list?_toJsonList hrest R.tail)
    exact bind_of (Variant.ofJson?_obj (by simp)) <| bind_of rfl <|
      bind_of (omissible_str? (by simp)) <| bind_of (omissible_of R.head haction (by simp)) <|
      bind_of (omissible_place hnext (by simp)) rfl
  | .decision _ _ _ _ :: _, ⟨⟨hcondition, htrue, hfalse⟩, hrest⟩, R => by
    refine list?_cons ?_ (list?_toJsonList hrest R.tail)
    exact bind_of (Variant.ofJson?_obj (by simp)) <| bind_of rfl <|
      bind_of (omissible_str? (by simp)) <|
      bind_of (ValueExpr.required_of hcondition (by simp)) <|
      bind_of (omissible_place htrue (by simp)) <|
      bind_of (omissible_place hfalse (by simp)) rfl
  | .switch _ _ _ _ :: _, ⟨⟨hvalue, hcases, hfallback⟩, hrest⟩, R => by
    refine list?_cons ?_ (list?_toJsonList hrest R.tail)
    exact bind_of (Variant.ofJson?_obj (by simp)) <| bind_of rfl <|
      bind_of (omissible_str? (by simp)) <| bind_of (ValueExpr.required_of hvalue (by simp)) <|
      bind_of (required_of (by simp) (list?_map fun c hc =>
        FlowSwitchCase.ofJson?_toJson (hcases c hc))) <|
      bind_of (omissible_place hfallback (by simp)) rfl

theorem ValueExpr.pair?_namedToJson (h : p.2.expr.InRange) :
    pair? str? ValueExpr.ofJson? (ValueExpr.namedToJson p) = some (p.1, p.2.kept) := by
  simp [ValueExpr.namedToJson, pair?, ValueExpr.ofJson?_toJson h]

/-- What is written of a kind of node can be read again, if the nodes inside it can. -/
theorem NodeKind.read?_toJson (place : Place) : (kind : NodeKind) → kind.InRange →
    Reader node kind.toJson → NodeKind.read? place node kind.toJson = some kind.kept
  | .sequence _ _, ⟨hvars, hactivities⟩, R =>
    bind_of (Variant.ofJson?_obj (by simp)) <| bind_of rfl <|
      bind_of (VariableDecl.read?_listField hvars (by simp)) <|
      bind_of (R.required_of (by simp) (list?_toJsonList hactivities)) rfl
  | .conditional _ _ _, ⟨hcondition, hyes, hno⟩, R =>
    bind_of (Variant.ofJson?_obj (by simp)) <| bind_of rfl <|
      bind_of (ValueExpr.required_of hcondition (by simp)) <|
      bind_of (optional_of R hyes (by simp)) <| bind_of (optional_of R hno (by simp)) rfl
  | .loop _ _ _, ⟨hcondition, hbody⟩, R =>
    bind_of (Variant.ofJson?_obj (by simp)) <| bind_of rfl <|
      bind_of (ValueExpr.required_of hcondition (by simp)) <|
      bind_of (optional_of R hbody (by simp)) <| bind_of (required_bool? (by simp)) rfl
  | .switch _ _ _, ⟨hvalue, hcases, hfallback⟩, R =>
    bind_of (Variant.ofJson?_obj (by simp)) <| bind_of rfl <|
      bind_of (ValueExpr.required_of hvalue (by simp)) <|
      bind_of (R.required_of (by simp) (CaseNode.list?_toJsonList hcases)) <|
      bind_of (optional_of R hfallback (by simp)) rfl
  | .raise _, h, _ | .delay _, h, _ =>
    bind_of (Variant.ofJson?_obj (by simp)) <| bind_of rfl <|
      bind_of (ValueExpr.required_of h (by simp)) rfl
  | .reraise, _, _ | .persist, _, _ => bind_of (Variant.ofJson?_obj rfl) <| bind_of rfl rfl
  | .guarded _ _ _, ⟨hbody, hhandlers, hfinal⟩, R =>
    bind_of (Variant.ofJson?_obj (by simp)) <| bind_of rfl <|
      bind_of (optional_of R hbody (by simp)) <|
      bind_of (R.required_of (by simp) (CatchNode.list?_toJsonList hhandlers)) <|
      bind_of (optional_of R hfinal (by simp)) rfl
  | .forEach ty _ _ _ _ _, ⟨hvalues, hbody, hcompletion⟩, R =>
    bind_of (Variant.ofJson?_obj (by simp)) <| bind_of rfl <|
      bind_of (required_of (by simp) ty.ofJson?_toJson) <|
      bind_of (required_str? (by simp)) <| bind_of (ValueExpr.required_of hvalues (by simp)) <|
      bind_of (optional_of R hbody (by simp)) <| bind_of (required_bool? (by simp)) <|
      bind_of (ValueExpr.optional_of hcompletion (by simp)) rfl
  | .parallel _ _, ⟨hbranches, hcompletion⟩, R =>
    bind_of (Variant.ofJson?_obj (by simp)) <| bind_of rfl <|
      bind_of (R.required_of (by simp) (list?_toJsonList hbranches)) <|
      bind_of (ValueExpr.optional_of hcompletion (by simp)) rfl
  | .pick _, h, R =>
    bind_of (Variant.ofJson?_obj (by simp)) <| bind_of rfl <|
      bind_of (R.required_of (by simp) (PickBranchNode.list?_toJsonList h)) rfl
  | .stateMachine _ _ _, ⟨hvars, hstates, hinitial⟩, R =>
    bind_of (Variant.ofJson?_obj (by simp)) <| bind_of rfl <|
      bind_of (VariableDecl.read?_listField hvars (by simp)) <|
      bind_of (R.required_of (by simp) (StateNode.list?_toJsonList hstates)) <|
      bind_of (required_place hinitial (by simp)) rfl
  | .flowchart _ _ _, ⟨hvars, hnodes, hstart⟩, R =>
    bind_of (Variant.ofJson?_obj (by simp)) <| bind_of rfl <|
      bind_of (VariableDecl.read?_listField hvars (by simp)) <|
      bind_of (R.required_of (by simp) (FlowNode.list?_toJsonList hnodes)) <|
      bind_of (optional_place hstart (by simp)) rfl
  | .transaction _ _, ⟨hbody, htimeout⟩, R =>
    bind_of (Variant.ofJson?_obj (by simp)) <| bind_of rfl <|
      bind_of (optional_of R hbody (by simp)) <|
      bind_of (ValueExpr.optional_of htimeout (by simp)) rfl
  | .cancellable _ _, ⟨hbody, honCancel⟩, R =>
    bind_of (Variant.ofJson?_obj (by simp)) <| bind_of rfl <|
      bind_of (optional_of R hbody (by simp)) <|
      bind_of (optional_of R honCancel (by simp)) rfl
  | .compensable _ _ _ _ _, ⟨htoken, hbody, hcompensation, hconfirmation, hcancellation⟩, R =>
    bind_of (Variant.ofJson?_obj (by simp)) <| bind_of rfl <|
      bind_of (Location.optional_of htoken (by simp)) <|
      bind_of (optional_of R hbody (by simp)) <|
      bind_of (optional_of R hcompensation (by simp)) <|
      bind_of (optional_of R hconfirmation (by simp)) <|
      bind_of (optional_of R hcancellation (by simp)) rfl
  | .confirm _, h, _ | .compensate _, h, _ =>
    bind_of (Variant.ofJson?_obj (by simp)) <| bind_of rfl <|
      bind_of (ValueExpr.optional_of h (by simp)) rfl
  | .noPersist _, h, R =>
    bind_of (Variant.ofJson?_obj (by simp)) <| bind_of rfl <|
      bind_of (optional_of R h (by simp)) rfl
  | .terminate _ _, ⟨hreason, hexception⟩, _ =>
    bind_of (Variant.ofJson?_obj (by simp)) <| bind_of rfl <|
      bind_of (ValueExpr.optional_of hreason (by simp)) <|
      bind_of (ValueExpr.optional_of hexception (by simp)) rfl
  | .receive op, h, _ | .send op, h, _ | .sendReply op, h, _ | .receiveReply op, h, _ => by
    refine bind_of (Variant.ofJson?_obj (by simp [MessagingNode.fields])) ?_
    simp [MessagingNode.ofVariant?_fields _ h, NodeKind.kept]
  | .initializeCorrelation _ _, ⟨hhandle, hdata⟩, _ =>
    bind_of (Variant.ofJson?_obj (by simp)) <| bind_of rfl <|
      bind_of (ValueExpr.required_of hhandle (by simp)) <|
      bind_of (required_of (by simp) (list?_map fun p hp =>
        ValueExpr.pair?_namedToJson (hdata p hp))) rfl
  | .transactedReceive _ _ _, ⟨hvars, hrequest, hbody⟩, R =>
    bind_of (Variant.ofJson?_obj (by simp)) <| bind_of rfl <|
      bind_of (VariableDecl.read?_listField hvars (by simp)) <|
      bind_of (R.required hrequest (by simp)) <| bind_of (optional_of R hbody (by simp)) rfl
  | .invoke _ _ _, ⟨harguments, hresult⟩, _ =>
    bind_of (Variant.ofJson?_obj (by simp)) <| bind_of rfl <|
      bind_of (required_str? (by simp)) <|
      bind_of (required_of (by simp) (list?_map fun a ha =>
        NodeArgument.ofJson?_toJson (harguments a ha))) <|
      bind_of (Location.optional_of hresult (by simp)) rfl
  | .code _, h, _ =>
    bind_of (Variant.ofJson?_obj (by simp)) <| bind_of rfl <|
      bind_of (required_of (by simp) (CodeStmt.list?_toJsonList .inside h)) rfl

end Children

theorem Node.read?_toJson : {x : Node} → x.InRange →
    x.toJson.depth ≤ n → read? n place x.toJson = some x.kept := by
  induction n generalizing place with
  | zero =>
    rintro ⟨_, _⟩ - h
    exact absurd h (by simp [toJson, depth])
  | succ n ih =>
    rintro ⟨name, kind⟩ hrange h
    have hdepth : kind.toJson.depth ≤ n := by
      have hkind : values "kind" (fieldOpt "displayName" Json.str name ++
          [("kind", kind.toJson)]) = [kind.toJson] := by simp
      exact Nat.le_of_lt_succ (Nat.lt_of_lt_of_le (depth_lt_of_values hkind) h)
    have R : Reader (read? n .inside) kind.toJson :=
      ⟨by cases n <;> rfl, fun m hm hlt => ih hm (by omega)⟩
    exact bind_of rfl <| bind_of (omissible_str? (by simp)) <|
      bind_of (required_of (by simp) (NodeKind.read?_toJson place kind hrange R)) rfl

/-- What is written of a node is read as the node, except that spans that point nowhere become the
span of expressions that the compiler makes; and it is written like the node again. -/
theorem Node.json_roundtrip {x : Node} (h : x.InRange) :
    ofJson? x.toJson = some x.kept ∧ x.kept.toJson = x.toJson :=
  ⟨read?_toJson h (Nat.le_succ _), x.toJson_kept⟩

end Reading

/-- A flowchart that goes on and on with `int n = 1;`. -/
def circlingNode (span : Span) : Node :=
  .mk (some "again") (.flowchart [{ name := "i", ty := ⟨"int"⟩ }]
    [.step none (some (.code [.declare "n" ⟨"int"⟩ (some (.literal { span := span } (.int 1)))
      span])) (some 0)] (some 0))

theorem Node.json_roundtrip_circlingNode :
    ofJson? (circlingNode { unit := 3 }).toJson = some (circlingNode {}) ∧
      (circlingNode {}).toJson = (circlingNode { unit := 3 }).toJson := by
  have hspan : Span.InRange { unit := 3 } := by
    constructor <;> decide
  have hplace : PlaceInRange (some 0) := by
    rintro _ ⟨⟩
    exact Json.inWord_zero 64
  have hcode : CodeStmt.AllInRange [.declare "n" ⟨"int"⟩
      (some (.literal { span := { unit := 3 } } (.int 1))) { unit := 3 }] :=
    ⟨⟨⟨⟨nofun, hspan⟩, by decide, by decide⟩, hspan⟩, trivial⟩
  have hvars : VariableDecl.AllInRange [{ name := "i", ty := ⟨"int"⟩ }] := by
    simp [VariableDecl.AllInRange]
  exact json_roundtrip ⟨hvars, ⟨⟨hcode, hplace⟩, trivial⟩, hplace⟩

end Workflow
