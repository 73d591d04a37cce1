import Workflow.Activity.Build.Unit
import Workflow.Proofs.Build.Control

/-!
# What the builder of an activity adds

The statements of an activity fill its arena from the root on, each stands where it may and is in
the unit that is built, no two expressions of the activity have the same identity, and no two of its
fragments and stores the same marker.
-/

namespace Workflow

open Activity List StmtKind

variable {seen : List String}

namespace Build

variable {s t u : BuildState} {S : Source} {p : Option StmtId} {id parent : StmtId} {d : Nat}
  {node : ParseNode} {build : Inner}

/-! ### State machines -/

section Graphs

variable (hn : node.Below S (d + 1))

include hn

theorem ok_requiredTarget :
    Ok S (requiredTarget S.unit node) s fun r t => t = s ∧ r.span.unit = S.unit := by
  refine (ok_nodeRef hn "target").bind ?_
  rintro (_ | target) _ ⟨rfl, htarget⟩
  · exact .fail _ _ rfl
  · exact .pure ⟨rfl, htarget target mem_cons_self⟩

variable (hb : Builds S d build)

include hb

theorem ok_transitionBody (hr : Ready S (some id) s) :
    Ok S (transitionBody S.unit build id node) s fun b t =>
      Parts S (some id) [.transitionBody] s t [b] := by
  refine (ok_alloc .transitionBody (some id) _).bind fun bodyId t ho => ?_
  have hr := ho.ready hr
  refine (ok_optionalFragment hn hr "condition").bind fun condition u hu => ?_
  refine (ok_optionalStmt hb hn (hu.ready hr) "action").bind fun action v hv => ?_
  refine (ok_requiredTarget hn).bind ?_
  rintro target _ ⟨rfl, htarget⟩
  refine (ho.close (k := .transitionBody condition action target) (((hu.trans hv).cast rfl rfl
    (append_nil _)).fitted ho.tag_eq (.of_simple rfl (fun _ hm => by cases hm)
    (fun _ hi => by cases hi) fun r hr => ?_))).bind fun _ w hw => .pure hw
  rw [mem_singleton.1 hr]
  exact htarget

theorem ok_transition (hr : Ready S (some id) s) :
    Ok S (transition S.unit build id node) s fun r t =>
      Parts S (some id) [.transition] s t [r] := by
  refine .ite (fun _ => .bind_invalid) fun _ => ?_
  refine (ok_alloc .transition (some id) _).bind fun tid t ho => ?_
  have hr := ho.ready hr
  refine (ok_optionalStmt hb hn hr "trigger").bind fun trigger u hu => ?_
  have hr := hu.ready hr
  have hitem : ∀ item ∈ node.items, ∀ s, Ready S (some tid) s →
      Ok S (transitionItem S.unit build tid item) s fun b t =>
        Parts S (some tid) [.transitionBody] s t [b] := fun item hmem s hr =>
    .ite (fun _ => .bind_invalid) fun _ => ok_transitionBody (hn.item hmem).succ hb hr
  have hrest : ∀ own v, Parts S (some tid) [.transitionBody] u v own → Ok S (do
      let listed ← node.items.mapM (transitionItem S.unit build tid)
      let bodies := own ++ listed
      if bodies.isEmpty then
        missingTarget S.unit node
      setKind tid (.transition trigger bodies)
      return tid) v fun r w => Parts S (some id) [.transition] s w [r] := by
    intro own v hv
    refine (ok_mapM_parts hitem (hv.ready hr)).bind fun listed w hw => ?_
    refine .ite (fun _ => .bind_fail rfl) fun hsome => ?_
    have hbodies := hv.append hw
    exact (ho.close (k := .transition trigger (own ++ listed)) (((hu.trans hbodies.toGrown).cast
      rfl (append_nil _) rfl).fitted ho.tag_eq (.of_ruled rfl hbodies.tags
      (fun _ hi => by cases hi) (fun _ hr => by cases hr)
      (ruled_of_face (by simpa [isComplete] using hsome) rfl rfl)
      (sheltered_of_tag rfl)))).bind fun _ x hx => .pure hx
  refine .ite (fun _ => ?_) fun _ => hrest [] u (.nil hr)
  exact (Ok.map (ok_transitionBody hn hb hr)).bind hrest

theorem ok_state (hr : Ready S (some id) s) (name : String)
    (hout : isFinal = true → node.items = [] ∧ node.member "exit" = none) :
    Ok S (state S.unit build id node name isFinal) s fun r t =>
      Parts S (some id) [.state] s t [r] ∧ (t.activity.kind r).nodeName = some name := by
  refine (ok_alloc .state (some id) _).bind fun sid t ho => ?_
  have hr := ho.ready hr
  refine (ok_optionalStmt hb hn hr "entry").bind fun entry u hu => ?_
  have hr := hu.ready hr
  have hexit : Ok S (optionalStmt S.unit build node "exit" sid) u fun r t =>
      Grown S (some sid) u t r.toList r.toList [] ∧ (isFinal = true → r = none) := by
    cases isFinal with
    | false => exact (ok_optionalStmt hb hn hr "exit").mono fun _ _ h => ⟨h, fun h => by cases h⟩
    | true =>
      unfold optionalStmt
      rw [(hout rfl).2]
      exact .pure ⟨.refl hr, fun _ => rfl⟩
  refine hexit.bind fun exit v ⟨hv, hnone⟩ => ?_
  have htransitions : Ok S (node.items.mapM (transition S.unit build sid)) v fun ids t =>
      Parts S (some sid) [.transition] v t ids ∧ (isFinal = true → ids = []) := by
    cases isFinal with
    | false =>
      exact (ok_mapM_parts (fun item hmem s hr => ok_transition (hn.item hmem).succ hb hr)
        (hv.ready hr)).mono fun _ _ h => ⟨h, fun h => by cases h⟩
    | true =>
      rw [(hout rfl).1]
      exact .pure ⟨.nil (hv.ready hr), fun _ => rfl⟩
  refine htransitions.bind fun transitions w ⟨hw, hnil⟩ => ?_
  have hcomplete : (StmtKind.state name isFinal entry exit transitions).isComplete = true := by
    cases isFinal with
    | false => rfl
    | true => rw [hnone rfl, hnil rfl]; rfl
  exact (ho.close_kind (k := .state name isFinal entry exit transitions) ((((hu.trans hv).trans
    hw.toGrown).cast rfl (append_nil _) rfl).fitted ho.tag_eq (.of_ruled rfl hw.tags
    (fun _ hi => by cases hi) (fun _ hr => by cases hr)
    (ruled_of_face hcomplete rfl rfl) (sheltered_of_tag rfl)))).bind
    fun _ x hx => .pure ⟨hx.1, congrArg nodeName hx.2⟩

omit hn hb in
theorem Parts.cons_named {tags : List StmtTag} {name : Option String} {m : StmtId}
    {ids : List StmtId} (h : Parts S p tags s t [m] ∧ (t.activity.kind m).nodeName = name)
    (h' : Parts S p tags t u ids ∧ (u.activity.nodeNames ids ++ (name.toList ++ seen)).Nodup) :
    Parts S p tags s u (m :: ids) ∧ (u.activity.nodeNames (m :: ids) ++ seen).Nodup := by
  refine ⟨h.1.append h'.1, ?_⟩
  have hname : (u.activity.kind m).nodeName = name := by
    rw [h'.1.kind m (h.1.fills.mem_lt mem_cons_self), h.2]
  rw [nodeNames, filterMap_cons, hname]
  cases name with
  | none => exact h'.2
  | some name => exact nodup_middle.1 h'.2

omit hn in
theorem ok_states (hr : Ready S (some id) s) (hseen : seen.Nodup) (nodes : List ParseNode)
    (hn : ∀ n ∈ nodes, n.Below S (d + 1)) : Ok S (states S.unit build id seen nodes) s fun ids t =>
      Parts S (some id) [.state] s t ids ∧ (t.activity.nodeNames ids ++ seen).Nodup := by
  induction nodes generalizing s seen with
  | nil => exact .pure ⟨.nil hr, hseen⟩
  | cons node rest ih =>
    obtain ⟨hn, hrest⟩ := forall_mem_cons.1 hn
    have hfinal : Ok S (stateIsFinal S.unit node) s fun _ t => t = s := by
      refine .ite (fun _ => .pure rfl) fun _ => ?_
      exact .ite (fun _ => .pure rfl) fun _ => .invalid _ _
    refine hfinal.bind ?_
    rintro isFinal _ rfl
    refine .bind_text hn fun name => ?_
    refine .ite (fun _ => .bind_fail rfl) fun hnew => ?_
    refine .ite (fun _ => .bind_fail rfl) fun hout => ?_
    have hout : isFinal = true → node.items = [] ∧ node.member "exit" = none := by
      simpa using hout
    refine (ok_state hn hb hr name hout).bind fun sid t ht => ?_
    have hseen : (name :: seen).Nodup := nodup_cons.2 ⟨by simpa using hnew, hseen⟩
    exact (ih (ht.1.ready hr) hseen hrest).bind fun ids u hu => .pure (Parts.cons_named ht hu)

theorem fits_stateMachine : Fits S parent id .stateMachine (stateMachine S.unit build node id) := by
  intro s hr htag _
  refine (ok_hostVariables hn hr (by rw [htag]; rfl)).bind fun _ t ht => ?_
  refine (ok_nodeRef hn "start").bind ?_
  rintro start _ ⟨rfl, hstart⟩
  refine (ok_states hb (ht.ready hr) .nil _ fun n hmem => (hn.item hmem).succ).bind
    fun states u ⟨hu, hnames⟩ => ?_
  exact .pure ((ht.trans hu.toGrown).fitted htag (.of_ruled rfl hu.tags
    (fun _ hi => by cases hi) hstart ⟨rfl, fun _ hm => (by cases hm), hnames.of_append_left⟩
    (sheltered_of_tag rfl)))

/-! ### Flowcharts -/

theorem ok_flowStep (hr : Ready S (some id) s) : Ok S (flowStep S.unit build id node) s fun r t =>
      Parts S (some id) [.flowStep] s t [r] ∧ (t.activity.kind r).nodeName = node.text := by
  refine (ok_alloc .flowStep (some id) _).bind fun nid t ho => ?_
  refine (ok_requiredStmt hb hn (ho.ready hr) "action").bind fun action u hu => ?_
  refine (ok_nodeRef hn "next").bind ?_
  rintro next _ ⟨rfl, hnext⟩
  exact (ho.close_kind (k := .flowStep node.text action next none) (hu.fitted ho.tag_eq
    (.of_simple rfl (fun _ hm => by cases hm) (fun _ hi => by cases hi) hnext))).bind
    fun _ v hv => .pure ⟨hv.1, congrArg nodeName hv.2⟩

omit hb in
theorem ok_flowIf (hr : Ready S (some id) s) : Ok S (flowIf S.unit id node) s fun r t =>
      Parts S (some id) [.flowIf] s t [r] ∧ (t.activity.kind r).nodeName = node.text := by
  refine (ok_alloc .flowIf (some id) _).bind fun nid t ho => ?_
  refine (ok_fragment hn (ho.ready hr) "condition").bind fun condition u hu => ?_
  refine (ok_nodeRef hn "true").bind ?_
  rintro onTrue _ ⟨rfl, htrue⟩
  refine (ok_nodeRef hn "false").bind ?_
  rintro onFalse _ ⟨rfl, hfalse⟩
  exact (ho.close_kind (k := .flowIf node.text condition onTrue onFalse) (hu.fitted ho.tag_eq
    (.of_simple rfl (fun _ hm => by cases hm) (fun _ hi => by cases hi)
    (forall_mem_append.2 ⟨htrue, hfalse⟩)))).bind
    fun _ v hv => .pure ⟨hv.1, congrArg nodeName hv.2⟩

omit hb in
theorem ok_flowSwitch (hr : Ready S (some id) s) : Ok S (flowSwitch S.unit id node) s fun r t =>
      Parts S (some id) [.flowSwitch] s t [r] ∧ (t.activity.kind r).nodeName = node.text := by
  refine (ok_alloc .flowSwitch (some id) _).bind fun nid t ho => ?_
  have hr := ho.ready hr
  have hcase : ∀ case ∈ node.items, ∀ s, Ready S (some nid) s →
      Ok S (flowCase S.unit case) s fun c t =>
        Grown S (some nid) s t [] [] [c.key] ∧ c.target.span.unit = S.unit := by
    intro case hmem s hr
    have hn := (hn.item hmem).succ
    refine (ok_requiredTarget hn).bind ?_
    rintro target _ ⟨rfl, htarget⟩
    exact (ok_fragment hn hr "key").bind fun key t ht => .pure ⟨ht, htarget⟩
  refine (ok_fragment hn hr "value").bind fun value u hu => ?_
  refine (ok_mapM hcase (hu.ready hr)).bind fun cases v ⟨hv, htargets⟩ => ?_
  refine (ok_nodeRef hn "default").bind ?_
  rintro fallback _ ⟨rfl, hfallback⟩
  refine (ho.close_kind (k := .flowSwitch node.text value cases fallback) (((hu.trans hv).cast ?_
    ?_ ?_).fitted ho.tag_eq (.of_simple rfl (fun _ hm => by cases hm) (fun _ hi => by cases hi)
    (forall_mem_append.2 ⟨forall_mem_map.2 htargets, hfallback⟩)))).bind
    fun _ w hw => .pure ⟨hw.1, congrArg nodeName hw.2⟩
  · simp [children]
  · simp [StmtKind.inner, children]
  · simp [slots, map_eq_flatMap]

theorem ok_flowNode (hr : Ready S (some id) s) : Ok S (flowNode S.unit build id node) s fun r t =>
      Parts S (some id) [.flowStep, .flowIf, .flowSwitch] s t [r] ∧
        (t.activity.kind r).nodeName = node.text := by
  unfold flowNode
  split
  · exact (ok_flowStep hn hb hr).mono fun r t ht => ht.imp_left (·.weaken (by simp))
  · exact (ok_flowIf hn hr).mono fun r t ht => ht.imp_left (·.weaken (by simp))
  · exact (ok_flowSwitch hn hr).mono fun r t ht => ht.imp_left (·.weaken (by simp))
  · exact .invalid _ _

omit hn in
theorem ok_flowNodes (hr : Ready S (some id) s) (hseen : seen.Nodup) (nodes : List ParseNode)
    (hn : ∀ n ∈ nodes, n.Below S (d + 1)) :
    Ok S (flowNodes S.unit build id seen nodes) s fun ids t =>
      Parts S (some id) [.flowStep, .flowIf, .flowSwitch] s t ids ∧
        (t.activity.nodeNames ids ++ seen).Nodup := by
  induction nodes generalizing s seen with
  | nil => exact .pure ⟨.nil hr, hseen⟩
  | cons node rest ih =>
    obtain ⟨hn, hrest⟩ := forall_mem_cons.1 hn
    have hname : Ok S (newName S.unit seen node) s fun seen' t =>
        (seen' = node.text.toList ++ seen ∧ seen'.Nodup) ∧ t = s := by
      unfold newName
      cases node.text with
      | none => exact .pure ⟨⟨rfl, hseen⟩, rfl⟩
      | some name =>
        refine .ite (fun _ => .fail _ _ rfl) fun hnew => .pure ⟨⟨rfl, ?_⟩, rfl⟩
        exact nodup_cons.2 ⟨by simpa using hnew, hseen⟩
    refine hname.bind ?_
    rintro _ _ ⟨⟨rfl, hseen⟩, rfl⟩
    refine (ok_flowNode hn hb hr).bind fun nid t ht => ?_
    exact (ih (ht.1.ready hr) hseen hrest).bind fun ids u hu => .pure (Parts.cons_named ht hu)

theorem fits_flow : Fits S parent id .flow (flow S.unit build node id) := by
  intro s hr htag _
  refine (ok_hostVariables hn hr (by rw [htag]; rfl)).bind fun _ t ht => ?_
  refine (ok_flowNodes hb (ht.ready hr) .nil _ fun n hmem => (hn.item hmem).succ).bind
    fun nodes u ⟨hu, hnames⟩ => ?_
  exact .pure ((ht.trans hu.toGrown).fitted htag (.of_ruled rfl hu.tags
    (fun _ hi => by cases hi) (fun _ hr => by cases hr)
    ⟨rfl, fun _ hm => (by cases hm), hnames.of_append_left⟩ (sheltered_of_tag rfl)))

end Graphs

/-! ### Messaging -/

section Messaging

theorem ok_contentParameters (hn : node.Below S (d + 1)) (hr : Ready S p s) :
    Ok S (contentParameters S.unit node) s fun ps t => Grown S p s t [] [] (ps.map (·.value)) := by
  have hparam : ∀ param ∈ node.items, ∀ s, Ready S p s → Ok S (contentParameter S.unit param) s
      fun c t => Grown S p s t [] [] [c.value] ∧ True := by
    intro param hmem s hr
    refine .ite (fun _ => .bind_invalid) fun _ => .bind_text (hn.item hmem) fun name => ?_
    split
    · exact .invalid _ _
    · exact (ok_fragmentOf param hr _).bind fun f t ht => .pure ⟨ht, trivial⟩
  exact (ok_mapM hparam hr).mono fun ps t ht =>
    ht.1.cast (by simp) (by simp) map_eq_flatMap.symm

theorem ok_content (hn : node.Below S (d + 1)) (hr : Ready S p s) :
    Ok S (content S.unit node) s fun c t =>
      Grown S p s t [] [] (c.toList.flatMap Content.fragments) := by
  unfold content
  split
  · exact .pure (.refl hr)
  next hcontent =>
  split
  · split
    · exact .invalid _ _
    · exact (ok_fragmentOf _ hr _).bind fun f t ht => .pure ht
  · refine (ok_contentParameters (hn.member hcontent).succ hr).bind fun ps t ht =>
      .pure (ht.cast rfl rfl ?_)
    simp [Content.fragments]
  · exact .invalid _ _

theorem ok_operation (hn : node.Below S (d + 1)) (hr : Ready S p s) (kind : ServiceKind) :
    Ok S (operation S.unit kind node) s fun op t =>
      Grown S p s t [] [] op.slots ∧ op.IsUnlinked ∧ op.kind = kind := by
  have hrest : Ok S (do
      let canCreateInstance := node.hasFlag "create-instance"
      if canCreateInstance && kind != .receive then
        invalid S.unit node "only receive can create an instance"
      let requestName := node.memberText "request"
      if requestName.isSome && !kind.isReply then
        invalid S.unit node "only replies name a request"
      let content ← content S.unit node
      let correlatesWith ← optionalFragment S.unit node "correlates-with"
      let endpoint ← optionalFragment S.unit node "endpoint"
      return ({ kind := kind
                name := node.text
                contract := (node.memberText "contract").map TypeName.mk
                operation := node.memberText "operation"
                content := content
                correlatesWith := correlatesWith
                canCreateInstance := canCreateInstance
                endpoint := endpoint
                requestName := requestName } : ServiceOperation)) s
      fun op t => Grown S p s t [] [] op.slots ∧ op.IsUnlinked ∧ op.kind = kind := by
    refine .ite (fun _ => .bind_invalid) fun _ => .ite (fun _ => .bind_invalid) fun _ => ?_
    refine (ok_content hn hr).bind fun content t ht => ?_
    have hr := ht.ready hr
    refine (ok_optionalFragment hn hr "correlates-with").bind fun c u hu => ?_
    refine (ok_optionalFragment hn (hu.ready hr) "endpoint").bind fun e v hv => ?_
    exact .pure ⟨(ht.trans hu).trans hv, ⟨rfl, rfl, rfl⟩, rfl⟩
  refine .ite (fun _ => ?_) fun _ => hrest
  exact .bind_require hn fun _ _ => .bind_require hn fun _ _ => hrest

theorem ok_service (hn : node.Below S (d + 1)) (kind : ServiceKind) (hr : Ready S (some id) s)
    (htag : s.activity.tag id = .service) (hlast : ∀ i ∈ s.activity.serviceOperations, i < id) :
    Ok S (service S.unit kind node id) s fun k t =>
      Fitted S id s t k ∧ k.isReceive = (kind == .receive) := by
  have hin := hr.inside id rfl
  have hstart : Ready S none s := ⟨hr.intact, by rintro _ ⟨⟩⟩
  refine (ok_operation hn hstart kind).bind fun op t ⟨ht, hop, hkind⟩ => ?_
  have hsize := ht.size_eq
  -- nothing was registered meanwhile, as no statement was added
  have hlast' : ∀ i ∈ t.activity.serviceOperations, i < id := fun i hi => by
    rcases ht.operations i hi with hold | hge | hself
    · exact hlast i hold
    · exact absurd (hsize ▸ (ht.intact.service i hi).1) (Nat.not_lt.2 hge)
    · cases hself
  have hregister := ht.intact.register (hsize ▸ hin) ((ht.tag id hin).trans htag) hlast'
  refine .bind_modifyActivity (.pure ⟨Grown.fitted (ht.inside.trans_nil
    (.of_arena_eq hregister rfl rfl rfl (fun i hi => ?_) rfl)) htag
    ⟨rfl, fun _ hm => (by cases hm), fun _ hi => (by cases hi),
      fun _ hm => (by cases hm), fun op' hop' => ?_, fun _ hi => (by cases hi),
      fun _ hr => (by cases hr), ruled_of_face rfl rfl rfl,
      sheltered_of_tag rfl⟩, hkind ▸ rfl⟩)
  · rcases mem_append.1 hi with hi | hi
    · exact .inl hi
    · exact .inr (congrArg some (mem_singleton.1 hi).symm)
  · cases hop'
    exact ⟨mem_append_right _ (mem_singleton.2 rfl), hop⟩

theorem fits_service (hn : node.Below S (d + 1)) (kind : ServiceKind) :
    Fits S parent id .service (service S.unit kind node id) := fun _ hr htag hlast =>
  (ok_service hn kind hr htag hlast.1).mono fun _ _ h => h.1

theorem fits_contentCorrelation (hn : node.Below S (d + 1)) :
    Fits S parent id .contentCorrelation (contentCorrelation S.unit node) := by
  intro s hr htag _
  refine (ok_fragment hn hr "handle").bind fun handle t ht => ?_
  refine (ok_contentParameters hn (ht.ready hr)).bind fun data u hu => ?_
  exact .pure ((ht.trans hu).fitted htag (.plain rfl rfl rfl rfl))

theorem fits_transactedReceive (hn : node.Below S (d + 1)) (hb : Builds S d build) :
    Fits S parent id .transactedReceive (transactedReceive S.unit build node id) := by
  intro s hr htag _
  refine (ok_hostVariables hn hr (by rw [htag]; rfl)).bind fun _ t ht => ?_
  have hr := ht.ready hr
  refine .bind_require hn fun request hrequest => ?_
  refine .ite (fun _ => .bind_invalid) fun hlabel => ?_
  have hlabel : request.label = "receive" := by simpa using hlabel
  refine (ok_stmtOrEmpty hb hrequest hr).bind fun requestId u ⟨hu, hservice⟩ => ?_
  refine (ok_requiredStmt hb hn (hu.ready hr) "body").bind fun body v hv => ?_
  refine .pure (((ht.trans hu).trans hv).fitted htag
    ⟨rfl, fun _ hm => (by cases hm), fun _ hi => (by cases hi), fun m hm => ?_,
      fun _ hop => (by cases hop), fun _ hi => (by cases hi), fun _ hr => (by cases hr),
      ⟨rfl, fun m hm => ?_, .nil⟩, sheltered_of_tag rfl⟩)
  · cases hm
    rw [hv.tag requestId (hu.fills.mem_lt mem_cons_self)]
    exact (hservice hlabel).1
  · cases hm
    rw [hv.kind requestId (hu.fills.mem_lt mem_cons_self)]
    exact (hservice hlabel).2

end Messaging

/-! ### Statements -/

theorem fits_parts (hn : node.Below S (d + 1)) (hb : Builds S d build)
    {label : String} {tag : StmtTag} (h : tag? label = some tag) (hin : parent < id) :
    Fits S parent id tag (parts S.unit build tag node parent id) ∧ tag.isPart = false ∧
      (label = "receive" → tag = .service) := by
  unfold tag? at h
  split at h <;> cases h <;> refine ⟨?_, rfl, by simp⟩
  · exact fits_code
  · exact fun s hr htag _ => .pure ((Grown.refl hr).fitted htag (.plain rfl rfl rfl rfl))
  · exact fits_conditional hn hb
  · exact fits_loop hn hb
  · exact fits_loop hn hb
  · exact fits_switch hn hb
  · exact fits_raise hn
  · exact fits_guarded hn hb
  · exact fits_forEach hn hb
  · exact fits_forEach hn hb
  · exact fun s hr htag _ => (ok_fragment hn hr "duration").bind fun f t ht =>
      .pure (ht.fitted htag (.plain rfl rfl rfl rfl))
  · exact fits_parallel hn hb
  · exact fits_pick hn hb
  · exact fits_stateMachine hn hb
  · exact fits_flow hn hb
  · exact fits_transacted hn hb
  · exact fits_cancellable hn hb
  · exact fits_compensable hn hb hin
  · exact fun s hr htag _ => (ok_optionalFragment hn hr "target").bind fun f t ht =>
      .pure (ht.fitted htag (.plain rfl rfl rfl rfl))
  · exact fun s hr htag _ => (ok_optionalFragment hn hr "target").bind fun f t ht =>
      .pure (ht.fitted htag (.plain rfl rfl rfl rfl))
  · exact fits_persist
  · exact fun s hr htag _ => (ok_requiredStmt hb hn hr "body").bind fun body t ht =>
      .pure (ht.fitted htag (.plain rfl rfl rfl rfl))
  · exact fits_terminate hn
  · exact fits_service hn _
  · exact fits_service hn _
  · exact fits_service hn _
  · exact fits_service hn _
  · exact fits_contentCorrelation hn
  · exact fits_transactedReceive hn hb

theorem builds_stmtWith (hb : Builds S d build) : Builds S (d + 1) (stmtWith S.unit build) := by
  intro node parent s hn hr
  refine .ite (fun hl => ?_) fun _ => .ite (fun hl => ?_) fun _ => ?_
  · refine (ok_varStatement hn hr).mono fun _ t ht => ⟨ht, fun h => ?_⟩
    simp [h] at hl
  · refine .map ((ok_sequence hb hn hr).mono fun _ t ht => ⟨ht, fun h => ?_⟩)
    simp [h] at hl
  split
  · exact .fail _ _ rfl
  · next tag htag =>
    refine (ok_alloc tag (some parent) _).bind fun id t ho => ?_
    have hin : parent < id := ho.1 ▸ hr.inside parent rfl
    obtain ⟨hfits, hpart, hrequest⟩ := fits_parts hn hb htag hin
    have hkind : Ok S (parts S.unit build tag node parent id) t fun k u =>
        Fitted S id t u k ∧ (node.label = "receive" → k.isReceive = true) := by
      by_cases hl : node.label = "receive"
      · obtain rfl := hrequest hl
        have hreceive : serviceKind node.label = .receive := by rw [hl]; rfl
        rw [parts, hreceive]
        exact (ok_service hn .receive (ho.ready hr) ho.tag_eq (ho.last hr)).mono
          fun _ _ h => ⟨h.1, fun _ => h.2⟩
      · exact (hfits t (ho.ready hr) ho.tag_eq ⟨ho.last hr, ho.parent_eq⟩).mono
          fun _ _ h => ⟨h, fun h' => absurd h' hl⟩
    refine hkind.bind fun k u ⟨hu, hreceive⟩ => ?_
    refine (ho.close_kind hu).bind fun _ v ⟨hv, hvk⟩ =>
      .pure ⟨hv.standing hpart, fun hl => ⟨id, rfl, ?_, hvk ▸ hreceive hl⟩⟩
    rw [mem_singleton.1 (hv.tags id mem_cons_self), hrequest hl]

theorem builds_stmt (S : Source) (d : Nat) : Builds S d (stmt S.unit d) := by
  induction d with
  | zero => exact fun node parent s hn _ => hn.elim
  | succ d ih => exact builds_stmtWith ih

theorem ok_body (hn : node.Below S node.depth) (hr : Ready S none s) :
    Ok S (body S.unit node) s fun root t => Grown S none s t [root] [root] [] := by
  have hb := builds_stmt S node.depth
  refine .ite (fun _ => ok_sequence hb hn.succ hr) fun _ => ?_
  refine (ok_alloc .sequence none _).bind fun root t ho => ?_
  refine (hb node root t hn (ho.ready hr)).bind fun member u hu => ?_
  have hfitted : Fitted S root t u (.sequence member.toList) := by
    have hone : chainCode u.activity member.toList = u.activity := by cases member <;> rfl
    have h := hu.1.fitted_sequence ho.tag_eq
    rwa [hone] at h
  exact (ho.close hfitted).bind fun _ v hv => .pure (hv.standing rfl)

/-! ### Activities -/

theorem ok_parameter (hn : node.Below S d) (hr : Ready S none s) :
    Ok S (parameter S.unit node) s fun _ t => Grown S none s t [] [] [] := by
  have hrest : ∀ name ty (direction : Direction), Ok S (do
      let id ← declare .activity name ⟨ty⟩ (.ofDirection direction) (node.span.inUnit S.unit)
      modifyActivity fun a => { a with parameters := a.parameters ++ [id] }) s
      fun _ t => Grown S none s t [] [] [] := by
    intro name ty direction
    refine (ok_declare hr (fun i hi => by cases hi) _ _ _).bind ?_
    rintro k t ⟨ht, hnew, m, hst⟩
    refine .modifyActivity (ht.trans_nil (.of_arena_eq (ht.intact.of_arena ?_ rfl rfl rfl
      ht.intact.result) rfl rfl rfl (fun _ => .inl) rfl))
    exact ht.intact.sound.addParameter hnew hst rfl (by cases direction <;> rfl)
  refine .bind_text hn fun name => .bind_require hn.succ fun tyNode hty => ?_
  refine .bind_text hty fun ty => ?_
  split
  · exact hrest name ty _
  · split
    · exact hrest name ty _
    · exact .bind_invalid

theorem ok_result {result : ParseNode} (hn : result.Below S d) (hr : Ready S none s) : Ok S (do
      let ty ← check result.requireText
      let id ← declare .activity resultName ⟨ty⟩ .result (result.span.inUnit S.unit)
      modifyActivity fun a => { a with result := some id }) s
      fun _ t => Grown S none s t [] [] [] := by
  refine .bind_text hn fun ty => ?_
  refine (ok_declare hr (fun i hi => by cases hi) _ _ _).bind ?_
  rintro k t ⟨ht, -, m, hst⟩
  refine .modifyActivity (ht.trans_nil (.of_arena_eq (ht.intact.of_arena
    (ht.intact.sound.of_arena rfl rfl rfl rfl) rfl rfl rfl fun j hj => ?_) rfl rfl rfl
    (fun _ => .inl) rfl))
  cases hj
  exact (Array.getElem?_eq_some_iff.1 hst).1

theorem ok_signature (hn : node.Below S (d + 1)) (hr : Ready S none s) :
    Ok S (signature S.unit node) s fun _ t => Grown S none s t [] [] [] := by
  unfold signature
  cases hparams : node.member "parameters" with
  | none =>
    cases hresult : node.member "result" with
    | none => exact .pure (.refl hr)
    | some result => exact ok_result (hn.member hresult) hr
  | some params =>
    refine (ok_forM (fun param hmem t ht => ok_parameter ((hn.member hparams).succ.item hmem)
      (ht.ready hr)) hr).bind fun _ t ht => ?_
    cases hresult : node.member "result" with
    | none => exact .pure ht
    | some result =>
      exact (ok_result (hn.member hresult) (ht.ready hr)).mono fun _ u hu => ht.trans hu

theorem ok_activityParts (unit : Nat) (hr : Ready (node.source unit) none s) :
    Ok (node.source unit) (activityParts unit node) s fun _ t =>
      Grown (node.source unit) none s t [t.activity.root] [t.activity.root] [] := by
  have hn := (ParseNode.Contains.self (n := node)).isBelow unit (Nat.le_succ _)
  refine (ok_signature hn hr).bind fun _ t ht => ?_
  have hr := ht.ready hr
  refine .bind_check (fun e he => hn.blames (.member _ he)) fun bodyNode hbody => ?_
  have hcontains : node.Contains bodyNode := .member .self (ParseNode.member_of_require hbody)
  refine (ok_body (hcontains.isBelow unit (Nat.le_refl _)) hr).bind fun root u hu =>
    .modifyActivity ?_
  exact (ht.trans hu).trans_nil (.of_arena_eq (hu.intact.of_arena (hu.intact.sound.of_arena rfl rfl
    rfl rfl) rfl rfl rfl hu.intact.result) rfl rfl rfl (fun _ => .inl) rfl)

end Build

namespace Activity

/-- What every built activity is like. -/
structure WellBuilt (a : Activity) : Prop where
  sound : a.Sound
  /-- The statements fill the arena from the root on. -/
  fills : a.Fills none [a.root] 0 a.stmts.size
  unchained : Lower.chainedTo a a.root = none
  /-- No two expressions have the same identity. -/
  nodup : (exprIds a.exprs).Nodup
  /-- The stores declared together with their first value are those that code declares, each once.
  -/
  firsts : a.tokens.2.2 = a.initialized
  /-- They are visible from there. -/
  seesFirst : ∀ i, a.SeesFirst i (a.kind i)

theorem ready_start (S : Source) (ids : Ids) (name : String) (span : Span) :
    Build.Ready S none { ids := ids, activity := { name := name, span := span } } :=
  ⟨.of_start _ _ _, by rintro i ⟨⟩⟩

/-- An activity was added to an empty arena, or there is an error about the program, in the unit
unless an accessor gave it. -/
theorem build_spec (ids : Ids) (unit : Nat) (node : ParseNode) :
    ids.Le (build ids unit node).2 ∧ match build ids unit node with
      | (.ok a, ids') => ∃ name, node.text = some name ∧ Build.Grown (node.source unit) none
          { ids := ids, activity := { name := name, span := node.span.inUnit unit } }
          { ids := ids', activity := a } [a.root] [a.root] []
      | (.error e, _) => e.Blames (node.source unit) := by
  unfold build
  split
  · exact ⟨.refl _, rfl, .inl rfl⟩
  split
  · next e he => exact ⟨.refl _, ((ParseNode.Contains.self).isBelow unit
      (Nat.le_refl _)).blames (.text he)⟩
  · next name hname =>
    have hspec := Build.ok_activityParts unit (ready_start (node.source unit) ids name
      (node.span.inUnit unit))
    dsimp only
    split
    · next s hrun =>
      obtain ⟨hle, hgrown⟩ := hspec.ok () s hrun
      refine ⟨hle, name, ?_, hgrown⟩
      unfold ParseNode.requireText at hname
      split at hname
      · next text htext =>
        cases hname
        exact htext
      · cases hname
    · next e s hrun => exact hspec.error e s hrun

/-- Building takes no number back, whether it succeeds or fails. -/
theorem build_le (ids : Ids) (unit : Nat) (node : ParseNode) :
    ids.Le (build ids unit node).2 := (build_spec ids unit node).1

/-- An activity that cannot be built has an error of its own. -/
theorem checked_build (ids : Ids) (unit : Nat) (node : ParseNode) :
    Checked (build ids unit node).1 := by
  have hspec := (build_spec ids unit node).2
  rintro e he
  obtain ⟨ids', h⟩ : ∃ ids', build ids unit node = (.error e, ids') := ⟨_, Prod.ext he rfl⟩
  rw [h] at hspec
  exact hspec.program

section Built

variable {ids ids' : Ids} {unit : Nat} {node : ParseNode} {a : Activity}
  (h : build ids unit node = (.ok a, ids'))

include h

theorem grown_build : ∃ name, node.text = some name ∧ Build.Grown (node.source unit) none
    { ids := ids, activity := { name := name, span := node.span.inUnit unit } }
    { ids := ids', activity := a } [a.root] [a.root] [] := by
  have hspec := (build_spec ids unit node).2
  rwa [h] at hspec

/-- A built activity holds the tokens that were given out while it was built. -/
theorem build_tokens : a.WellBuilt ∧ ids.exprs ≤ ids'.exprs ∧ ids.markers ≤ ids'.markers ∧
    a.tokens = ((Finset.Ioc ids.exprs ids'.exprs).val,
      (Finset.Ioc ids.markers ids'.markers).val, a.initialized) := by
  obtain ⟨name, -, hg⟩ := grown_build h
  have hle := build_le ids unit node
  rw [h] at hle
  have htokens : a.tokens = ((Finset.Ioc ids.exprs ids'.exprs).val,
      (Finset.Ioc ids.markers ids'.markers).val, a.initialized) := by
    refine add_right_cancel (b := ((Finset.Ioc 0 ids.exprs).val,
      (Finset.Ioc 0 ids.markers).val, (0 : Multiset StoreId))) ?_
    refine ((add_zero _).symm.trans hg.balance).trans ((zero_add _).trans ?_)
    rw [Prod.mk_add_mk, Prod.mk_add_mk, add_zero, add_comm (Finset.Ioc ids.exprs _).val,
      add_comm (Finset.Ioc ids.markers _).val, Ioc_val_add (Nat.zero_le _) hle.exprs,
      Ioc_val_add (Nat.zero_le _) hle.markers]
    rfl
  refine ⟨⟨hg.intact.sound, hg.fills, hg.unchained _ mem_cons_self, ?_, ?_, fun i => ?_⟩,
    hle.exprs, hle.markers, htokens⟩
  · rw [← tokens_fst, htokens]
    exact Finset.nodup _
  · rw [htokens]
  · by_cases hi : i < a.stmts.size
    · exact (hg.first i (Nat.zero_le i) hi).1
    · rw [kind_eq_empty (Nat.le_of_not_lt hi)]
      exact seesFirst_of_none rfl

/-- The identities that a built activity uses were given out while it was built. -/
theorem build_ids : a.WellBuilt ∧ ids.exprs ≤ ids'.exprs ∧
    exprIds a.exprs ≤ (Finset.Ioc ids.exprs ids'.exprs).val := by
  obtain ⟨hwell, hexprs, -, htokens⟩ := build_tokens h
  rw [← tokens_fst, htokens]
  exact ⟨hwell, hexprs, le_refl _⟩

theorem build_name : node.text = some a.name := by
  obtain ⟨name, htext, hg⟩ := grown_build h
  rw [htext, (Prod.mk.inj hg.header).1]

/-- In a built activity every statement stands where it may, and its root is no part. -/
theorem formed_build : a.Formed ∧ a.StandsAlone a.root := by
  obtain ⟨name, -, hg⟩ := grown_build h
  exact ⟨hg.intact.formed, hg.alone _ mem_cons_self⟩

theorem isFilled_build : a.IsFilled := by
  obtain ⟨name, -, hg⟩ := grown_build h
  exact hg.intact.isFilled

/-- All of a built activity is in the unit that it was built for. -/
theorem placed_build : a.span.unit = unit ∧ a.Placed (·.unit = unit) := by
  obtain ⟨name, -, hg⟩ := grown_build h
  refine ⟨?_, hg.intact.placed⟩
  rw [(Prod.mk.inj hg.header).2]
  rfl

end Built

end Activity

namespace ParseNode

/-- An activity with a body. -/
def main (body : ParseNode) : ParseNode where
  label := "activity"
  text := some "Main"
  members := [("body", body)]

def sequence (items : List ParseNode) : ParseNode := { label := "sequence", items := items }

def variableNode (name type : String) : ParseNode where
  label := "var"
  text := some name
  members := [("type", .typeName type)]

/-- `activity Main(orders: Order[]) { var count = 0; foreach (order in orders) … }`, and more. -/
def counting (body : ParseNode) (rest : List ParseNode) : ParseNode where
  label := "activity"
  text := some "Main"
  members := [
    ("parameters", { label := "parameters", items := [
      { variableNode "orders" "Order[]" with label := "parameter" }] }),
    ("body", .sequence (
      { label := "var", text := some "count", members := [("init", .expression (.int 0))] } ::
      { label := "foreach", text := some "order"
        members := [("values", .expression (.ident "orders")), ("body", body)] } :: rest))]

end ParseNode

/-- Whether a node is built to an activity that passes a test with the numbers given out. -/
def ParseNode.builds (node : ParseNode) (test : Activity → Ids → Bool) : Bool :=
  match build {} 0 node with
  | (.ok a, ids) => test a ids
  | (.error _, _) => false

section Builds

variable {P P' Q : Activity → Ids → Prop} [∀ a ids, Decidable (P a ids)]
  [∀ a ids, Decidable (P' a ids)]

theorem ParseNode.exists_of_builds (node : ParseNode)
    (h : node.builds (fun a ids => decide (P a ids)) = true) :
    ∃ a ids', build {} 0 node = (.ok a, ids') ∧ P a ids' := by
  unfold builds at h
  split at h
  · next a ids' hbuild => exact ⟨a, ids', hbuild, of_decide_eq_true h⟩
  · cases h

/-- The properties `P` and `P'` are evaluated, and `Q` is proved of whatever is built. -/
theorem ParseNode.exists_and_of_builds
    (h : node.builds (fun a ids => decide (P a ids ∧ P' a ids)) = true)
    (hQ : ∀ a ids', build {} 0 node = (.ok a, ids') → P a ids' → Q a ids') :
    ∃ a ids', build {} 0 node = (.ok a, ids') ∧ P a ids' ∧ P' a ids' ∧ Q a ids' := by
  obtain ⟨a, ids', hbuild, hP, hP'⟩ := node.exists_of_builds h
  exact ⟨a, ids', hbuild, hP, hP', hQ a ids' hbuild hP⟩

end Builds

end Workflow
