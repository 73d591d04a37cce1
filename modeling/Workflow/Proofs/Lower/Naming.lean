import Workflow.Proofs.Lower.Walk

/-!
# The names in a lowered activity

Every name in the graph of an activity belongs to every vocabulary of the activity. Nothing is
needed of the errors: where one is found, the slot holds `null` or the node is left out.
-/

namespace Workflow.LowerContext.Vocabulary

open Lower NodeKind Mention

variable {c : LowerContext} {V : c.Vocabulary}

theorem all_mk {name : Option String} {kind : NodeKind} (hbody : kind.body = [])
    (hbinders : ∀ x ∈ kind.binders, V.has (.bound x)) (hslots : V.AllSlots kind.slots)
    (hchildren : ∀ n ∈ kind.children, V.All n.mentions) : V.All (Node.mk name kind).mentions := by
  rw [Node.mentions_mk, mentions, hbody]
  simp only [all_append, all_map_bound, all_flatMap, CodeStmt.mentionsList,
    all_nil, and_true]
  exact ⟨⟨hbinders, hslots⟩, hchildren⟩

theorem all_withVariables (hnames : ∀ x ∈ VariableDecl.names vars, V.has (.bound x))
    (hslots : V.AllSlots (VariableDecl.slots vars)) {body : Option Node}
    (hbody : ∀ n ∈ body.toList, V.All n.mentions) : V.All (withVariables vars body).mentions := by
  unfold withVariables
  split
  · exact all_mk rfl hnames hslots fun _ hn => by cases hn
  · next inner nodes =>
    have hinner := hbody _ (Option.mem_toList.2 rfl)
    rw [Node.mentions_mk, mentions] at hinner
    simp only [binders, slots, body, children,
      all_append, all_map_bound, all_flatMap] at hinner
    obtain ⟨⟨hnames', hslots', -⟩, hnodes⟩ := hinner
    refine all_mk rfl ?_ ?_ hnodes
    · have hall := List.forall_mem_append.2 ⟨hnames, hnames'⟩
      rwa [VariableDecl.names, VariableDecl.names, ← List.map_append] at hall
    · have hall := List.forall_mem_append.2 ⟨hslots, hslots'⟩
      rwa [VariableDecl.slots, VariableDecl.slots, ← List.flatMap_append] at hall
  · split
    · exact hbody _ (Option.mem_toList.2 rfl)
    · exact all_mk rfl hnames hslots hbody

def tally (V : c.Vocabulary) (hw : V.whole) (ha : c.activity.WellBuilt) :
    (View.naming V False).Tally where
  holds _ _ ns := ∀ n ∈ ns, V.All n.mentions
  fine e := V.All e.mentions
  binds x := V.has (.bound x)
  draws _ _ := True
  nil _ hn := by cases hn
  append h h' := List.forall_mem_append.2 ⟨h, h'⟩
  perm h _ hns n hn := h n (hns.mem_iff.2 hn)
  stmt _ h := h
  node {k _ _} hk hbinders hslots hchildren := by
    have hbody : k.body = [] := by
      cases k
      case code => simp [isOrdinary] at hk
      all_goals rfl
    exact List.forall_mem_singleton.2 (all_mk hbody hbinders hslots hchildren)
  landmark {_ _ kind} _ hk _ hbinders hslots hchildren := by
    have hbody : kind.body = [] := by
      cases kind
      case code => simp [isLandmark, isJump, message?] at hk
      all_goals rfl
    exact List.forall_mem_singleton.2 (all_mk hbody hbinders hslots hchildren)
  value ty hf :=
    (View.runs_value ((View.naming_sees hw ha).reads rfl hf) ty).mono (fun r hr =>
      ⟨hr.1, hr.2.vars.names, hr.2.vars.slots, hr.2.nodes⟩) |>.given
  restricted ty slot hf :=
    (View.runs_restricted ((View.naming_sees hw ha).reads rfl hf) ty slot).mono (fun v hv =>
      ⟨hv, fun _ hn => by cases hn⟩) |>.given
  inbound _ _ _ hn := by cases hn
  unsent _ _ _ _ hn := by cases hn
  null _ := all_null
  handle := V.handle
  name := V.name hw
  delegate := V.delegate hw
  temp hx := ⟨(V.temp _ hx).1, all_storeGet.2 (all_ident hx)⟩
  write hx he := by
    simpa [Node.mentions_code, CodeStmt.mentionsList, CodeStmt.mentions] using
      (⟨all_ident hx, he⟩ : _ ∧ _)
  code {id _} _ htag := by
    have hid : id < c.activity.stmts.size := Activity.lt_size_of_kind rfl (by rw [htag]; rfl)
    exact ((View.runs_codeRun (View.naming_sees hw ha) hid).mono fun r hr ns hns =>
      List.forall_mem_append.2 ⟨fun n hn => hr.1 n (Option.mem_toList.1 hn), hns⟩).given
  flow _ _ _ _ _ := trivial
  machine _ _ _ _ _ := trivial
  service _ _ _ := trivial

/-- Every name in the graph of an activity belongs to the vocabulary. -/
theorem all_lower (V : c.Vocabulary) (hw : V.whole) (ha : c.activity.WellBuilt)
    (ns : Option String) :
    V.All (c.activity.lower ns c.semantics c.maxDepth).1.mentions := by
  have hloose : (V.tally hw ha).Loose := ⟨fun _ _ _ _ => trivial, fun _ _ _ _ hn => by cases hn⟩
  obtain ⟨⟨vars, body, hvars, hbody, hgraph⟩, harguments⟩ :=
    holds_lower ⟨View.naming_sees hw ha, .inl hloose⟩ (.inl hloose) ns False.elim
  refine all_append.2 ⟨fun m hm => ?_, ?_⟩
  · obtain ⟨a, ha, rfl⟩ := List.mem_map.1 hm
    exact harguments a ha
  · rw [hgraph]
    exact all_withVariables hvars.names hvars.slots hbody

end Workflow.LowerContext.Vocabulary
