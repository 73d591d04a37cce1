import Workflow.Proofs.Build.Tree
import Workflow.Proofs.Model.Coverage
import Workflow.Proofs.Semantics.Scoped

/-!
# Where fragments stand in a model program

The blocks of a model program follow the hosts of stores. So every store that is known at the place
of a fragment is visible from the statement that the fragment belongs to.
-/

namespace Workflow

open ExternalNodeType List

variable {id : StmtId} {Q : Activity → StoreHost → List ModelStmt → Prop}
  {units : List CompilationUnit}

namespace Activity

variable {a : Activity} {h h' : StoreHost} {known : Known}

/-- All stores that are known are stores of the activity that are visible from a host. -/
def Knows (a : Activity) (h : StoreHost) (known : Known) : Prop :=
  ∀ p ∈ known, ∃ (k : StoreId) (st : Store),
    a.stores[k]? = some st ∧ (st.name, st.marker) = p ∧ a.Sees h st.host

theorem Knows.cons {k : StoreId} {st : Store} (hknown : a.Knows h known)
    (hst : a.stores[k]? = some st) (hsees : a.Sees h st.host) :
    a.Knows h ((st.name, st.marker) :: known) :=
  forall_mem_cons.2 ⟨⟨k, st, hst, rfl, hsees⟩, hknown⟩

theorem Knows.inward (hknown : a.Knows h' known) (hsees : a.Sees h h') : a.Knows h known := by
  intro p hp
  obtain ⟨k, st, hst, heq, hsees'⟩ := hknown p hp
  exact ⟨k, st, hst, heq, hsees.trans hsees'⟩

theorem sees_outer (a : Activity) (id : StmtId) : a.Sees (.statement id) (a.outer id) := by
  unfold outer
  split
  · next p hp => exact within_iff.2 (.inr ⟨p, hp, a.within_refl p⟩)
  · trivial

theorem WellBuilt.sees_outer_of_sees (ha : a.WellBuilt)
    (hhost : (a.kind id).tag.isStoreHost = false) {k : StoreId} {st : Store}
    (hst : a.stores[k]? = some st) (hsees : a.Sees (.statement id) st.host) :
    a.Sees (a.outer id) st.host := by
  cases hi : st.host with
  | activity => trivial
  | statement i =>
    rw [hi] at hsees
    rcases within_iff.1 hsees with rfl | ⟨p, hp, hwithin⟩
    · have htag := ha.sound.hosts k id st hst hi
      rw [ha.ordered.tag, hhost] at htag
      cases htag
    · rw [outer, hp]
      exact hwithin

theorem WellBuilt.knows_outer (ha : a.WellBuilt) (hhost : (a.kind id).tag.isStoreHost = false)
    (hknown : a.Knows (.statement id) known) : a.Knows (a.outer id) known := by
  intro p hp
  obtain ⟨k, st, hst, heq, hsees⟩ := hknown p hp
  exact ⟨k, st, hst, heq, ha.sees_outer_of_sees hhost hst hsees⟩

theorem WellBuilt.outer_child (ha : a.WellBuilt) (hm : m ∈ (a.kind id).children) :
    a.outer m = .statement id := by
  rw [outer, ha.parent_of_mem_children hm]

theorem WellBuilt.outer_root (ha : a.WellBuilt) : a.outer a.root = .activity := by
  rw [outer, ha.fills.parent_of_mem mem_cons_self]

/-- Code belongs to a statement, and all stores that are known at its place are visible from this
statement. -/
def Places (a : Activity) (known : Known) (code : MarkedCode) : Prop :=
  ∃ s, (∀ e ∈ code.exprs, e ∈ (a.kind s).shown) ∧ a.Knows (.statement s) known

theorem places_of_outer (hshown : ∀ e ∈ code.exprs, e ∈ (a.kind id).shown)
    (hknown : a.Knows (a.outer id) known) : a.Places known code :=
  ⟨id, hshown, hknown.inward (a.sees_outer id)⟩

theorem places_emitted (hf : f ∈ (a.kind id).emitted)
    (hknown : a.Knows (a.outer id) known) : ∀ code ∈ f.shown.fragments, a.Places known code := by
  intro code hcode
  rw [mem_singleton.1 hcode]
  exact places_of_outer (StmtKind.mem_shown_of_emitted hf) hknown

end Activity

namespace Emit

open ModelStmt

/-- Statements stand well in the scope of a host: all that they declare is visible from there. -/
def Placed (a : Activity) (h : StoreHost) (ss : List ModelStmt) : Prop :=
  ∀ known, a.Knows h known → a.Knows h (afterList known ss) ∧ ScopedList a.Places known ss

variable {a : Activity} {h : StoreHost}

theorem placed_singleton (hs : ∀ known, a.Knows h known →
    a.Knows h (s.after known) ∧ s.Scoped a.Places known) : Placed a h [s] :=
  fun known hknown => ⟨(hs known hknown).1, scopedList_singleton.2 (hs known hknown).2⟩

theorem placed_append (hs : Placed a h ss) (ht : Placed a h ts) : Placed a h (ss ++ ts) := by
  intro known hknown
  obtain ⟨hmid, hss⟩ := hs known hknown
  obtain ⟨hend, hts⟩ := ht _ hmid
  rw [afterList_append, scopedList_append]
  exact ⟨hend, hss, hts⟩

theorem placed_store {k : StoreId} {st : Store} (hst : a.stores[k]? = some st)
    (hsees : a.Sees h st.host) {init : Option ModelExpr} (hinit : ∀ known, a.Knows h known →
      ∀ code ∈ init.toList.flatMap ModelExpr.fragments, a.Places known code) :
    Placed a h [st.declaration init] :=
  placed_singleton fun known hknown => ⟨hknown.cons hst hsees, by
    rw [Store.declaration, Scoped]
    exact hinit known hknown⟩

theorem invariant_placed (ha : a.WellBuilt) : Invariant a (Placed a) where
  nil _ hknown := ⟨hknown, trivial⟩
  append := placed_append
  nest hss := placed_singleton fun known hknown => ⟨hknown, by
    rw [Scoped]
    exact (hss known hknown).2⟩
  enter hss := placed_singleton fun known hknown => ⟨hknown, by
    rw [Scoped]
    exact (hss known (hknown.inward (a.sees_outer _))).2⟩
  pass hhost hss known hknown := by
    obtain ⟨hafter, hscoped⟩ := hss known (hknown.inward (a.sees_outer _))
    exact ⟨ha.knows_outer hhost hafter, hscoped⟩
  child hm hss := ha.outer_child hm ▸ hss
  root hss := ha.outer_root ▸ hss
  stores hk hst := by
    obtain ⟨st', hst', hhost⟩ := (ha.sound.listed _ _).1 hk
    rw [hst] at hst'
    cases hst'
    exact placed_store hst (hhost ▸ a.sees_refl _) (by simp)
  temp hf _ _ _ := placed_singleton fun known hknown => ⟨hknown, by
    rw [Scoped]
    simpa using Activity.places_emitted hf hknown⟩
  target hf := placed_singleton fun known hknown => ⟨hknown, by
    rw [Scoped]
    exact Activity.places_emitted hf hknown⟩
  access name ty operation known hknown := ⟨hknown, by
    simp [ScopedList, Scoped, ModelExpr.fragments]⟩
  first {id f _ k st _ _ _ value} hk hbody hst := by
    have hdeclares : k ∈ (a.kind id).declares := by
      rw [hk, StmtKind.declares, hbody]
      rfl
    obtain ⟨st', hst', hsees⟩ := ha.seesFirst id k hdeclares
    rw [hst] at hst'
    cases hst'
    refine placed_store hst (ha.sees_outer_of_sees (by rw [hk]; rfl) hst hsees)
      fun known hknown => ?_
    have hshown : ∀ e ∈ value.nodes, e ∈ (a.kind id).shown := by
      rw [hk, StmtKind.shown, hbody]
      exact fun e he => he
    have hplaces : a.Places known ⟨f.marker, value.nodes⟩ :=
      Activity.places_of_outer hshown hknown
    simpa [ModelExpr.fragments, ModelExpr.ofFragment] using hplaces
  plain {id f _ _} hk hplain := placed_singleton fun known hknown => ⟨hknown, by
    have hshown : (a.kind id).shown = CodeStmt.nodesList f.body := by
      rw [hk, StmtKind.shown, StmtKind.shownCode_of_plain hplain]
    rw [Scoped]
    exact Activity.places_of_outer (fun e he => hshown ▸ he) hknown⟩
  iterate {id item values _ _ _ st _} hk hst hss := placed_singleton fun known hknown =>
    ⟨hknown, by
      rw [Scoped]
      obtain ⟨st', hst', hhost, -⟩ := (ha.ordered.linked id).item item (by rw [hk]; rfl)
      rw [hst] at hst'
      cases hst'
      have hvalues : values ∈ (a.kind id).emitted := by
        rw [hk]
        exact mem_cons_self
      refine ⟨Activity.places_emitted hvalues hknown, (hss _ ?_).2⟩
      exact (hknown.inward (a.sees_outer id)).cons hst (hhost ▸ a.sees_refl _)⟩

/-- A parameter of a body method is the store of a parameter of the activity. -/
def IsParameter (a : Activity) (p : ModelParameter) : Prop :=
  ∃ k ∈ a.parameters, ∃ st, a.stores[k]? = some st ∧ p.name = st.name ∧ p.marker = some st.marker

theorem post_parameters (a : Activity) :
    Post (parameters a) fun ps => ∀ p ∈ ps, IsParameter a p := by
  refine Post.mapM fun st hst => Post.skip fun _ => .pure ?_
  obtain ⟨k, hk, hget⟩ := mem_filterMap.1 hst
  exact ⟨k, hk, st, hget, rfl, rfl⟩

/-- The method that stands for the body of an activity keeps an invariant of its emission. -/
structure Keeps (a : Activity) (Q : StoreHost → List ModelStmt → Prop) (m : ModelMethod) :
    Prop where
  parameters : ∀ p ∈ m.parameters, IsParameter a p
  body : ∀ body ∈ m.body, Q .activity body

theorem Invariant.post_activityType {Q : StoreHost → List ModelStmt → Prop}
    (hQ : Invariant a Q) (ha : a.WellBuilt) (ns : Option String) :
    Post (activityType ns a) fun t => ∀ m ∈ t.methods, m.body = none ∨ Keeps a Q m := by
  refine (post_parameters a).bind fun ps hps s => ?_
  refine forall_mem_cons.2 ⟨.inl rfl, forall_mem_singleton.2 (.inr ⟨hps, ?_⟩)⟩
  rintro _ ⟨⟩
  exact (hQ.emits_body ha s).keeps

theorem post_unit
    (ha : ∀ a ∈ u.activities, a.WellBuilt) (hQ : ∀ a ∈ u.activities, Invariant a (Q a)) :
    Post (unit external u) fun mu => ∀ t ∈ mu.types, t ∈ external ∨
      ∃ a ∈ u.activities, ∀ m ∈ t.methods, m.body = none ∨ Keeps a (Q a) m := by
  refine Post.bind (Q := fun ts => ∀ t ∈ ts,
    ∃ a ∈ u.activities, ∀ m ∈ t.methods, m.body = none ∨ Keeps a (Q a) m) ?_ fun ts hts => .pure ?_
  · exact Post.mapM fun a hmem => Post.skip fun _ s =>
      ⟨a, hmem, (hQ a hmem).post_activityType (ha a hmem) u.ns s⟩
  · intro t ht
    rcases mem_append.1 ht with ht | ht
    · exact .inr (hts t ht)
    · split at ht
      · exact .inl ht
      · cases ht

/-- The parameters of an activity are known in its body method. -/
theorem Keeps.scoped (ha : a.WellBuilt) (hm : Keeps a (Placed a) m) : m.Scoped a.Places := by
  intro body hbody
  refine (hm.body body hbody m.known fun p hp => ?_).2
  obtain ⟨param, hparam, heq⟩ := mem_filterMap.1 hp
  obtain ⟨k, hk, st, hst, hname, hmarker⟩ := hm.parameters param hparam
  obtain ⟨st', hst', hhost, -⟩ := ha.sound.parameters k hk
  rw [hst] at hst'
  cases hst'
  rw [hname, hmarker] at heq
  exact ⟨k, st, hst, Option.some.inj heq, hhost ▸ a.sees_refl _⟩

end Emit

/-- The methods of model programs keep the invariants; types from elsewhere have no bodies. -/
theorem ModelProgram.keeps_emit (found : List ExternalNodeType)
    (ha : ∀ u ∈ units, ∀ a ∈ u.activities, a.WellBuilt)
    (hQ : ∀ u ∈ units, ∀ a ∈ u.activities, Emit.Invariant a (Q a)) :
    ∀ mu ∈ (ModelProgram.emit units (synthesize found)).units, ∀ t ∈ mu.types,
      ∀ m ∈ t.methods, m.body = none ∨ ∃ u ∈ units, ∃ a ∈ u.activities, Emit.Keeps a (Q a) m := by
  have hunits : Emit.Post (units.mapM (Emit.unit (synthesize found))) fun mus =>
      ∀ mu ∈ mus, ∃ u ∈ units, ∀ t ∈ mu.types, t ∈ synthesize found ∨
        ∃ a ∈ u.activities, ∀ m ∈ t.methods, m.body = none ∨ Emit.Keeps a (Q a) m :=
    Emit.Post.mapM fun u hu s => ⟨u, hu, Emit.post_unit (ha u hu) (hQ u hu) s⟩
  intro mu hmu t ht m hm
  obtain ⟨u, hu, htypes⟩ := hunits {} mu hmu
  rcases htypes t ht with hext | ⟨a, hmem, hmethods⟩
  · obtain ⟨e, -, rfl⟩ := mem_map.1 hext
    rw [mem_singleton.1 hm]
    exact .inl rfl
  · exact (hmethods m hm).imp_right fun hkeeps => ⟨u, hu, a, hmem, hkeeps⟩

/-- In the model programs of units every fragment is placed well. -/
theorem ModelProgram.scoped_emit (found : List ExternalNodeType)
    (hunits : ∀ u ∈ units, ∀ a ∈ u.activities, a.WellBuilt) :
    ∀ m ∈ ModelUnit.methods (ModelProgram.emit units (synthesize found)).units,
      m.Scoped fun known code => ∃ u ∈ units, ∃ a ∈ u.activities, a.Places known code := by
  intro m hm
  obtain ⟨t, ht, hm⟩ := mem_flatMap.1 hm
  obtain ⟨mu, hmu, ht⟩ := mem_flatMap.1 ht
  have hall := keeps_emit found hunits (fun u hu a ha => Emit.invariant_placed (hunits u hu a ha))
    mu hmu t ht m hm
  rcases hall with hnone | ⟨u, hu, a, ha, hkeeps⟩
  · intro body hbody
    rw [hnone] at hbody
    cases hbody
  · intro body hbody
    exact (hkeeps.scoped (hunits u hu a ha) body hbody).mono fun known code hplaces =>
      ⟨u, hu, a, ha, hplaces⟩

end Workflow
