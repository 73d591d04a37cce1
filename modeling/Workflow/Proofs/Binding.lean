import Workflow.Proofs.Model.Placement
import Workflow.Proofs.StoreNames

/-!
# Names are bound to the stores that are visible

A name in a fragment is bound twice: by the lexical oracle, to a declaration that is in scope at its
place in the model program, and by the activity, to the innermost visible store of that name. Where
the names along each chain of statements are distinct, the two agree.
-/

namespace Workflow

open CompilationUnit List

variable {s : StmtId}

namespace Activity

variable {a : Activity}

/-- A store that is visible is found by its name if no other visible store has this name. -/
theorem Sound.lookup_of_sees (ha : a.Sound) (hnames : (a.namesFrom s).Nodup)
    (hst : a.stores[k]? = some st) (hsees : a.Sees (.statement s) st.host) :
    a.lookup (.statement s) st.name = some k := by
  have hvisible : k ∈ a.visibleFrom s := by
    rw [visibleFrom, visible_eq, mem_flatten]
    exact ⟨_, mem_map_of_mem ((mem_hosts ha.parentsFirst).2 hsees),
      (ha.listed _ _).2 ⟨st, hst, rfl⟩⟩
  have hlookup : a.lookup (.statement s) st.name = a.findNamed st.name (a.visibleFrom s) :=
    find?_flatten.symm
  rw [hlookup]
  cases hfind : a.findNamed st.name (a.visibleFrom s) with
  | none => exact absurd rfl (findNamed_eq_none.1 hfind k hvisible st hst)
  | some j =>
    -- what is found has the same name, so it is the same store
    obtain ⟨st', hst', hname⟩ : ∃ st', a.stores[j]? = some st' ∧ st'.name = st.name := by
      have htest := find?_some hfind
      cases hj : a.stores[j]? with
      | none => simp [hj] at htest
      | some st' => exact ⟨st', rfl, by simpa [hj] using htest⟩
    congr 1
    refine eq_of_nodup_filterMap hnames (mem_of_find?_eq_some hfind) hvisible (v := st.name)
      ?_ ?_
    · rw [hst', Option.map_some, hname]
    · rw [hst, Option.map_some]

theorem Prepared.storeByMarker_marker (ha : a.Prepared)
    (hst : a.stores[k]? = some st) : a.storeByMarker st.marker = some k := by
  have hdistinct : (a.stores.toList.map Store.marker).Nodup := (nodup_append.1 ha.distinct).2.1
  obtain ⟨hk, rfl⟩ := Array.getElem?_eq_some_iff.1 hst
  rw [storeByMarker, Array.findIdx?_eq_some_iff_getElem]
  refine ⟨hk, by simp, fun j hj heq => Nat.ne_of_lt hj ?_⟩
  have hlt : k < (a.stores.toList.map Store.marker).length := by simpa using hk
  have hlt' : j < (a.stores.toList.map Store.marker).length := Nat.lt_trans hj hlt
  have hsame : (a.stores.toList.map Store.marker)[j] = (a.stores.toList.map Store.marker)[k] := by
    simpa using heq
  exact hdistinct.getElem_inj_iff.1 hsame

def located (as : List Activity) : List (Activity × StmtId × Expr) :=
  as.flatMap fun a => (range a.stmts.size).flatMap fun i =>
    (a.kind i).exprs.map fun e => (a, i, e)

theorem map_located (as : List Activity) : (located as).map (·.2.2) = as.flatMap Activity.exprs := by
  simp only [located, map_flatMap, map_map, Function.comp_def, map_id']
  rfl

theorem lt_size_of_mem_exprs (he : e ∈ (a.kind s).exprs) : s < a.stmts.size := by
  refine Nat.lt_of_not_le fun hle => ?_
  rw [kind_eq_empty hle] at he
  cases he

theorem mem_located (ha : a ∈ as) (he : e ∈ (a.kind s).exprs) : (a, s, e) ∈ located as := by
  refine mem_flatMap.2 ⟨a, ha, mem_flatMap.2 ⟨s, ?_, mem_map_of_mem he⟩⟩
  exact mem_range.2 (lt_size_of_mem_exprs he)

/-- An identity belongs to one expression of one statement of one activity. -/
theorem Allocated.eq_of_id (h : Allocated lo hi as) (ha : a ∈ as) (hb : b ∈ as)
    (he : e ∈ (a.kind s).exprs) (hf : f ∈ (b.kind t).exprs) (hid : e.id = some n)
    (hid' : f.id = some n) : a = b ∧ s = t ∧ e = f := by
  have hnodup : ((located as).filterMap fun p => p.2.2.id).Nodup := by
    have hmap := Multiset.coe_nodup.1 h.nodup
    rw [← map_located, filterMap_map] at hmap
    exact hmap
  have heq := eq_of_nodup_filterMap hnodup (mem_located ha he) (mem_located hb hf) hid hid'
  simpa using heq

end Activity

/-- The lexical oracle says of an expression that it stands for a store only if the expression is a
name, and the activity finds the store under this name from the statement of the expression. -/
theorem lexicalOracle_binds_visible {p : ParseProgram} {built units : List CompilationUnit}
    {ids : Ids} (hbuild : buildAll p = (.ok built, ids)) (errors : Diagnostics)
    (hunits : units = (resolveAll ids errors built).1)
    (hnames : ∀ u ∈ units, ∀ a ∈ u.activities, ∀ id < a.stmts.size, (a.namesFrom id).Nodup)
    (found : List ExternalNodeType) {answer : SemanticModel} (hanswer : ModelUnit.analyzeAll
      (ModelProgram.emit units (ExternalNodeType.synthesize found)).units = .ok answer)
    {u : CompilationUnit} (hu : u ∈ units) {a : Activity} (ha : a ∈ u.activities) {s : StmtId}
    {e : Expr} (he : e ∈ (a.kind s).exprs) {f : AnnotatedFragment} (hf : f ∈ answer.fragments)
    {ann : ExprAnnotation} (hann : ann ∈ f.exprs) (hid : e.id = some ann.expr) {m : Marker}
    (hm : ann.symbol = some (.store m)) :
    ∃ o name k, e = .name o name ∧ a.storeByMarker m = some k ∧
      a.lookup (.statement s) name = some k := by
  obtain ⟨n, hallocated⟩ := allocated_resolveAll hbuild errors
  have hprepared := prepared_resolveAll hbuild errors
  rw [← hunits] at hallocated hprepared
  have hmem : ∀ {u a}, u ∈ units → a ∈ u.activities → a ∈ units.flatMap (·.activities) :=
    fun hu ha => mem_flatMap.2 ⟨_, hu, ha⟩
  have hwell : ∀ u ∈ units, ∀ a ∈ u.activities, a.WellBuilt :=
    fun u hu a ha => hallocated.wellBuilt a (hmem hu ha)
  -- the answer is for code of some statement, whose identities are those of no other
  obtain ⟨known, code, ⟨v, hv, b, hb, t, hshown, hknown⟩, hnamed⟩ :=
    analyzeAll_named (ModelProgram.scoped_emit found hwell) hanswer f hf
  obtain ⟨e', he', hid', hallows⟩ := hnamed.exprs ann hann
  have hexprs : e' ∈ (b.kind t).exprs :=
    (StmtKind.exprs_perm _).mem_iff.2 (mem_append_left _ (hshown e' he'))
  obtain ⟨rfl, rfl, rfl⟩ :=
    hallocated.eq_of_id (hmem hu ha) (hmem hv hb) he hexprs hid hid'
  -- what is known there is visible from the statement
  obtain ⟨o, name, rfl, hname⟩ := hallows.store m hm
  obtain ⟨k, st, hst, heq, hsees⟩ := hknown _ hname
  obtain ⟨rfl, rfl⟩ := Prod.mk.inj heq
  have hdistinct := hnames u hu a ha s (Activity.lt_size_of_mem_exprs he)
  exact ⟨o, st.name, k, rfl, (hprepared a (hmem hu ha)).storeByMarker_marker hst,
    (hwell u hu a ha).sound.lookup_of_sees hdistinct hst hsees⟩

section Counting

/-- `activity Main(orders: Order[]) { var count = 0; foreach (order in orders) { var last: Order;
last = order; count = count + 1; } }` -/
def countingProgram : ParseProgram where
  units := [{
    activities := [.counting (.sequence [.variableNode "last" "Order", .codeBlock [
      .eval (.assign {} .assign (.ident "last") (.ident "order")),
      .eval (.assign {} .assign (.ident "count")
        (.binary {} .add (.ident "count") (.int 1)))]]) []] }]

/-- The code inside of the iteration reads the variable that is declared before it. -/
theorem lexicalOracle_binds_visible_countingProgram :
    ∃ built ids units answer, buildAll countingProgram = (.ok built, ids) ∧
      units = (resolveAll ids {} built).1 ∧
      (∀ u ∈ units, ∀ a ∈ u.activities, ∀ id < a.stmts.size, (a.namesFrom id).Nodup) ∧
      ModelUnit.analyzeAll (ModelProgram.emit units (ExternalNodeType.synthesize [])).units =
        .ok answer ∧
      ∃ u ∈ units, ∃ a ∈ u.activities, ∃ e ∈ (a.kind 4).exprs, ∃ f ∈ answer.fragments,
        ∃ ann ∈ f.exprs, e.id = some ann.expr ∧ ann.symbol = some (.store 2) ∧
          ∃ o name k, e = .name o name ∧ a.storeByMarker 2 = some k ∧
            a.lookup (.statement 4) name = some k := by
  have hpasses : countingProgram.passes (fun units answer => decide
      ((∀ u ∈ units, ∀ a ∈ u.activities, ∀ id < a.stmts.size, (a.namesFrom id).Nodup) ∧
        ∃ u ∈ units, ∃ a ∈ u.activities, ∃ e ∈ (a.kind 4).exprs, ∃ f ∈ answer.fragments,
          ∃ ann ∈ f.exprs, e.id = some ann.expr ∧ ann.symbol = some (.store 2))) = true := by
    decide +kernel
  obtain ⟨built, ids, units, answer, hbuild, hunits, hanswer, htest⟩ :=
    ParseProgram.exists_of_passes hpasses
  obtain ⟨hnames, u, hu, a, ha, e, he, f, hf, ann, hann, hid, hm⟩ := of_decide_eq_true htest
  exact ⟨built, ids, units, answer, hbuild, hunits, hnames, hanswer, u, hu, a, ha, e, he, f, hf,
    ann, hann, hid, hm, lexicalOracle_binds_visible hbuild {} hunits hnames [] hanswer hu ha he hf
      hann hid hm⟩

end Counting

end Workflow
