import Workflow.Proofs.Build.Program

/-!
# Markers and identities are unique across a compilation

All units of a compilation are built with the same counters and then resolved with them, and what
fails keeps what it took. Hence no two stores or pieces of code of the compilation have the same
marker, and no two expressions have the same identity. Within a piece of code the identities follow
each other in the order of the walk.
-/

namespace Workflow

open CompilationUnit Activity Multiset List

theorem map_id_of_isSome {es : List Expr} (h : ∀ e ∈ es, e.id.isSome = true) :
    es.map Expr.id = (es.filterMap Expr.id).map some := by
  induction es with
  | nil => rfl
  | cons e es ih =>
    obtain ⟨he, hes⟩ := forall_mem_cons.1 h
    obtain ⟨n, hn⟩ := Option.isSome_iff_exists.1 he
    rw [List.map_cons, List.filterMap_cons_some hn, List.map_cons, hn, ih hes]

namespace Activity

def markers (a : Activity) : List Marker :=
  ((List.range a.stmts.size).flatMap fun i =>
    (a.kind i).codeMarker.toList ++ (a.kind i).slots.map Fragment.marker) ++
      a.stores.toList.map Store.marker

theorem tokens_markers (a : Activity) : a.tokens.2.1 = ↑a.markers := by
  rw [tokens_eq, markers, ← coe_add]
  rfl

/-- Markers and identities were given out between two moments, each once, and code in one go. -/
structure Issued (lo hi : Ids) (as : List Activity) : Prop where
  le : lo.Le hi
  markers : ↑(as.flatMap markers) ≤ (Finset.Ioc lo.markers hi.markers).val
  exprs : exprIds (as.flatMap exprs) ≤ (Finset.Ioc lo.exprs hi.exprs).val
  numbered : ∀ a ∈ as, a.IsNumbered

/-- No two markers and no two identities are the same, and those of a piece of code follow each
other. -/
structure Identified (issued : Ids) (as : List Activity) : Prop where
  markers_nodup : (as.flatMap markers).Nodup
  markers_le : ∀ m ∈ as.flatMap markers, 0 < m ∧ m ≤ issued.markers
  isSome_id : ∀ e ∈ as.flatMap exprs, e.id.isSome = true
  ids_nodup : ((as.flatMap exprs).map Expr.id).Nodup
  numbered : ∀ a ∈ as, a.IsNumbered

/-- Every expression of an activity belongs to code that is numbered. -/
theorem IsNumbered.isSome_id {a : Activity} (h : a.IsNumbered) {e : Expr} (he : e ∈ a.exprs) :
    e.id.isSome = true := by
  obtain ⟨i, -, he⟩ := mem_flatMap.1 he
  rcases mem_append.1 he with hbody | hslot
  · exact (h i).body.isSome_id hbody
  · obtain ⟨f, hf, he⟩ := mem_flatMap.1 hslot
    exact Consecutive.isSome_id ((h i).slots f hf) he

theorem IsNumbered.keeps {a b : Activity} (h : a.IsNumbered) (hab : a.Keeps b) : b.IsNumbered :=
  fun i => ⟨(hab.kind i).body ▸ (h i).body, (hab.kind i).slots ▸ (h i).slots⟩

namespace Issued

variable {lo mid hi : Ids} {as bs : List Activity}

theorem nil (h : lo.Le hi) : Issued lo hi [] where
  le := h
  markers := zero_le _
  exprs := zero_le _
  numbered a ha := by cases ha

theorem append (ha : Issued lo mid as) (hb : Issued mid hi bs) : Issued lo hi (as ++ bs) where
  le := ha.le.trans hb.le
  markers := by
    rw [flatMap_append, ← coe_add, ← Ioc_val_add ha.le.markers hb.le.markers]
    exact add_le_add ha.markers hb.markers
  exprs := by
    rw [flatMap_append, exprIds_append, ← Ioc_val_add ha.le.exprs hb.le.exprs]
    exact add_le_add ha.exprs hb.exprs
  numbered := forall_mem_append.2 ⟨ha.numbered, hb.numbered⟩

theorem sublist (h : Issued lo hi bs) (hab : as.Sublist bs) : Issued lo hi as where
  le := h.le
  markers := le_trans (coe_le.2 (hab.flatMap _).subperm) h.markers
  exprs := le_trans (coe_le.2 ((hab.flatMap _).filterMap _).subperm) h.exprs
  numbered a ha := h.numbered a (hab.subset ha)

theorem of_build (h : build ids unit node = (.ok a, ids')) : Issued ids ids' [a] := by
  obtain ⟨-, hexprs, hmarkers, htokens⟩ := build_tokens h
  constructor
  · exact ⟨hmarkers, hexprs⟩
  · rw [flatMap_singleton, ← tokens_markers, htokens]
  · rw [flatMap_singleton, ← tokens_fst, htokens]
  · simpa using (isFilled_build h).isNumbered

theorem markers_resolveActivities (as : List Activity) (ids : Ids) (errors : Diagnostics) :
    ids.markers ≤ (resolveActivities ids errors as).2.1.markers ∧
      ↑((resolveActivities ids errors as).1.flatMap Activity.markers) ≤
        ↑(as.flatMap Activity.markers) + (Finset.Ioc ids.markers
          (resolveActivities ids errors as).2.1.markers).val := by
  induction as generalizing ids errors with
  | nil => exact ⟨le_rfl, zero_le _⟩
  | cons a as ih =>
    obtain ⟨hle, hfirst⟩ := markers_resolve ids errors a
    obtain ⟨hle', hrest⟩ := ih (a.resolve ids errors).2.1 (a.resolve ids errors).2.2
    rw [tokens_markers, tokens_markers] at hfirst
    rw [resolveActivities]
    refine ⟨hle.trans hle', ?_⟩
    dsimp only
    rw [flatMap_cons, flatMap_cons, ← coe_add, ← coe_add,
      ← Ioc_val_add hle hle', add_add_add_comm]
    exact add_le_add hfirst hrest

/-- Activities that were built with numbers up to some moment stay apart when they are resolved
after it. -/
theorem identified {last : Ids} (h : Issued {} last as) (errors : Diagnostics) :
    Identified (resolveActivities last errors as).2.1 (resolveActivities last errors as).1 := by
  have hkeeps := keeps_resolveActivities as last errors
  obtain ⟨hle, hmarkers⟩ := markers_resolveActivities as last errors
  generalize hr : resolveActivities last errors as = r at *
  have hbound : ↑(r.1.flatMap Activity.markers) ≤ (Finset.Ioc 0 r.2.1.markers).val := by
    rw [← Ioc_val_add (Nat.zero_le _) hle]
    exact hmarkers.trans (add_le_add h.markers le_rfl)
  have hnumbered : ∀ b ∈ r.1, b.IsNumbered :=
    forall_of_keeps (fun hab ha => ha.keeps hab) hkeeps h.numbered
  have hsome : ∀ e ∈ r.1.flatMap Activity.exprs, e.id.isSome = true := by
    intro e he
    obtain ⟨b, hb, he⟩ := mem_flatMap.1 he
    exact (hnumbered b hb).isSome_id he
  constructor
  case markers_nodup => exact coe_nodup.1 (nodup_of_le hbound (Finset.nodup _))
  case markers_le =>
    intro m hm
    have hmem := mem_of_le hbound (mem_coe.2 hm)
    rwa [Finset.mem_val, Finset.mem_Ioc] at hmem
  case isSome_id => exact hsome
  case ids_nodup =>
    have hids : (exprIds (r.1.flatMap Activity.exprs)).Nodup := by
      rw [flatMap_exprs_of_keeps hkeeps]
      exact nodup_of_le h.exprs (Finset.nodup _)
    rw [map_id_of_isSome hsome]
    exact (coe_nodup.1 hids).map (Option.some_injective _)
  case numbered => exact hnumbered

end Issued

end Activity

/-! ### Everything that is built -/

/-- The activities that can be built from nodes, one after the other, and the numbers given out. -/
def Activity.buildEach (unit : Nat) (ids : Ids) : List ParseNode → List Activity × Ids
  | [] => ([], ids)
  | node :: rest =>
    let (outcome, ids) := build ids unit node
    let (others, ids) := buildEach unit ids rest
    (outcome.toOption.toList ++ others, ids)

/-- The activities that can be built from units, even if others fail, and the numbers given out. -/
def ParseUnit.buildActivities (ids : Ids) (index : Nat) : List ParseUnit → List Activity × Ids
  | [] => ([], ids)
  | u :: rest =>
    let (built, ids) := buildEach index ids u.activities
    let (others, ids) := ParseUnit.buildActivities ids (index + 1) rest
    (built ++ others, ids)

open Activity

theorem Activity.issued_buildEach (unit : Nat) (ids : Ids) (nodes : List ParseNode) :
    Issued ids (buildEach unit ids nodes).2 (buildEach unit ids nodes).1 := by
  induction nodes generalizing ids with
  | nil => exact .nil (.refl ids)
  | cons node nodes ih =>
    have hfirst : Issued ids (build ids unit node).2 (build ids unit node).1.toOption.toList := by
      have hle := build_le ids unit node
      rcases hbuild : build ids unit node with ⟨_ | a, ids'⟩
      · rw [hbuild] at hle
        exact .nil hle
      · exact .of_build hbuild
    exact hfirst.append (ih (build ids unit node).2)

theorem ParseUnit.issued_buildActivities (ids : Ids) (index : Nat) (us : List ParseUnit) :
    Issued ids (buildActivities ids index us).2 (buildActivities ids index us).1 := by
  induction us generalizing ids index with
  | nil => exact .nil (.refl ids)
  | cons u us ih => exact (issued_buildEach index ids u.activities).append (ih _ _)

namespace CompilationUnit

/-- Building a unit goes through its activities, and drops those whose name is taken. -/
theorem foldl_add (unit : Nat) (nodes : List ParseNode) (p : Progress) :
    (nodes.foldl (Progress.add unit) p).ids = (Activity.buildEach unit p.ids nodes).2 ∧
      (nodes.foldl (Progress.add unit) p).activities.Sublist
        (p.activities ++ (Activity.buildEach unit p.ids nodes).1) := by
  induction nodes generalizing p with
  | nil => exact ⟨rfl, by simp [Activity.buildEach]⟩
  | cons node nodes ih =>
    obtain ⟨hids, hsub⟩ := ih (p.add unit node)
    have hstep : (p.add unit node).ids = (Activity.build p.ids unit node).2 ∧
        (p.add unit node).activities.Sublist
          (p.activities ++ (Activity.build p.ids unit node).1.toOption.toList) := by
      unfold Progress.add
      split
      · next hbuild => exact ⟨by rw [hbuild], by simp⟩
      · next hbuild =>
        split
        · exact ⟨by rw [hbuild], by simp⟩
        · exact ⟨by rw [hbuild], by simp [hbuild, Except.toOption]⟩
    rw [hstep.1] at hids hsub
    refine ⟨hids, hsub.trans ?_⟩
    rw [Activity.buildEach, ← append_assoc]
    exact hstep.2.append_right _

theorem activities_cons (o : Except (List CompileError) CompilationUnit)
    (os : List (Except (List CompileError) CompilationUnit)) :
    ((o :: os).filterMap Except.toOption).flatMap (·.activities) =
      o.toOption.toList.flatMap (·.activities) ++
        (os.filterMap Except.toOption).flatMap (·.activities) := by
  cases o <;> simp [List.filterMap_cons, Except.toOption]

theorem buildEach_activities (us : List ParseUnit) (ids : Ids) (index : Nat) :
    (buildEach ids index us).2 = (ParseUnit.buildActivities ids index us).2 ∧
      (((buildEach ids index us).1.filterMap Except.toOption).flatMap (·.activities)).Sublist
        (ParseUnit.buildActivities ids index us).1 := by
  induction us generalizing ids index with
  | nil => exact ⟨rfl, .slnil⟩
  | cons u us ih =>
    obtain ⟨hids, hsub⟩ := foldl_add index u.activities { ids := ids }
    have hunit : ((build ids index u).1.toOption.toList.flatMap (·.activities)).Sublist
        (Activity.buildEach index ids u.activities).1 := by
      unfold build Diagnostics.checkpoint
      dsimp only
      split
      · simpa [Except.map, Except.toOption] using hsub
      · exact nil_sublist _
    obtain ⟨hids', hsub'⟩ := ih (build ids index u).2 (index + 1)
    have hnext : (build ids index u).2 = (Activity.buildEach index ids u.activities).2 := hids
    rw [hnext] at hids' hsub'
    rw [buildEach, ParseUnit.buildActivities]
    dsimp only
    rw [hnext]
    refine ⟨hids', ?_⟩
    rw [activities_cons]
    exact hunit.append hsub'

end CompilationUnit

/-- Whatever units are built one after the other, and then resolved, no two markers of their
activities are the same and no two of their expressions have the same identity. This holds of the
units that are built, and also if every single activity that can be built is resolved. -/
theorem resolve_identified (us : List ParseUnit) (errors : Diagnostics) :
    let built := buildEach {} 0 us
    let units := resolveAll built.2 errors (built.1.filterMap Except.toOption)
    let every := resolveActivities built.2 errors
      (ParseUnit.buildActivities {} 0 us).1
    Identified units.2.1 (units.1.flatMap (·.activities)) ∧ Identified every.2.1 every.1 := by
  intro built units every
  obtain ⟨hids, hsub⟩ := buildEach_activities us {} 0
  have hissued : Issued {} built.2 (ParseUnit.buildActivities {} 0 us).1 := by
    rw [show built.2 = (ParseUnit.buildActivities {} 0 us).2 from hids]
    exact ParseUnit.issued_buildActivities {} 0 us
  refine ⟨?_, hissued.identified errors⟩
  have hresolve := resolveAll_activities
    (built.1.filterMap Except.toOption) built.2 errors
  have hunits := (hissued.sublist hsub).identified errors
  rw [← hresolve] at hunits
  exact hunits

end Workflow
