import Workflow.Compile
import Workflow.Proofs.Build.Resolve

/-!
# Identities across a program

The identities of expressions are given out for all activities of a program together. So in a
program that is prepared without errors no two expressions have the same identity, whichever
activities of whichever units they are in.
-/

namespace Workflow

open CompilationUnit Activity List ExternalNodeType

variable {p : ParseProgram} {units : List CompilationUnit}
variable {ids : Ids} {built : List CompilationUnit}

/-- The activities are well built, from identities between two numbers, each used once. -/
structure Activity.Allocated (lo hi : Nat) (as : List Activity) : Prop where
  wellBuilt : ∀ a ∈ as, a.WellBuilt
  le : lo ≤ hi
  ids : exprIds (as.flatMap exprs) ≤ (Finset.Ioc lo hi).val

/-- An activity was built, and it was resolved with markers that come after those that it was built
with. -/
def Activity.Prepared (a : Activity) : Prop :=
  ∃ (ids ids' last : Ids) (unit : Nat) (node : ParseNode) (built : Activity) (errors : Diagnostics),
    build ids unit node = (.ok built, ids') ∧ ids'.markers ≤ last.markers ∧
      a = (built.resolve last errors).1

/-- The activities were built one after the other. -/
structure Activity.Made (lo hi : Ids) (as : List Activity) : Prop where
  allocated : Allocated lo.exprs hi.exprs as
  markers : lo.markers ≤ hi.markers
  built : ∀ a ∈ as, ∃ ids ids' unit node, build ids unit node = (.ok a, ids') ∧
    ids'.markers ≤ hi.markers

theorem Activity.forall_of_keeps {P : Activity → Prop}
    (hP : ∀ {a b : Activity}, a.Keeps b → P a → P b) (hkeeps : Forall₂ Keeps as bs)
    (h : ∀ a ∈ as, P a) : ∀ b ∈ bs, P b := by
  induction hkeeps with
  | nil => exact h
  | cons hab _ ih =>
    rw [forall_mem_cons] at h ⊢
    exact ⟨hP hab h.1, ih h.2⟩

theorem Activity.flatMap_exprs_of_keeps (hkeeps : Forall₂ Keeps as bs) :
    bs.flatMap exprs = as.flatMap exprs := by
  induction hkeeps with
  | nil => rfl
  | cons hab _ ih => rw [flatMap_cons, flatMap_cons, hab.exprs, ih]

namespace Activity.Allocated

variable {lo mid hi : Nat} {as bs : List Activity}

theorem nodup (h : Allocated lo hi as) : (exprIds (as.flatMap exprs)).Nodup :=
  Multiset.nodup_of_le h.ids (Finset.nodup _)

theorem append (ha : Allocated lo mid as) (hb : Allocated mid hi bs) :
    Allocated lo hi (as ++ bs) where
  wellBuilt := forall_mem_append.2 ⟨ha.wellBuilt, hb.wellBuilt⟩
  le := ha.le.trans hb.le
  ids := by
    rw [flatMap_append, exprIds_append, ← Ioc_val_add ha.le hb.le]
    exact add_le_add ha.ids hb.ids

theorem keeps (h : Allocated lo hi as) (hkeeps : Forall₂ Keeps as bs) : Allocated lo hi bs where
  wellBuilt := forall_of_keeps (fun hab ha => hab.wellBuilt ha) hkeeps h.wellBuilt
  le := h.le
  ids := by
    rw [flatMap_exprs_of_keeps hkeeps]
    exact h.ids

end Activity.Allocated

namespace Activity.Made

variable {lo mid hi : Ids} {as bs : List Activity}

theorem nil (ids : Ids) : Made ids ids [] := ⟨⟨by simp, le_rfl, by simp⟩, le_rfl, by simp⟩

theorem append (ha : Made lo mid as) (hb : Made mid hi bs) : Made lo hi (as ++ bs) where
  allocated := ha.allocated.append hb.allocated
  markers := ha.markers.trans hb.markers
  built := by
    refine forall_mem_append.2 ⟨fun a hmem => ?_, hb.built⟩
    obtain ⟨ids, ids', unit, node, hbuild, hle⟩ := ha.built a hmem
    exact ⟨ids, ids', unit, node, hbuild, hle.trans hb.markers⟩

theorem of_build (h : build ids unit node = (.ok a, ids')) : Made ids ids' [a] := by
  obtain ⟨hwell, hle, hids⟩ := build_ids h
  obtain ⟨-, -, hmarkers, -⟩ := build_tokens h
  refine ⟨⟨by simpa using hwell, hle, by simpa using hids⟩, hmarkers, ?_⟩
  simpa using ⟨ids, ids', ⟨unit, node, h⟩, le_rfl⟩

theorem prepared (h : Made lo hi as) (hlast : hi.markers ≤ last.markers) (errors : Diagnostics) :
    (∀ a ∈ (resolveActivities last errors as).1, a.Prepared) ∧
      last.markers ≤ (resolveActivities last errors as).2.1.markers := by
  have hbuilt := h.built
  clear h
  induction as generalizing last errors with
  | nil => exact ⟨by simp [resolveActivities], le_rfl⟩
  | cons a as ih =>
    obtain ⟨⟨ids, ids', unit, node, hbuild, hle⟩, hrest⟩ := forall_mem_cons.1 hbuilt
    have hnext := (markers_resolve last errors a).1
    obtain ⟨hprepared, hmarkers⟩ := ih (hlast.trans hnext) (a.resolve last errors).2.2 hrest
    exact ⟨forall_mem_cons.2 ⟨⟨ids, ids', last, unit, node, a, errors, hbuild,
      hle.trans hlast, rfl⟩, hprepared⟩, hnext.trans hmarkers⟩

end Activity.Made

namespace CompilationUnit

open Activity

theorem made_add {p : Progress} (hp : p.errors.errors = [] → Made lo p.ids p.activities) :
    (p.add unit node).errors.errors = [] →
      Made lo (p.add unit node).ids (p.add unit node).activities := by
  unfold Progress.add
  split
  · simp
  · next a ids' hbuild =>
    split
    · simp [Diagnostics.report]
    · exact fun herrors => (hp herrors).append (.of_build hbuild)

theorem made_foldl {unit : Nat} {lo : Ids} (nodes : List ParseNode) {p : Progress}
    (hp : p.errors.errors = [] → Made lo p.ids p.activities) :
    (nodes.foldl (Progress.add unit) p).errors.errors = [] →
      Made lo (nodes.foldl (Progress.add unit) p).ids
        (nodes.foldl (Progress.add unit) p).activities := by
  induction nodes generalizing p with
  | nil => exact hp
  | cons node nodes ih => exact ih (made_add hp)

theorem made_build {index : Nat} {u : ParseUnit} {unit : CompilationUnit}
    (h : (build ids index u).1 = .ok unit) : Made ids (build ids index u).2 unit.activities := by
  have hall := @made_foldl index ids u.activities { ids := ids } fun _ => .nil ids
  unfold build Diagnostics.checkpoint at h
  dsimp only at h
  split at h
  · next hempty =>
    cases h
    exact hall (isEmpty_iff.1 hempty)
  · cases h

theorem gather_cons_ok {α : Type} (v : α) (outcomes : List (Except (List CompileError) α)) :
    gather (.ok v :: outcomes) = (gather outcomes).map (v :: ·) := by
  unfold gather
  simp only [flatMap_cons, nil_append]
  split <;> rfl

theorem gather_cons_error {α : Type} (hes : es ≠ [])
    (outcomes : List (Except (List CompileError) α)) (vs : List α) :
    gather (.error es :: outcomes) ≠ .ok vs := by
  simp [gather, hes]

theorem build_error {index : Nat} {u : ParseUnit} {es : List CompileError}
    (h : (build ids index u).1 = .error es) : es ≠ [] := by
  unfold build Diagnostics.checkpoint at h
  dsimp only at h
  split at h
  · cases h
  · next hne =>
    cases h
    exact fun hnil => hne (isEmpty_iff.2 hnil)

theorem made_buildEach (us : List ParseUnit) (ids : Ids) (index : Nat)
    (h : gather (buildEach ids index us).1 = .ok units) :
    Made ids (buildEach ids index us).2 (units.flatMap (·.activities)) := by
  induction us generalizing ids index units with
  | nil =>
    cases h
    exact .nil _
  | cons u us ih =>
    rw [buildEach] at h ⊢
    dsimp only at h ⊢
    cases hu : (build ids index u).1 with
    | error es =>
      rw [hu] at h
      exact absurd h (gather_cons_error (build_error hu) _ _)
    | ok unit =>
      rw [hu, gather_cons_ok] at h
      cases hrest : gather (buildEach (build ids index u).2 (index + 1) us).1 with
      | error es =>
        rw [hrest] at h
        cases h
      | ok rest =>
        rw [hrest] at h
        cases h
        exact (made_build hu).append (ih _ _ hrest)

theorem keeps_resolveActivities (as : List Activity) (ids : Ids) (errors : Diagnostics) :
    Forall₂ Keeps as (resolveActivities ids errors as).1 := by
  induction as generalizing ids errors with
  | nil => exact .nil
  | cons a as ih => exact .cons (keeps_resolve ids errors a) (ih _ _)

theorem resolveActivities_append (as bs : List Activity) (ids : Ids) (errors : Diagnostics) :
    resolveActivities ids errors (as ++ bs) = let first := resolveActivities ids errors as
      let second := resolveActivities first.2.1 first.2.2 bs
      (first.1 ++ second.1, second.2) := by
  induction as generalizing ids errors with
  | nil => rfl
  | cons a as ih =>
    simp only [cons_append, resolveActivities, ih]

theorem resolveAll_activities (units : List CompilationUnit) (ids : Ids) (errors : Diagnostics) :
    ((resolveAll ids errors units).1.flatMap (·.activities), (resolveAll ids errors units).2) =
      resolveActivities ids errors (units.flatMap (·.activities)) := by
  induction units generalizing ids errors with
  | nil => rfl
  | cons u units ih =>
    rw [flatMap_cons, resolveActivities_append]
    dsimp only
    rw [← ih]
    rfl

theorem activities_resolveAll (units : List CompilationUnit) (ids : Ids) (errors : Diagnostics) :
    (resolveAll ids errors units).1.flatMap (·.activities) =
      (resolveActivities ids errors (units.flatMap (·.activities))).1 :=
  congrArg Prod.fst (resolveAll_activities units ids errors)

theorem gather_of_buildAll (h : buildAll p = (.ok built, ids)) :
    gather (buildEach {} 0 p.units).1 = .ok built ∧ (buildEach {} 0 p.units).2 = ids :=
  ⟨congrArg Prod.fst h, congrArg Prod.snd h⟩

/-- The activities of a resolved program are well built, and no two expressions have one identity.
-/
theorem allocated_resolveAll (h : buildAll p = (.ok built, ids)) (errors : Diagnostics) :
    ∃ n, Allocated 0 n ((resolveAll ids errors built).1.flatMap (·.activities)) := by
  obtain ⟨hbuilt, rfl⟩ := gather_of_buildAll h
  rw [activities_resolveAll]
  exact ⟨_, (made_buildEach p.units {} 0 hbuilt).allocated.keeps (keeps_resolveActivities _ _ _)⟩

/-- The activities of a program that is built and resolved are prepared. -/
theorem prepared_resolveAll (h : buildAll p = (.ok built, ids)) (errors : Diagnostics) :
    ∀ a ∈ (resolveAll ids errors built).1.flatMap (·.activities), a.Prepared := by
  obtain ⟨hbuilt, rfl⟩ := gather_of_buildAll h
  rw [activities_resolveAll]
  exact ((made_buildEach p.units {} 0 hbuilt).prepared le_rfl errors).1

/-- A prepared program was built, and then resolved. -/
theorem prepare_eq_ok (h : prepare p = .ok units) : ∃ built ids, buildAll p = (.ok built, ids) ∧
      units = (resolveAll ids {} built).1 := by
  unfold prepare at h
  rcases hbuild : buildAll p with ⟨outcome, ids⟩
  rw [hbuild] at h
  cases outcome with
  | error es => cases h
  | ok built =>
    refine ⟨built, ids, rfl, ?_⟩
    change (do
      (resolveAll ids {} built).2.2.checkpoint
      pure (resolveAll ids {} built).1) = Except.ok units at h
    cases hcheck : (resolveAll ids {} built).2.2.checkpoint with
    | error es =>
      rw [hcheck] at h
      cases h
    | ok _ =>
      rw [hcheck] at h
      cases h
      rfl

/-- The activities of a prepared program are well built, and no two of their expressions have the
same identity. -/
theorem allocated_prepare
    (h : prepare p = .ok units) : ∃ n, Allocated 0 n (units.flatMap (·.activities)) := by
  obtain ⟨built, ids, hbuild, rfl⟩ := prepare_eq_ok h
  exact allocated_resolveAll hbuild {}

theorem prepared_prepare
    (h : prepare p = .ok units) : ∀ a ∈ units.flatMap (·.activities), a.Prepared := by
  obtain ⟨built, ids, hbuild, rfl⟩ := prepare_eq_ok h
  exact prepared_resolveAll hbuild {}

end CompilationUnit

/-! ### Programs that can be checked by evaluation -/

/-- Whether a program is analyzed without errors and one of its activities passes a test, given what
the oracle said. -/
def ParseProgram.anyActivity (p : ParseProgram) (test : SemanticIndex → Activity → Bool) : Bool :=
  match prepare p with
  | .error _ => false
  | .ok units =>
    match ModelUnit.analyzeAll
        (ModelProgram.emit units (synthesize [])).units with
    | .error _ => false
    | .ok answer => units.any fun u => u.activities.any (test answer.index)

theorem ParseProgram.exists_of_anyActivity (p : ParseProgram)
    {P : SemanticIndex → Activity → Prop} [∀ x a, Decidable (P x a)]
    (h : p.anyActivity (fun x a => decide (P x a)) = true) :
    ∃ units answer, prepare p = .ok units ∧
      ModelUnit.analyzeAll (ModelProgram.emit units (synthesize [])).units =
        .ok answer ∧ ∃ u ∈ units, ∃ a ∈ u.activities, P answer.index a := by
  unfold anyActivity at h
  split at h
  · cases h
  · next units hunits =>
    split at h
    · cases h
    · next answer hanswer =>
      simp only [any_eq_true, decide_eq_true_eq] at h
      exact ⟨units, answer, hunits, hanswer, h⟩

/-- Whether a program is analyzed without errors, and its units and the answer pass a test. -/
def ParseProgram.passes (p : ParseProgram)
    (test : List CompilationUnit → SemanticModel → Bool) : Bool :=
  match buildAll p with
  | (.error _, _) => false
  | (.ok built, ids) =>
    let units := (resolveAll ids {} built).1
    match ModelUnit.analyzeAll
        (ModelProgram.emit units (synthesize [])).units with
    | .error _ => false
    | .ok answer => test units answer

theorem ParseProgram.exists_of_passes
    {test : List CompilationUnit → SemanticModel → Bool} (h : p.passes test = true) :
    ∃ built ids units answer, buildAll p = (.ok built, ids) ∧ units = (resolveAll ids {} built).1 ∧
      ModelUnit.analyzeAll (ModelProgram.emit units (synthesize [])).units =
        .ok answer ∧ test units answer = true := by
  unfold passes at h
  split at h
  · cases h
  · next built ids hbuild =>
    dsimp only at h
    split at h
    · cases h
    · next answer hanswer => exact ⟨built, ids, _, answer, hbuild, rfl, hanswer, h⟩

end Workflow
