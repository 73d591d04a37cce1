import Workflow.Proofs.Lower.Walk
import Workflow.Proofs.Pipeline

/-!
# The units of errors

The spans of a source tree may name any unit. Building moves them to the unit that is built, and so
all errors of resolution and lowering are in this unit. Errors of building are there as well, unless
an accessor of a node fails: accessors report the place of the node as the tree has it.
-/

namespace Workflow

open List

open LowerContext (View)

/-! ### Building -/

/-- An accessor reports the place of a node as it is. -/
theorem ParseNode.Refuses.span {n m : ParseNode} {e : CompileError} (hm : n.Contains m)
    (h : m.Refuses e) : ∃ l, n.Contains l ∧ e.span = l.span := by
  have hrequire : ∀ name, m.require name = .error e → ∃ l, n.Contains l ∧ e.span = l.span := by
    intro name h
    unfold ParseNode.require at h
    split at h <;> cases h
    exact ⟨m, hm, rfl⟩
  cases h with
  | member name h => exact hrequire name h
  | text h =>
    unfold ParseNode.requireText at h
    split at h <;> cases h
    exact ⟨m, hm, rfl⟩
  | expr name h =>
    unfold ParseNode.requireExpr at h
    cases hl : m.require name with
    | error e' =>
      rw [hl] at h
      cases h
      exact hrequire name hl
    | ok l =>
      rw [hl] at h
      simp only [Bind.bind, Except.bind] at h
      split at h <;> cases h
      exact ⟨l, hm.member (ParseNode.member_of_require hl), rfl⟩

namespace CompilationUnit

/-- The activities of a unit so far, and errors in the unit or of accessors. -/
structure Progress.Located (unit : Nat) (nodes : List ParseNode) (p : Progress) : Prop where
  activities : ∀ a ∈ p.activities, ∃ ids ids' node, Activity.build ids unit node = (.ok a, ids')
  errors : ∀ e ∈ p.errors.errors, e.span.unit = unit ∨
    ∃ n ∈ nodes, ∃ m, n.Contains m ∧ m.Refuses e

theorem Progress.Located.add {p : Progress} (h : p.Located unit nodes) (hnode : node ∈ nodes) :
    (p.add unit node).Located unit nodes := by
  have hspec := (Activity.build_spec p.ids unit node).2
  unfold Progress.add
  split
  · next e ids' hbuild =>
    rw [hbuild] at hspec
    refine ⟨h.activities, forall_mem_append.2 ⟨h.errors, forall_mem_singleton.2 ?_⟩⟩
    exact hspec.place.imp_right fun hrefused => ⟨node, hnode, hrefused⟩
  · next a ids' hbuild =>
    split
    · refine ⟨h.activities, forall_mem_append.2 ⟨h.errors, forall_mem_singleton.2 ?_⟩⟩
      exact .inl (Activity.placed_build hbuild).1
    · refine ⟨forall_mem_append.2 ⟨h.activities, forall_mem_singleton.2 ?_⟩, h.errors⟩
      exact ⟨p.ids, ids', node, hbuild⟩

theorem located_foldl (ids : Ids) (unit : Nat) (nodes : List ParseNode) :
    (nodes.foldl (Progress.add unit) { ids := ids }).Located unit nodes := by
  have hall : ∀ (rest : List ParseNode) (p : Progress), (∀ n ∈ rest, n ∈ nodes) →
      p.Located unit nodes → (rest.foldl (Progress.add unit) p).Located unit nodes := by
    intro rest
    induction rest with
    | nil => exact fun p _ hp => hp
    | cons n rest ih =>
      intro p hrest hp
      obtain ⟨hn, hrest⟩ := forall_mem_cons.1 hrest
      exact ih _ hrest (hp.add hn)
  exact hall nodes _ (fun _ hn => hn) ⟨fun _ ha => (by cases ha), fun _ he => by cases he⟩

/-! ### Resolution -/

theorem placed_resolveActivities {P : Span → Prop}
    (has : ∀ a ∈ as, a.Placed P) (ids : Ids) (errors : Diagnostics) :
    (∀ a ∈ (resolveActivities ids errors as).1, a.Placed P) ∧
      ∀ e ∈ (resolveActivities ids errors as).2.2.errors, e ∈ errors.errors ∨ P e.span := by
  induction as generalizing ids errors with
  | nil => exact ⟨fun _ ha => (by cases ha), fun _ he => .inl he⟩
  | cons a as ih =>
    obtain ⟨ha, has⟩ := forall_mem_cons.1 has
    obtain ⟨ha', herrors⟩ := Activity.placed_resolve ids errors ha
    obtain ⟨has', herrors'⟩ := ih has (a.resolve ids errors).2.1 (a.resolve ids errors).2.2
    refine ⟨forall_mem_cons.2 ⟨ha', has'⟩, fun e he => ?_⟩
    exact (herrors' e he).elim (herrors e) .inr

theorem wellBuilt_resolveActivities (has : ∀ a ∈ as, a.WellBuilt) (ids : Ids)
    (errors : Diagnostics) : ∀ a ∈ (resolveActivities ids errors as).1, a.WellBuilt :=
  Activity.forall_of_keeps (fun h ha => h.wellBuilt ha) (keeps_resolveActivities as ids errors) has

end CompilationUnit

/-! ### Lowering -/

theorem Activity.Placed.lower {a : Activity} {P : Span → Prop} (h : a.Placed P) (ha : a.WellBuilt)
    (ns : Option String) (semantics : SemanticIndex) (maxDepth : Nat) :
    ∀ e ∈ (a.lower ns semantics maxDepth).2, P e.span := by
  let W : View ⟨a, semantics, maxDepth⟩ := .reporting h (P ·.span) fun _ _ hspan => hspan
  have hshown : ∀ i, ∀ e ∈ (a.kind i).shown, P e.span := by
    intro i e he
    have hexprs : e ∈ (a.kind i).exprs :=
      (a.kind i).exprs_perm.mem_iff.2 (mem_append_left _ he)
    rcases mem_append.1 hexprs with he | he
    · exact (h.kind i).body e he
    · obtain ⟨f, hf, he⟩ := mem_flatMap.1 he
      exact ((h.kind i).slots f hf).nodes e he
  have hsees : W.Sees :=
    ⟨ha, .refl a, fun i => ⟨fun _ _ => rfl, fun _ _ => rfl, fun _ _ => rfl, hshown i,
      fun _ _ => trivial⟩, h, .inl fun _ hspan => hspan, trivial⟩
  have hloose : (View.Tally.trivial W).Loose := ⟨fun _ _ hspan _ => hspan, fun _ _ _ => trivial⟩
  exact Lower.allows_lower ⟨hsees, .inl hloose⟩ (.inl hloose) ns

namespace CompilationUnit

theorem build_eq_ok (h : (build ids k u).1 = .ok unit) :
    ∀ a ∈ unit.activities, ∃ ids ids' node, Activity.build ids k node = (.ok a, ids') := by
  obtain ⟨-, -, rfl⟩ := map_eq_ok.1 h
  exact (located_foldl ids k u.activities).activities

/-- The errors of building a unit are in the unit, whatever units the spans of the source name,
unless an accessor failed: then the error is at the place of a node as the source has it. All errors
of resolving and lowering the unit are in the unit. -/
theorem errors_in_unit (ids : Ids) (k : Nat) (u : ParseUnit) :
    (∀ es, (build ids k u).1 = .error es → ∀ e ∈ es, e.span.unit = k ∨
      ∃ n ∈ u.activities, (∃ m, n.Contains m ∧ m.Refuses e) ∧ ∃ m, n.Contains m ∧ e.span = m.span) ∧
    ∀ unit, (build ids k u).1 = .ok unit → ∀ (last : Ids) (errors : Diagnostics),
      (∀ e ∈ (unit.resolve last errors).2.2.errors, e ∈ errors.errors ∨ e.span.unit = k) ∧
      ∀ (semantics : SemanticIndex) (maxDepth : Nat) (es : List CompileError),
        (unit.resolve last errors).1.lower semantics maxDepth = .error es →
          ∀ e ∈ es, e.span.unit = k := by
  refine ⟨fun es h e he => ?_, fun unit h last errors => ?_⟩
  · obtain ⟨rfl, -⟩ := Diagnostics.checkpoint_eq_error.1 (map_eq_error.1 h)
    refine ((located_foldl ids k u.activities).errors e he).imp_right ?_
    rintro ⟨n, hn, m, hm, hrefuses⟩
    exact ⟨n, hn, ⟨m, hm, hrefuses⟩, hrefuses.span hm⟩
  · have hbuilt := build_eq_ok h
    have hunit : ∀ a ∈ unit.activities, a.Placed (·.unit = k) := fun a ha => by
      obtain ⟨_, _, _, hbuild⟩ := hbuilt a ha
      exact (Activity.placed_build hbuild).2
    have hwellBuilt : ∀ a ∈ unit.activities, a.WellBuilt := fun a ha => by
      obtain ⟨_, _, _, hbuild⟩ := hbuilt a ha
      exact (Activity.build_ids hbuild).1
    obtain ⟨hplaced, herrors⟩ := placed_resolveActivities hunit last errors
    have hwell := wellBuilt_resolveActivities hwellBuilt last errors
    refine ⟨herrors, fun semantics maxDepth es hes e he => ?_⟩
    obtain ⟨rfl, -⟩ := Diagnostics.checkpoint_eq_error.1 (map_eq_error.1 hes)
    obtain ⟨r, hr, he⟩ := mem_flatMap.1 he
    obtain ⟨a, ha, rfl⟩ := mem_map.1 hr
    exact (hplaced a ha).lower (hwell a ha) _ _ _ e he

section Stray

/-- An activity without a body, whose span names another unit. -/
def bodilessUnit : ParseUnit where
  activities := [{ label := "activity", text := some "Main", span := { unit := 7, line := 1 } }]

def bodilessUnit.error : CompileError :=
  (Cause.missingMember "activity" "body").error { unit := 7, line := 1 }

/-- The missing body is reported in the unit that the span names. -/
theorem bodilessUnit_reported_elsewhere :
    (build {} 0 bodilessUnit).1 = .error [bodilessUnit.error] ∧ bodilessUnit.error.span.unit = 7 :=
  ⟨rfl, rfl⟩

/-- `1 + 1;` and a reply to an operation that is not there, both with spans in another unit. -/
def strayUnit : ParseUnit where
  activities := [{
    label := "activity"
    text := some "Main"
    span := { unit := 7, line := 1 }
    members := [("body", {
      label := "sequence"
      span := { unit := 7, line := 2 }
      items := [
        { label := "code", span := { unit := 7, line := 3 }
          code := some [.eval (.binary { span := { unit := 7, line := 3 } } .add (.int 1)
            (.int 1))] },
        { label := "send-reply", span := { unit := 7, line := 4 }
          members := [("contract", .typeName "IOrders"),
            ("operation", { label := "name", text := some "Next" }),
            ("request", .reference "gone")] }] })] }]

/-- Whether the unit is built as the fourth one, and neither resolved nor lowered without errors. -/
def strayUnit.fails : Bool :=
  match (build {} 3 strayUnit).1 with
  | .error _ => false
  | .ok unit => !(unit.resolve {} {}).2.2.errors.isEmpty &&
      !((unit.resolve {} {}).1.lower {} 0).toBool

theorem errors_in_unit_strayUnit :
    (∃ unit, (build {} 3 strayUnit).1 = .ok unit ∧ (unit.resolve {} {}).2.2.errors ≠ [] ∧
      (∀ e ∈ (unit.resolve {} {}).2.2.errors, e ∈ ([] : List CompileError) ∨ e.span.unit = 3) ∧
      ∃ es, (unit.resolve {} {}).1.lower {} 0 = .error es ∧ ∀ e ∈ es, e.span.unit = 3) ∧
    ∃ n ∈ bodilessUnit.activities, ∃ m, n.Contains m ∧ m.Refuses bodilessUnit.error := by
  have hfails : strayUnit.fails = true := by decide +kernel
  constructor
  · unfold strayUnit.fails at hfails
    split at hfails
    · cases hfails
    · next unit hbuild =>
      obtain ⟨hresolve, hlower⟩ := Bool.and_eq_true_iff.1 hfails
      obtain ⟨herrors, hall⟩ := (errors_in_unit {} 3 strayUnit).2 unit hbuild {} {}
      refine ⟨unit, hbuild, by simpa using hresolve, herrors, ?_⟩
      cases hes : (unit.resolve {} {}).1.lower {} 0 with
      | ok graphs => simp [hes, Except.toBool] at hlower
      | error es => exact ⟨es, rfl, hall {} 0 es hes⟩
  · have hother := (errors_in_unit {} 0 bodilessUnit).1 _ rfl bodilessUnit.error
      mem_cons_self
    obtain ⟨n, hn, hrefuses, -⟩ := hother.resolve_left (by decide)
    exact ⟨n, hn, hrefuses⟩

end Stray

end CompilationUnit

end Workflow
