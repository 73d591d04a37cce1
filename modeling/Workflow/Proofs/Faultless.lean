import Workflow.Proofs.JumpTargets
import Workflow.Proofs.Matching

/-!
# No internal errors

No construction stops with an internal error. An activity that is resolved without errors refers
only to statements and stores that it has, so lowering reports no internal errors either, and what
would lie beyond the statements and the stores makes no difference to it.
-/

namespace Workflow

open Activity LowerContext

theorem CompileError.isPlain_iff {e : CompileError} :
    e.IsPlain ↔ e.cause.code ∉ ["W090", "W091"] := by
  rw [IsPlain, Cause.isInternal_eq]
  simp

namespace Activity

/-- Every index of a statement or a store that the activity holds, and that lowering follows, is in
range. -/
structure InRange (a : Activity) : Prop where
  stmts : ∀ m, a.NamesStmt m → m < a.stmts.size
  stores : ∀ k, a.NamesStore k → k < a.stores.size

def padded (a : Activity) (stmts : Array Stmt) (stores : Array Store) : Activity :=
  { a with stmts := a.stmts ++ stmts, stores := a.stores ++ stores }

variable {a b : Activity}

theorem StoresStay.size_le (h : a.StoresStay b) : a.stores.size ≤ b.stores.size := by
  refine Nat.le_of_not_lt fun hlt => ?_
  obtain ⟨st, hst, -⟩ := h b.stores.size _ (Array.getElem?_eq_getElem hlt)
  exact Nat.lt_irrefl _ (Array.getElem?_eq_some_iff.1 hst).1

/-- What was filled in well and then linked is in range. -/
theorem IsFilled.inRange (hfilled : a.IsFilled) (hkeeps : a.Keeps b) (hb : b.WellBuilt)
    (hcorrelated : b.Correlated) : b.InRange where
  stmts m hm := by
    cases hm with
    | root heq =>
      rw [heq, hb.root_eq.1]
      exact hb.root_eq.2.1
    | child i hmem => exact hb.lt_of_mem_children hmem
    | chained i hmem => exact (hb.lt_chained (by rw [chainedTo_eq]; exact hmem)).2
    | request i op hop hmem =>
      obtain ⟨-, request, hrequest, -⟩ := hcorrelated.request hop hmem
      exact lt_size_of_service? hrequest
  stores k hk := by
    have hsize := hkeeps.stores.size_le
    have hget : ∀ {st}, b.stores[k]? = some st → k < b.stores.size := fun hst =>
      (Array.getElem?_eq_some_iff.1 hst).1
    cases hk with
    | hosted host hmem =>
      obtain ⟨st, hst, -⟩ := (hb.sound.listed host k).1 hmem
      exact hget hst
    | parameter hmem =>
      obtain ⟨st, hst, -⟩ := hb.sound.parameters k hmem
      exact hget hst
    | result hmem => exact Nat.lt_of_lt_of_le (hfilled.result k (hkeeps.result ▸ hmem)) hsize
    | part i hmem =>
      rw [(hkeeps.kind i).storeRefs] at hmem
      exact Nat.lt_of_lt_of_le ((hfilled.kind i).stores k hmem) hsize
    | handle i op hop hmem =>
      obtain ⟨-, st, hst, -⟩ := hcorrelated.handle hop hmem
      exact hget hst

theorem inRange_resolve
    (h : build ids unit node = (.ok a, ids')) (last : Ids) (errors : Diagnostics) :
    (a.resolve last errors).1.InRange := by
  have hkeeps := keeps_resolve last errors a
  have ha := (build_ids h).1
  obtain ⟨-, hcorrelated, -⟩ := ha.resolve_spec (formed_build h).1 last errors
  exact (isFilled_build h).inRange hkeeps (hkeeps.wellBuilt ha) hcorrelated

/-- An activity whose indices are in range is there, with what it refers to, when more is added. -/
theorem InRange.included (h : a.InRange) (stmts : Array Stmt) (stores : Array Store) :
    a.Included (a.padded stmts stores) where
  name := rfl
  root := rfl
  size := by simp [padded]
  stmts i hi := Array.getElem?_append_left hi
  own := rfl
  parameters := rfl
  result := rfl
  stores k hk := Array.getElem?_append_left (h.stores k hk)
  request i op q hop hq := by
    have hlt := h.stmts q (.request i op hop hq)
    refine service?_congr ?_
    rw [kind, kind, padded, Array.getElem?_append_left hlt]

end Activity

namespace LowerContext

variable {a : Activity} {semantics : SemanticIndex} {maxDepth : Nat}

/-- Stores that the oracle does not name are not found. -/
theorem storeFor?_padded (stmts : Array Stmt) {stores : Array Store}
    (hstores : ∀ st ∈ stores, ∀ id, semantics.storeMarker? id ≠ some st.marker) (e : Expr) :
    storeFor? ⟨a.padded stmts stores, semantics, maxDepth⟩ e =
      storeFor? ⟨a, semantics, maxDepth⟩ e := by
  unfold storeFor?
  cases hmarker : semantics.storeMarker? e.id with
  | none => rfl
  | some m =>
    have hnone : stores.findIdx? (fun st => st.marker == m) = none := by
      rw [Array.findIdx?_eq_none_iff]
      intro st hst
      rw [beq_eq_false_iff_ne]
      rintro rfl
      exact hstores st hst e.id hmarker
    have hfind : (a.padded stmts stores).storeByMarker m = a.storeByMarker m := by
      rw [storeByMarker, storeByMarker, padded, Array.findIdx?_append,
        hnone]
      simp
    dsimp only [Option.bind_eq_bind, Option.bind_some]
    rw [hfind]
    cases hid : a.storeByMarker m with
    | none => rfl
    | some id =>
      have hlt : id < a.stores.size := by
        obtain ⟨hlt, -⟩ := Array.findIdx?_eq_some_iff_getElem.1 hid
        exact hlt
      exact Array.getElem?_append_left hlt

/-- The activity beside itself with further statements and stores, with an eye on internal
errors. -/
def View.padded (a : Activity) (semantics : SemanticIndex) (maxDepth : Nat) (stmts : Array Stmt)
    (stores : Array Store) : View ⟨a, semantics, maxDepth⟩ :=
  .beside ⟨a.padded stmts stores, semantics, maxDepth⟩ CompileError.IsPlain (fun _ he => he) rfl
    fun _ _ => rfl

theorem View.padded_ready (ha : a.WellBuilt) (hrange : a.InRange) (hrouted : a.Routed)
    (stmts : Array Stmt) {stores : Array Store}
    (hstores : ∀ st ∈ stores, ∀ id, semantics.storeMarker? id ≠ some st.marker) :
    (View.Tally.trivial (View.padded a semantics maxDepth stmts stores)).Ready where
  wellBuilt := ha
  included := hrange.included stmts stores
  shown _ := ⟨fun _ _ => rfl, fun _ _ => rfl, fun e _ => storeFor?_padded stmts hstores e,
    fun _ _ => trivial, fun _ _ => trivial⟩
  placed := a.placed_trivial
  deep := .inl fun _ _ => rfl
  whole := trivial
  routed := .inr ⟨id, hrouted⟩

end LowerContext

/-- Building stops with no internal error. An activity that was built and is resolved without errors
holds only indices that are in range. Whatever the oracle says and however deep expressions may
nest, it is lowered without internal errors, and to the same graph and errors as with any further
statements and stores, of which the oracle names none. -/
theorem internal_errors_unreachable :
    (∀ (ids ids' : Ids) (unit : Nat) (node : ParseNode) (e : CompileError),
      build ids unit node = (.error e, ids') → e.cause.code ∉ ["W090", "W091"]) ∧
    ∀ (ids ids' : Ids) (unit : Nat) (node : ParseNode) (a : Activity),
      build ids unit node = (.ok a, ids') →
      ∀ (last : Ids) (errors : Diagnostics), (a.resolve last errors).2.2.errors = errors.errors →
        (a.resolve last errors).1.InRange ∧
        ∀ (ns : Option String) (semantics : SemanticIndex) (maxDepth : Nat),
          (∀ e ∈ ((a.resolve last errors).1.lower ns semantics maxDepth).2,
            e.cause.code ∉ ["W090", "W091"]) ∧
          ∀ (stmts : Array Stmt) (stores : Array Store),
            (∀ st ∈ stores, ∀ id, semantics.storeMarker? id ≠ some st.marker) →
            ((a.resolve last errors).1.padded stmts stores).lower ns semantics maxDepth =
              (a.resolve last errors).1.lower ns semantics maxDepth := by
  refine ⟨fun ids ids' unit node e h => ?_, fun ids ids' unit node a h last errors herrors => ?_⟩
  · exact CompileError.isPlain_iff.1 (checked_build ids unit node e (by rw [h]))
  have hrange := inRange_resolve h last errors
  have haimed := aimed_resolve h last errors herrors
  generalize (a.resolve last errors).1 = b at hrange haimed
  refine ⟨hrange, fun ns semantics maxDepth => ?_⟩
  have hroot : (b.tag b.root).isPart = false := by
    rw [haimed.keeps.root]
    exact (haimed.standsAlone (formed_build h).2).2
  have hwell := haimed.keeps.wellBuilt haimed.wellBuilt
  have hrouted := haimed.routed (c := ⟨b, semantics, maxDepth⟩)
  constructor
  · intro e he
    have hready : (View.Tally.trivial (.padded b semantics maxDepth #[] #[])).Ready :=
      View.padded_ready hwell hrange hrouted #[] (by simp)
    exact CompileError.isPlain_iff.1 (Lower.allows_lower hready (.inr hroot) ns e he)
  · intro stmts stores hstores
    exact Lower.other_lower (View.padded_ready hwell hrange hrouted stmts hstores)
      (.inr hroot) ns False.elim

section Crowded

def crowdedNode : ParseNode :=
  .main (.sequence [
    { label := "try"
      members := [("body", { label := "persist" })]
      items := [
        { label := "catch", text := some "e", members := [("body", { label := "empty" })] }] },
    { label := "pick"
      items := [{ label := "branch", members := [("trigger", { label := "persist" })] }] },
    { label := "transacted-receive"
      members := [("request", operationNode "receive" none none),
        ("body", operationNode "send-reply" none none)] },
    { label := "statemachine"
      items := [
        { label := "final-state", text := some "done" },
        { label := "state", text := some "work"
          items := [{ label := "transition", members := [("target", .reference "done")] }] }] }])

def strayHandler : Stmt where
  tag := .handler
  kind := .handler ⟨"Exception"⟩ (some 7) 3
  parent := none
  span := {}

theorem internal_errors_unreachable_crowdedNode :
    (∃ e, build {} 0 { label := "state" } = (.error e, {}) ∧ e.cause.code = "W002" ∧
      e.cause.code ∉ ["W090", "W091"]) ∧ ∃ a ids', build {} 0 crowdedNode = (.ok a, ids') ∧
      (a.resolve ids' {}).2.2.errors = [] ∧ (a.resolve ids' {}).1.InRange ∧
      (a.stmts.size = 16 ∧ (a.resolve ids' {}).1.stores.size = 2) ∧
      (∀ e ∈ ((a.resolve ids' {}).1.lower none {} 64).2, e.cause.code ∉ ["W090", "W091"]) ∧
      ((a.resolve ids' {}).1.padded #[strayHandler] #[]).lower none {} 64 =
        (a.resolve ids' {}).1.lower none {} 64 := by
  constructor
  · exact ⟨_, rfl, rfl, internal_errors_unreachable.1 {} {} 0 { label := "state" } _ rfl⟩
  · obtain ⟨a, ids', h, herrors, hsizes⟩ := crowdedNode.exists_of_builds
      (P := fun a ids' => (a.resolve ids' {}).2.2.errors = [] ∧ a.stmts.size = 16 ∧
        (a.resolve ids' {}).1.stores.size = 2) (by decide +kernel)
    obtain ⟨hrange, hlower⟩ := internal_errors_unreachable.2 _ _ _ _ a h ids' {} herrors
    obtain ⟨hplain, hpadded⟩ := hlower none {} 64
    exact ⟨a, ids', h, herrors, hrange, hsizes, hplain, hpadded #[strayHandler] #[] (by simp)⟩

end Crowded

end Workflow
