import Workflow.Proofs.Lower.Walk
import Workflow.Proofs.Model.Coverage

/-!
# The lexical oracle answers for everything

The lexical oracle annotates every expression that a model program shows, once. As the model program
marks nothing but the code that it shows, no fragment is left without an answer, and no other error
of the compiler says that one is.
-/

namespace Workflow

open ModelProgram CompilationUnit List ExternalNodeType CompilationInput ModelUnit Diagnostics

variable {units : List CompilationUnit}

/-- If there is no outcome, all errors are about the program. -/
def CheckedAll {α : Type} (x : Except (List CompileError) α) : Prop :=
  ∀ es, x = .error es → Clear ⟨es⟩

section CheckedAll

variable {α β : Type}

theorem checkedAll_ok (v : α) : CheckedAll (.ok v) := by
  rintro _ ⟨⟩

theorem CheckedAll.bind {x : Except (List CompileError) α}
    {f : α → Except (List CompileError) β} (hx : CheckedAll x) (hf : ∀ v, CheckedAll (f v)) :
    CheckedAll (x >>= f) := by
  cases x with
  | error es =>
    rintro _ ⟨⟩
    exact hx es rfl
  | ok v => exact hf v

theorem CheckedAll.map {x : Except (List CompileError) α} (hx : CheckedAll x) (f : α → β) :
    CheckedAll (x.map f) := by
  cases x with
  | error es =>
    rintro _ ⟨⟩
    exact hx es rfl
  | ok v => exact checkedAll_ok _

theorem Diagnostics.Clear.checkpoint {d : Diagnostics} (hd : d.Clear) : CheckedAll d.checkpoint := by
  unfold Diagnostics.checkpoint
  split
  · exact checkedAll_ok _
  · rintro _ ⟨⟩
    exact hd

theorem checkedAll_gather {outcomes : List (Except (List CompileError) α)}
    (h : ∀ x ∈ outcomes, CheckedAll x) : CheckedAll (gather outcomes) := by
  unfold gather
  dsimp only
  split
  · exact checkedAll_ok _
  · rintro _ ⟨⟩ e he
    obtain ⟨x, hx, he⟩ := mem_flatMap.1 he
    cases x with
    | error es => exact h _ hx es rfl e he
    | ok v => cases he

end CheckedAll

/-! ### Building and resolving -/

namespace CompilationUnit

theorem clear_add (unit : Nat) {p : Progress} (hp : p.errors.Clear) (node : ParseNode) :
    (p.add unit node).errors.Clear := by
  unfold Progress.add
  split
  · next e ids' h =>
    have he := Activity.checked_build p.ids unit node e (by rw [h])
    exact hp.push (CompileError.not_isUnanswered_of_cause he)
  · split
    · exact hp.push (by rintro ⟨_, ⟨⟩⟩)
    · exact hp

theorem checkedAll_build (ids : Ids) (index : Nat) (u : ParseUnit) :
    CheckedAll (build ids index u).1 := by
  have hall : ∀ (nodes : List ParseNode) (p : Progress), p.errors.Clear →
      (nodes.foldl (Progress.add index) p).errors.Clear := by
    intro nodes
    induction nodes with
    | nil => exact fun p hp => hp
    | cons node nodes ih => exact fun p hp => ih _ (clear_add index hp node)
  exact (hall u.activities { ids := ids } clear_empty).checkpoint.map _

theorem checkedAll_buildEach (us : List ParseUnit) (ids : Ids) (index : Nat) :
    ∀ x ∈ (buildEach ids index us).1, CheckedAll x := by
  induction us generalizing ids index with
  | nil => simp [buildEach]
  | cons u us ih =>
    exact forall_mem_cons.2 ⟨checkedAll_build ids index u, ih _ _⟩

theorem clear_resolveActivities (as : List Activity) (ids : Ids) {errors : Diagnostics}
    (herrors : errors.Clear) : (resolveActivities ids errors as).2.2.Clear := by
  induction as generalizing ids errors with
  | nil => exact herrors
  | cons a as ih => exact ih _ (Activity.clear_resolve ids herrors a)

theorem checkedAll_prepare (p : ParseProgram) : CheckedAll (prepare p) := by
  refine CheckedAll.bind (checkedAll_gather (checkedAll_buildEach _ _ _)) fun built => ?_
  have hclear : (resolveAll (buildEach {} 0 p.units).2 {} built).2.2.Clear := by
    have hsame := congrArg (fun r => r.2.2)
      (resolveAll_activities built (buildEach {} 0 p.units).2 {})
    dsimp only at hsame
    rw [hsame]
    exact clear_resolveActivities _ _ clear_empty
  exact hclear.checkpoint.bind fun _ => checkedAll_ok _

/-! ### Lowering -/

end CompilationUnit

theorem Activity.WellBuilt.clear_lower {a : Activity} (ha : a.WellBuilt) (ns : Option String)
    (x : SemanticIndex) (maxDepth : Nat) : Clear ⟨(a.lower ns x maxDepth).2⟩ := by
  have hplain : ∀ e : CompileError, e.IsPlain → ¬ e.IsUnanswered :=
    fun _ => CompileError.not_isUnanswered_of_cause
  let W : LowerContext.View ⟨a, x, maxDepth⟩ :=
    .beside ⟨a, x, maxDepth⟩ (fun e => ¬ e.IsUnanswered) hplain rfl fun _ _ => rfl
  have hloose : (LowerContext.View.Tally.trivial W).Loose :=
    ⟨fun _ _ _ htext => CompileError.not_isUnanswered htext, fun _ _ _ => trivial⟩
  exact Lower.allows_lower ⟨LowerContext.View.beside_sees ha, .inl hloose⟩ (.inl hloose) ns

namespace CompilationUnit

theorem checkedAll_lowerAll (h : ∀ u ∈ units, ∀ a ∈ u.activities, a.WellBuilt) (x : SemanticIndex)
    (maxDepth : Nat) : CheckedAll (lowerAll units x maxDepth) := by
  refine CheckedAll.bind (checkedAll_gather fun o ho => ?_) fun _ => checkedAll_ok _
  obtain ⟨u, hu, rfl⟩ := mem_map.1 ho
  refine CheckedAll.map (CheckedAll.map (Clear.checkpoint fun e he => ?_) _) _
  obtain ⟨r, hr, he⟩ := mem_flatMap.1 he
  obtain ⟨a, ha, rfl⟩ := mem_map.1 hr
  exact (h u hu a ha).clear_lower u.ns x maxDepth e he

end CompilationUnit

/-! ### The answer of the lexical oracle -/

theorem exists_mem_of_forall₂ {α β : Type} {R : α → β → Prop} {xs : List α} {ys : List β}
    (h : Forall₂ R xs ys) {x : α} (hx : x ∈ xs) : ∃ y ∈ ys, R x y := by
  induction h with
  | nil => cases hx
  | @cons v w xs ys hvw _ ih =>
    rcases mem_cons.1 hx with rfl | hx
    · exact ⟨w, mem_cons_self, hvw⟩
    · obtain ⟨y, hy, hxy⟩ := ih hx
      exact ⟨y, mem_cons_of_mem _ hy, hxy⟩

namespace ModelProgram

variable {units : List CompilationUnit} (external : List ModelType)
  (h : ∀ u ∈ units, ∀ a ∈ u.activities, a.WellBuilt)

include h

theorem exists_of_mem_fragments (hk : k ∈ (emit units external).marking.fragments) :
    ∃ m ∈ methods (emit units external).units, ∃ code ∈ m.fragments, code.marker = k := by
  obtain ⟨htypes, hnotes⟩ := notes_emit external h
  rw [hnotes.fragments, Activity.sum_held] at hk
  obtain ⟨code, hcode, hmarker⟩ := hk.resolve_left not_mem_nil
  obtain ⟨a, ha, hcode⟩ := mem_flatMap.1 (Multiset.mem_coe.1 hcode)
  obtain ⟨u, hu, ha⟩ := mem_flatMap.1 ha
  obtain ⟨mu, hmu, types, heq, hall⟩ := exists_mem_of_forall₂ htypes hu
  obtain ⟨t, ht, -, m, hm, hholds⟩ := exists_mem_of_forall₂ hall ha
  have htype : t ∈ (emit units external).units.flatMap (·.types) :=
    mem_flatMap.2 ⟨mu, hmu, heq ▸ mem_append_left _ ht⟩
  refine ⟨m, mem_flatMap.2 ⟨t, htype, mem_of_find?_eq_some hm⟩, code, ?_, hmarker⟩
  exact hholds.fragments.mem_iff.2 hcode

/-- The lexical oracle answers for every fragment that a model program marks. -/
theorem unanswered_eq_nil (hanswer : analyzeAll (emit units external).units = .ok answer) :
    (emit units external).unanswered answer.index = [] := by
  unfold unanswered
  rw [map_eq_nil_iff, filter_eq_nil_iff]
  intro k hk
  obtain ⟨m, hm, code, hcode, rfl⟩ := exists_of_mem_fragments external h hk
  obtain ⟨f, hf, hanswers⟩ := exists_mem_of_forall₂ (analyzeAll_answers hanswer).1.flip
    (mem_flatMap.2 ⟨m, hm, hcode⟩)
  have hmem : code.marker ∈ answer.index.fragments := mem_map.2 ⟨f, hf, hanswers.marker⟩
  simpa [SemanticIndex.hasFragment] using hmem

end ModelProgram

namespace CompilationInput

def ClearFailure (r : Except CompileFailure CompilationOutput) : Prop :=
  ∀ es, r = .error (.errors es) → Clear ⟨es⟩

theorem clear_failure (marking : Marking) (e : OracleError) :
    ClearFailure (.error (e.failure marking)) := by
  intro es hes
  cases e with
  | diagnostics ds =>
    cases hes
    intro e he
    obtain ⟨d, -, rfl⟩ := mem_map.1 he
    rintro ⟨_, ⟨⟩⟩
  | transport detail => cases hes
  | protocol detail => cases hes

theorem clear_finish (config : CompilerConfig) (h : ∀ u ∈ units, ∀ a ∈ u.activities, a.WellBuilt)
    (external : List ModelType) (hanswer : analyzeAll (emit units external).units = .ok answer) :
    ClearFailure (finish config units (emit units external) answer) := by
  intro es hes
  unfold finish at hes
  dsimp only at hes
  rw [unanswered_eq_nil external h hanswer] at hes
  dsimp only at hes
  split at hes
  · next hlower =>
    cases hes
    exact checkedAll_lowerAll h _ _ _ hlower
  · cases hes

/-- The lexical oracle always finds the node types, and fails only with diagnostics. -/
theorem analyze_lexicalOracle (catalog : List ExternalNodeType) (config : CompilerConfig)
    (references : List String) (units : List CompilationUnit) : ∃ external,
      (∀ ds, analyzeAll (emit units external).units = .error ds →
        analyze (m := Id) (lexicalOracle catalog) config references units =
          .error (OracleError.failure (emit units external).marking (.diagnostics ds))) ∧
      ∀ answer, analyzeAll (emit units external).units = .ok answer →
        analyze (m := Id) (lexicalOracle catalog) config references units =
          finish config units (emit units external) answer := by
  by_cases himports : (allImports units).isEmpty = true
  · refine ⟨synthesize [], fun ds h => ?_, fun answer h => ?_⟩
    · simp only [analyze, himports, if_true, lexicalOracle, pure_bind, h]
      rfl
    · simp only [analyze, himports, if_true, lexicalOracle, pure_bind, h]
      rfl
  · refine ⟨synthesize (discover catalog
      (allImports units) references), fun ds h => ?_, fun answer h => ?_⟩
    · simp only [analyze, if_neg himports, lexicalOracle, pure_bind, h]
      rfl
    · simp only [analyze, if_neg himports, lexicalOracle, pure_bind, h]
      rfl

theorem clear_analyze (catalog : List ExternalNodeType) (config : CompilerConfig)
    (references : List String) (h : ∀ u ∈ units, ∀ a ∈ u.activities, a.WellBuilt) :
    ClearFailure (analyze (m := Id) (lexicalOracle catalog) config references units) := by
  obtain ⟨external, herror, hok⟩ := analyze_lexicalOracle catalog config references units
  cases hanswer : analyzeAll (emit units external).units with
  | error ds =>
    rw [herror ds hanswer]
    exact clear_failure _ _
  | ok answer =>
    rw [hok answer hanswer]
    exact clear_finish config h external hanswer

theorem clear_compileWith (catalog : List ExternalNodeType) (config : CompilerConfig)
    (input : CompilationInput) :
    ClearFailure (compileWith (m := Id) (lexicalOracle catalog) config input) := by
  unfold compileWith
  split
  · next es hprepare =>
    rintro _ ⟨⟩
    exact checkedAll_prepare _ es hprepare
  · next units hprepare =>
    refine clear_analyze catalog config _ fun u hu a ha => Activity.Prepared.wellBuilt ?_
    exact prepared_prepare hprepare a (mem_flatMap.2 ⟨u, hu, ha⟩)

end CompilationInput

/-- If the lexical oracle has an answer for model programs, it consists of one annotated fragment
for each piece of marked code in the bodies of methods, in the order of the code, which annotates
the expressions of that code once each; and of one type for each marked declaration. So no program
that is compiled with it has the error that a fragment is missing from the answer. -/
theorem lexicalOracle_answers : (∀ (units : List ModelUnit) (answer : SemanticModel),
      analyzeAll units = .ok answer → Forall₂ AnnotatedFragment.Answers answer.fragments
          ((methods units).flatMap ModelMethod.fragments) ∧
        answer.declarations.map (·.marker) = (methods units).flatMap ModelMethod.declared) ∧
    ∀ (catalog : List ExternalNodeType) (config : CompilerConfig) (input : CompilationInput)
      (es : List CompileError),
      compileWith (m := Id) (lexicalOracle catalog) config input = .error (.errors es) →
      ∀ e ∈ es, ¬ e.IsUnanswered :=
  ⟨fun _ _ h => analyzeAll_answers h, clear_compileWith⟩

/-- The causes of the errors with which a program is not compiled with the lexical oracle. -/
def ParseProgram.causes? (p : ParseProgram) : Option (List Cause) :=
  match compileWith (m := Id) (lexicalOracle []) {} { program := p } with
  | .error (.errors es) => some (es.map (·.cause))
  | _ => none

def capturingProgram : { p : ParseProgram //
    p.anyActivity (fun x _ => decide (x.fragments = [2, 3, 4])) = true ∧
      p.causes? = some [.storeInLambda "x"] } where
  val.units := [{
    activities := [.main (.sequence [
      { label := "var", text := some "x"
        members := [("type", .typeName "int"), ("init", .expression (.int 0))] },
      .codeBlock [.eval (.assign {} .assign (.ident "x") (.lambda {} ["v"] (.ident "x")))],
      { label := "foreach", text := some "item"
        members := [("values", .expression (.ident "x")), ("body", { label := "empty" })] }])] }]
  property := by decide +kernel

theorem lexicalOracle_answers_capturingProgram :
    (∃ units answer, prepare capturingProgram.val = .ok units ∧
      analyzeAll (emit units (synthesize [])).units = .ok answer ∧
      answer.fragments.map (·.marker) = [2, 3, 4] ∧
      Forall₂ AnnotatedFragment.Answers answer.fragments
        ((methods (emit units (synthesize [])).units).flatMap ModelMethod.fragments)) ∧
    ∃ es, compileWith (m := Id) (lexicalOracle []) {}
        { program := capturingProgram.val } = .error (.errors es) ∧
      es.map (·.cause) = [.storeInLambda "x"] ∧ ∀ e ∈ es, ¬ e.IsUnanswered := by
  constructor
  · obtain ⟨units, answer, h, hanswer, -, -, -, -, htest⟩ :=
      capturingProgram.val.exists_of_anyActivity capturingProgram.property.1
    exact ⟨units, answer, h, hanswer, htest,
      (lexicalOracle_answers.1 _ _ hanswer).1⟩
  · have hcauses := capturingProgram.property.2
    unfold ParseProgram.causes? at hcauses
    split at hcauses
    · next es hes => exact ⟨es, hes, Option.some.inj hcauses, lexicalOracle_answers.2 _ _ _ _ hes⟩
    · cases hcauses

end Workflow
