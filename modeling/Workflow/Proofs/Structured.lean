import Workflow.Proofs.Build.Resolve
import Workflow.Proofs.Build.Total
import Workflow.Proofs.Linearization
import Workflow.Proofs.Lower.Control

/-!
# Structured activities run as they are written

The graph of an activity that is made of code, sequences, branches, loops and switches schedules the
calls and leaves the values that its statements stand for. The induction is on the depth to which
statements are lowered.
-/

namespace Workflow

open Source Engine

namespace LowerContext

variable {c : LowerContext} {H : Runtime} {answer : Answer} {bound : Nat}

theorem Structured.fitting (hs : c.Structured) {depth n : Nat} {id : StmtId}
    (hdepth : c.activity.stmts.size - id ≤ depth + 1)
    (ih : ∀ m, c.activity.stmts.size - m ≤ depth → c.activity.isUnchained m = true →
      Lower.Clean (Lower.stmt c depth m) fun node => c.Does H answer bound node
        (stmt H bound c.activity (eval H answer c) n m)) :
    c.Fitting H answer bound (Lower.stmt c depth) (stmt H bound c.activity (eval H answer c) n)
      (c.activity.kind id).children := by
  have hless : ∀ m ∈ (c.activity.kind id).children, c.activity.stmts.size - m ≤ depth := by
    intro m hm
    have hlt : @LT.lt Nat _ id m := (List.pairwise_cons.1 (hs.children id)).1 m hm
    omega
  refine ⟨fun m f chained initializes hkind w w' hw => ?_, fun m hm hcode => ?_, fun m hm => ?_⟩
  · cases n with
    | zero => cases hw
    | succ n =>
      rw [stmt, stmtWith, hkind] at hw
      exact hw
  · -- Code is a statement of the activity, so the depth suffices for it.
    have hsize : @LT.lt Nat _ m c.activity.stmts.size := by
      refine Nat.lt_of_not_le fun hle => ?_
      rw [Activity.kind_eq_empty hle] at hcode
      cases hcode
    obtain ⟨d, rfl⟩ : ∃ d, depth = d + 1 := by
      have := hless m hm
      exact ⟨depth - 1, by omega⟩
    rw [Lower.stmt, Lower.stmtWith]
    cases hkind : c.activity.kind m
    case code => rfl
    all_goals simp [hkind, StmtKind.tag] at hcode
  · exact ih m (hless m hm)

/-- One step: if the statements inside are lowered well, then so is the statement. -/
theorem stmtWith_clean (hn : c.PlainNames) (hs : c.Structured) {lower : Lower.Inner}
    {inner : StmtId → World StoreId → Option (World StoreId)} {id : StmtId}
    (hid : c.activity.isUnchained id = true)
    (hfit : c.Fitting H answer bound lower inner (c.activity.kind id).children) :
    Lower.Clean (Lower.stmtWith c lower id) fun node => c.Does H answer bound node
      (stmtWith H bound c.activity (eval H answer c) inner id) := by
  have hkindOk := hs.kind id
  have hasc := (List.pairwise_cons.1 (hs.children id)).2
  unfold Lower.stmtWith stmtWith
  cases hkind : c.activity.kind id
  case code f chained initializes =>
    have hforward : c.activity.chainsForward [id] = true := hid
    have hrun := codeRun_clean H answer bound hn.handlesApart hs hforward
      (List.pairwise_singleton _ _)
    have hchained : chained = none := by
      rwa [Activity.isUnchained, Lower.chainedTo, hkind, Option.isNone_iff_eq_none] at hid
    rw [Activity.chainFragments_code hkind, hchained] at hrun
    refine hrun.mono fun node hnode => hnode.of_le fun w w' hw => ?_
    exact Option.bind_eq_some_iff.2 ⟨w', hw, rfl⟩
  case empty =>
    refine .pure fun w ρ w' hag hT => ?_
    cases hT
    exact ⟨ρ, by rw [runOption], hag⟩
  case sequence members =>
    rw [hkind] at hkindOk hasc hfit
    exact sequence_clean hn hs hkindOk hasc hfit id
  case conditional condition yes no =>
    rw [hkind] at hkindOk hfit
    rw [structuredKind, Bool.and_eq_true, Bool.and_eq_true] at hkindOk
    exact conditional_clean hn.handlesApart hkindOk.1.1 hkindOk.1.2 hkindOk.2 hfit
  case loop condition body testAfter =>
    rw [hkind] at hkindOk hfit
    rw [structuredKind, Bool.and_eq_true] at hkindOk
    exact (loop_clean hn hkindOk.1 hkindOk.2 hfit testAfter).map fun _ h => h
  case switch subject cases fallback =>
    rw [hkind] at hkindOk hfit
    simp only [structuredKind, Bool.and_eq_true, List.all_eq_true] at hkindOk
    exact switch_clean hn.handlesApart hkindOk.1.1 hkindOk.1.2 hkindOk.2 hfit
  all_goals simp [hkind, structuredKind] at hkindOk

/-- A structured statement is lowered to a node that does what it does. -/
theorem stmt_clean (H : Runtime) (answer : Answer) (bound : Nat) (hn : c.PlainNames)
    (hs : c.Structured) {depth : Nat} (n : Nat) {id : StmtId}
    (hdepth : c.activity.stmts.size - id ≤ depth) (hid : c.activity.isUnchained id = true) :
    Lower.Clean (Lower.stmt c depth id) fun node => c.Does H answer bound node
      (stmt H bound c.activity (eval H answer c) n id) := by
  induction depth generalizing n id with
  | zero =>
    -- There is no statement with such a number.
    refine .pure fun w ρ w' hag hT => ⟨ρ, by rw [runOption], ?_⟩
    cases n with
    | zero => cases hT
    | succ n =>
      rw [stmt, stmtWith, Activity.kind_eq_empty (by omega)] at hT
      cases hT
      exact hag
  | succ depth ih =>
    have hstep : ∀ n, Lower.Clean (Lower.stmt c (depth + 1) id) fun node =>
        c.Does H answer bound node
          (stmt H bound c.activity (eval H answer c) (n + 1) id) := by
      intro n
      exact stmtWith_clean hn hs hid (hs.fitting hdepth fun m hm hm' => ih n hm hm')
    -- A statement that is not run at all is lowered without errors nevertheless.
    cases n with
    | zero => exact (hstep 0).mono fun node _ w ρ w' _ hT => by cases hT
    | succ n => exact hstep n

/-- The body of an activity starts the activity's own variables first. -/
theorem run_withVariables (H : Runtime) (answer : Answer) (bound : Nat) (vars : List VariableDecl)
    (body : Option Node) (ρ : World String) : run H answer bound (Lower.withVariables vars body) ρ =
      (start H bound vars ρ).bind (runOption H answer bound body) := by
  unfold Lower.withVariables
  split
  case h_1 =>
    rw [run_sequence]
    refine congrArg _ (funext fun ρ => ?_)
    rw [runList, runOption]
  case h_2 inner nodes =>
    rw [run_sequence, start_append, Option.bind_assoc]
    refine congrArg _ (funext fun ρ => ?_)
    rw [runOption, run, runKind]
    rfl
  case h_3 body _ =>
    split
    case isTrue hempty =>
      rw [List.isEmpty_iff.1 hempty, Engine.start, Option.bind_some, Engine.runOption]
    case isFalse =>
      rw [run_sequence]
      refine congrArg _ (funext fun ρ => ?_)
      rw [runList_singleton, runOption]

theorem root_clean (H : Runtime) (answer : Answer) (bound : Nat) (hn : c.PlainNames)
    (hs : c.Structured) (depth : Nat) :
    Lower.Clean (Lower.root c) fun node => c.Does H answer bound (some node)
      (Source.activity H bound c.activity (Source.eval H answer c) depth) := by
  refine (Lower.Clean.variablesOf c _).bind fun vars => ?_
  refine (stmt_clean H answer bound hn hs depth (Nat.sub_le _ _) hs.root).bind fun body => ?_
  refine .pure fun hbody hvars w ρ w' hag hT => ?_
  obtain ⟨ρ₀, hstart, hag₀⟩ := start_variables hn hvars hag
  obtain ⟨ρ', hrun, hag'⟩ := hbody _ ρ₀ w' hag₀ hT
  refine ⟨ρ', ?_, hag'⟩
  rw [runOption, run_withVariables, hstart, Option.bind_some, hrun]

/-- An activity of structured statements that is lowered without errors runs as it is written: from
any values of the stores and for any answers, its graph schedules the same calls with the same
arguments in the same order, and leaves the same values in all stores. -/
theorem lower_runs_statements (hn : c.PlainNames) (hs : c.Structured) (ns : Option String)
    (herrors : (c.activity.lower ns c.semantics c.maxDepth).2 = [])
    (H : Runtime) (answer : Answer) (bound depth : Nat) {w w' : World StoreId} {ρ : World String}
    (hag : c.Agrees w ρ)
    (hrun : Source.activity H bound c.activity (Source.eval H answer c) depth w = some w') :
    ∃ ρ', run H answer bound (c.activity.lower ns c.semantics c.maxDepth).1.body ρ =
      some ρ' ∧ c.Agrees w' ρ' := by
  have hgraph : Lower.Clean (Lower.graph c ns) fun graph =>
      c.Does H answer bound (some graph.body)
        (Source.activity H bound c.activity (Source.eval H answer c) depth) :=
    (root_clean H answer bound hn hs depth).bind fun _ =>
      (Lower.Clean.arguments c).bind fun _ => .pure fun _ h => h
  exact (hgraph {} herrors).2 w ρ w' hag hrun

/-- Whether the code and the expressions of a statement itself are on stores, and its kind is among
those that are structured. -/
def coversKind (c : LowerContext) : StmtKind → Bool
  | .code f _ initializes => c.fragmentOnStores false f.body initializes
  | .empty | .sequence _ => true
  | .conditional condition .. | .loop condition .. => c.onStores false condition.expr
  | .switch subject cases _ =>
    c.onStores false subject.expr && cases.all fun case => c.onStores false case.key.expr
  | _ => false

theorem structuredKind_of_chained {k : StmtKind} (hchained : c.activity.Chained k)
    (h : c.coversKind k = true) : c.structuredKind k = true := by
  unfold Activity.Chained at hchained
  split at hchained
  case isTrue htag =>
    cases k <;> first | exact hchained | cases htag
  case isFalse htag =>
    have hinner : ∀ m ∈ k.children, c.activity.isUnchained m = true :=
      fun m hm => Activity.isUnchained_of_chainedTo (hchained m hm)
    cases k
    case sequence => exact absurd rfl htag
    case conditional | loop | switch =>
      simp_all [coversKind, structuredKind, StmtKind.children, or_imp, forall_and,
        Option.all_eq_true]
    all_goals exact h

/-- The statements of an activity that is built are numbered and chained as they should be, so that
only their kinds and expressions decide whether they are structured. -/
theorem structured_build {ids ids' : Ids} {unit : Nat} {node : ParseNode} {a : Activity}
    (h : Activity.build ids unit node = (.ok a, ids')) (last : Ids) (errors : Diagnostics)
    {semantics : SemanticIndex} {maxDepth : Nat} :
    let c : LowerContext := ⟨(a.resolve last errors).1, semantics, maxDepth⟩
    (∀ id < c.activity.stmts.size, c.coversKind (c.activity.kind id) = true) → c.Structured := by
  intro c hkinds
  have ha : c.activity.WellBuilt :=
    (Activity.keeps_resolve last errors a).wellBuilt (Activity.build_ids h).1
  have ho := ha.ordered
  exact ⟨fun id hid => structuredKind_of_chained (ho.linked id).chained (hkinds id hid),
    fun id _ => List.pairwise_cons.2 ⟨ho.after id, ho.pairwise id⟩,
    Activity.isUnchained_of_chainedTo ha.unchained⟩

open Linearization (sample readS readX callA counting zeros passed)

def sampleStmt (parent : Option StmtId) (kind : StmtKind) : Stmt :=
  { parent := parent, span := {}, tag := kind.tag, kind := kind }

def sampleCode (e : Expr) (chained : Option StmtId) : StmtKind :=
  .code { marker := 0, span := {}, body := [.eval e] } chained none

def sampleSlot (e : Expr) : Fragment := { marker := 0, span := {}, expr := e }

/-- `x = A(s); x += 1; while (A(x) < 3) x++; switch (x) { case 3: s = x; }`, where the sequence
hosts `x`. -/
def sampleActivity : LowerContext :=
  { sample with
    activity := { sample.activity with
      activityStores := [0]
      stmts := #[
        { sampleStmt none (.sequence [1, 2, 3, 5]) with stores := [1] },
        sampleStmt (some 0) (sampleCode (.assign {} .assign readX (callA readS)) (some 2)),
        sampleStmt (some 0) (sampleCode (.assign {} .add readX (.int 1)) none),
        sampleStmt (some 0) (.loop (sampleSlot (.binary {} .lt (callA readX) (.int 3))) 4 false),
        sampleStmt (some 3) (sampleCode (.unary {} .postIncrement readX) none),
        sampleStmt (some 0)
          (.switch (sampleSlot readX) [{ key := sampleSlot (.int 3), body := 6 }] none),
        sampleStmt (some 5) (sampleCode (.assign {} .assign readS readX) none)] } }

/-- The condition of the loop is evaluated once before each test, with the value that `x` has
then. -/
theorem lower_runs_sampleActivity : ∃ ρ', run .arithmetic counting 5
        (sampleActivity.activity.lower none sampleActivity.semantics sampleActivity.maxDepth).1.body
        zeros = some ρ' ∧
      passed ρ' = [[some 0], [some 2], [some 3]] ∧
      (ρ'.vars "s").bind Value.asInt = some 3 ∧ (ρ'.vars "x").bind Value.asInt = some 3 := by
  have hsource : (Source.activity .arithmetic 5 sampleActivity.activity
      (Source.eval .arithmetic counting sampleActivity) 7 zeros).map
      (fun w => (passed w, (w.vars 0).bind Value.asInt, (w.vars 1).bind Value.asInt)) =
      some ([[some 0], [some 2], [some 3]], some 3, some 3) := by
    decide +kernel
  obtain ⟨w', hrun, hw'⟩ := Option.map_eq_some_iff.1 hsource
  obtain ⟨ρ', hρ', hag⟩ := lower_runs_statements (c := sampleActivity)
    ⟨by decide, by decide, by decide⟩ ⟨by decide +kernel, by decide +kernel, by decide⟩ none
    (List.isEmpty_iff.1 (by decide +kernel)) .arithmetic counting 5 7
    (Linearization.agrees_zeros sampleActivity) hrun
  simp only [Prod.mk.injEq] at hw'
  refine ⟨ρ', hρ', ?_, ?_, ?_⟩
  · rw [passed, hag.trace]
    exact hw'.1
  · rw [hag.vars 0 "s" ⟨_, rfl, rfl⟩]
    exact hw'.2.1
  · rw [hag.vars 1 "x" ⟨_, rfl, rfl⟩]
    exact hw'.2.2

end LowerContext

end Workflow
