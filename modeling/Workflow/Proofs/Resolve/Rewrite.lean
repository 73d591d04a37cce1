import Workflow.Activity.Resolve.Unit
import Workflow.Proofs.Arena.Chain

/-!
# Resolution as rewriting

Resolving jumps changes the parts of statements in place and reports errors, and nothing else.
-/

namespace Workflow

open Diagnostics

namespace Activity

variable (a : Activity) (f g : StmtId → StmtKind → StmtKind)

/-- The activity with other parts for its statements. -/
def rekind : Activity :=
  { a with stmts := a.stmts.mapIdx fun i s => { s with kind := f i s.kind } }

theorem getElem?_rekind (i : StmtId) :
    (a.rekind f).stmts[i]? = a.stmts[i]?.map fun s => { s with kind := f i s.kind } := by
  simp [rekind]

@[simp]
theorem tag_rekind (i : StmtId) : (a.rekind f).tag i = a.tag i := by
  rw [tag, tag, getElem?_rekind]
  cases a.stmts[i]? <;> rfl

@[simp]
theorem stmtSpan_rekind (i : StmtId) : (a.rekind f).stmtSpan i = a.stmtSpan i := by
  rw [stmtSpan, stmtSpan, getElem?_rekind]
  cases a.stmts[i]? <;> rfl

variable {a f g}

theorem kind_rekind_of_lt {i : StmtId} (hi : i < a.stmts.size) :
    (a.rekind f).kind i = f i (a.kind i) := by
  rw [kind, kind, getElem?_rekind, Array.getElem?_eq_getElem hi]
  rfl

theorem kind_rekind (hempty : f i .empty = .empty) : (a.rekind f).kind i = f i (a.kind i) := by
  by_cases hi : i < a.stmts.size
  · exact kind_rekind_of_lt hi
  · rw [kind, kind, getElem?_rekind, Array.getElem?_eq_none (Nat.le_of_not_lt hi)]
    exact hempty.symm

theorem rekind_rekind : (a.rekind f).rekind g = a.rekind fun i k => g i (f i k) := by
  simp [rekind, Array.mapIdx_mapIdx, Function.comp_def]

theorem rekind_congr (h : ∀ i, f i (a.kind i) = g i (a.kind i)) : a.rekind f = a.rekind g := by
  have hstmts : (a.rekind f).stmts = (a.rekind g).stmts := by
    refine Array.ext_getElem? fun i => ?_
    rw [getElem?_rekind, getElem?_rekind]
    have hi := h i
    rw [kind] at hi
    cases hs : a.stmts[i]? with
    | none => rfl
    | some s =>
      rw [hs] at hi
      simp only [Option.map_some, hi]
  exact congrArg (fun stmts => { a with stmts := stmts }) hstmts

theorem rekind_self : (a.rekind fun _ k => k) = a := by
  have hstmts : (a.rekind fun _ k => k).stmts = a.stmts := by
    refine Array.ext_getElem? fun i => ?_
    rw [getElem?_rekind]
    exact Option.map_id'
  exact congrArg (fun stmts => { a with stmts := stmts }) hstmts

theorem setKind_eq_rekind (id : StmtId) (k : StmtKind) :
    a.setKind id k = a.rekind fun i k' => if i = id then k else k' := by
  have hstmts : (a.setKind id k).stmts = (a.rekind fun i k' => if i = id then k else k').stmts := by
    refine Array.ext_getElem? fun i => ?_
    rw [setKind, modifyStmt, getElem?_rekind, Array.getElem?_modify]
    by_cases hi : i = id
    · simp [hi]
    · rw [if_neg (Ne.symm hi)]
      simp [hi]
  exact congrArg (fun stmts => { a with stmts := stmts }) hstmts

end Activity

namespace Resolve

variable {α β : Type} {x : Resolve α} {y : α → Resolve β} {a : Activity} {v : α} {w : β}
  {f g : StmtId → StmtKind → StmtKind} {es es' : List CompileError}

/-- The step yields a value, gives parts to statements and reports errors; nothing else happens. -/
def Rewrites (x : Resolve α) (a : Activity) (v : α) (f : StmtId → StmtKind → StmtKind)
    (es : List CompileError) : Prop :=
  ∀ s, s.activity = a →
    x s = (v, { s with activity := a.rekind f, errors := s.errors.extend es })

namespace Rewrites

theorem of_same (h : ∀ s, s.activity = a → x s = (v, s)) : Rewrites x a v (fun _ k => k) [] := by
  intro s hs
  rw [h s hs, Activity.rekind_self, ← hs, extend, List.append_nil]

theorem pure (v : α) : Rewrites (Pure.pure v) a v (fun _ k => k) [] := of_same fun _ _ => rfl

theorem bind (hx : Rewrites x a v f es) (hy : Rewrites (y v) (a.rekind f) w g es') :
    Rewrites (x >>= y) a w (fun i k => g i (f i k)) (es ++ es') := by
  intro s hs
  have hrun : (x >>= y) s = y (x s).1 (x s).2 := rfl
  rw [hrun, hx s hs, hy _ rfl, Activity.rekind_rekind, extend, extend,
    extend, List.append_assoc]

theorem bind_activity {y : Activity → Resolve β} (hy : Rewrites (y a) a w f es) :
    Rewrites (activity >>= y) a w f es := by
  intro s hs
  have hrun : (activity >>= y) s = y s.activity s := rfl
  rw [hrun, hs]
  exact hy s hs

theorem cast {v' : α} (h : Rewrites x a v f es) (hv : v = v')
    (hf : ∀ i, f i (a.kind i) = g i (a.kind i)) (hes : es = es') : Rewrites x a v' g es' := by
  intro s hs
  rw [h s hs, Activity.rekind_congr hf, hv, hes]

theorem errors (h : Rewrites x a v f es) (hes : es = es') : Rewrites x a v f es' := hes ▸ h

theorem still (hx : Rewrites x a v (fun _ k => k) es) (hy : Rewrites (y v) a w f es') :
    Rewrites (x >>= y) a w f (es ++ es') :=
  hx.bind (Activity.rekind_self.symm ▸ hy)

theorem report (cause : Cause) (span : Span) :
    Rewrites (Resolve.report cause span) a () (fun _ k => k) [cause.error span] := by
  intro s hs
  rw [Activity.rekind_self, ← hs]
  rfl

theorem setKind (id : StmtId) (k : StmtKind) :
    Rewrites (Resolve.setKind id k) a () (fun i k' => if i = id then k else k') [] := by
  intro s hs
  rw [← Activity.setKind_eq_rekind, extend, List.append_nil, ← hs]
  rfl

theorem ite_report {c : Prop} [Decidable c] (cause : Cause) (span : Span)
    {y : Unit → Resolve β} (hy : Rewrites (y ()) a w f es) :
    Rewrites (if c then Resolve.report cause span >>= y else y ()) a w f
      ((if c then [cause.error span] else []) ++ es) := by
  split
  · exact (report cause span).still hy
  · exact hy

end Rewrites

end Resolve

end Workflow
