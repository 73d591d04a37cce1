import Workflow.Proofs.Scope.Staged

/-!
# Locals of runs of code

After each statement of a run it is checked that every local that the statement uses is declared in
the step that the code of the statement goes into. The first value of a store is not checked: it
keeps to its step only if it does not pause and if nothing has paused since the local was declared.

The induction along a run follows one name. Once the code declares it, no step leaks it any more; if
it counts as declared from the start, no step does.
-/

namespace Workflow

open CodeStmt Stage Finset

theorem Emits.length_lt (h : Emits s t a) (ha : a ≠ []) : s.steps.length < t.steps.length := by
  have hflush : s.steps.steps.length ≤ s.steps.flush.steps.length := by
    rw [StepList.steps_flush]
    split <;> simp
  have hpos := List.length_pos_iff.2 ha
  rw [StepList.length, StepList.length, (h.append ha).1, List.length_append]
  omega

/-- After a check, all uses were in the step of the declaration. -/
theorem Stage.uses_of_checkUses (h : checkUses s = .ok u t) :
    ∀ u ∈ s.uses, u.declaredAt = s.steps.length := by
  unfold checkUses at h
  obtain ⟨_, _, hget, h⟩ := bind_eq_ok.1 h
  cases hget
  obtain ⟨_, _, hset, h⟩ := bind_eq_ok.1 h
  cases hset
  cases hfind : s.uses.find? (·.declaredAt != s.steps.length) with
  | none => simpa using hfind
  | some use =>
    simp only [hfind] at h
    exact absurd h fail_ne_ok

namespace LowerContext

variable (c : LowerContext)

/-- The names declared in the step under construction, after some statements. -/
def aliveAfter (alive : Finset String) : List CodeStmt → Finset String
  | [] => alive
  | s :: rest => aliveAfter ((if c.stmtPauses s then ∅ else alive) ∪ s.declared) rest

/-- The locals that the statements of a run use and that none before declares. -/
def runLocals : List (List CodeStmt × Option Store) → Finset String
  | [] => ∅
  | ([.eval (.assign _ _ _ _)], some _) :: rest => runLocals rest
  | (body, _) :: rest =>
    localsList c.source body ∪ (runLocals rest \ unionMap declared body)

/-- The locals that the first values of stores use in another step than the one that declares
them. -/
def strayLocals (alive : Finset String) : List (List CodeStmt × Option Store) → Finset String
  | [] => ∅
  | ([.eval (.assign _ _ _ value)], some _) :: rest =>
    if c.pauses value then value.locals c.source ∪ strayLocals ∅ rest
    else (value.locals c.source \ alive) ∪ strayLocals alive rest
  | (body, _) :: rest => strayLocals (c.aliveAfter alive body) rest

def Declares (s : StageState) (n : String) : Prop :=
  (s.locals.find? (·.1 == n)).isSome = true

/-- A declaration of the name in the step under construction is pending. -/
structure Placed (n : String) (s : StageState) : Prop where
  before : ∀ q, s.locals.find? (·.1 == n) = some q → q.2 ≤ s.steps.length
  here : ∀ q, s.locals.find? (·.1 == n) = some q → q.2 = s.steps.length →
    n ∈ unionMap declared s.steps.pending

/-- No step after one that declares the name leaks it, and none at all if it counts as declared from
the start. The code declares the name just if the run has done so. -/
structure Holds (x : SemanticIndex) (outer : Prop) (n : String) (s : StageState) : Prop
    extends Placed n s where
  generated : s.steps.Generated
  steps : s.steps.steps.Pairwise fun a b => n ∈ a.declared → n ∉ b.locals x
  none : outer → ∀ step ∈ s.steps.steps, n ∉ step.locals x
  pending : outer ∨ n ∈ unionMap Step.declared s.steps.steps →
    n ∉ localsList x.produced s.steps.pending
  declares : n ∈ unionMap Step.declared s.steps.steps ∨
    n ∈ unionMap declared s.steps.pending ↔ Declares s n

variable {c} {x : SemanticIndex} {outer : Prop} {n : String} {s t u : StageState} {a : List Step}
  {X Y : Finset String}

namespace Placed

theorem init (n : String) (l : LowerState) : Placed n { lower := l } :=
  ⟨by simp, by simp⟩

theorem emits (h : Placed n s) (hem : Emits s t a) : Placed n t := by
  by_cases ha : a = []
  · obtain ⟨hsteps, hpending⟩ := hem.same ha
    have hlength : t.steps.length = s.steps.length := congrArg List.length hsteps
    refine ⟨?_, ?_⟩
    · rw [hem.locals, hlength]
      exact h.before
    · rw [hem.locals, hlength, hpending]
      exact h.here
  · have hlength := hem.length_lt ha
    refine ⟨?_, ?_⟩
    · rw [hem.locals]
      exact fun q hq => (h.before q hq).trans (Nat.le_of_lt hlength)
    · rw [hem.locals]
      exact fun q hq heq => absurd (h.before q hq) (by omega)

/-- The use of a declared local keeps to the step of the declaration, if it is checked. -/
theorem used (h : Placed n s) (hs : Spread x [] s t a X Y) (hn : n ∈ Y) (hd : Declares s n)
    (hcheck : ∀ u ∈ t.uses, u.declaredAt = t.steps.length) :
    a = [] ∧ n ∈ unionMap declared s.steps.pending := by
  obtain ⟨q, hq⟩ := Option.isSome_iff_exists.1 hd
  obtain ⟨use, huse, hat⟩ := hs.notes.noted n hn List.not_mem_nil q hq
  have hhere : q.2 = t.steps.length := hat ▸ hcheck use huse
  have hbefore := h.before q hq
  have ha : a = [] := by
    by_contra ha
    have := hs.emits.length_lt ha
    omega
  have hlength : t.steps.length = s.steps.length := congrArg List.length (hs.emits.same ha).1
  exact ⟨ha, h.here q hq (hhere.trans hlength)⟩

theorem push (h : Placed n s) (stmt : CodeStmt) :
    Placed n { s with steps := s.steps.pushPlain stmt } where
  before := h.before
  here q hq hlength := by
    simp only [StepList.pushPlain, unionMap_append]
    exact mem_union_left _ (h.here q hq hlength)

theorem declare (h : Placed n s) (name : String) (ty : TypeName) (init : Option Expr)
    (span : Span) : Placed n { s with
      locals := (name, s.steps.length) :: s.locals
      steps := s.steps.pushPlain (.declare name ty init span) } := by
  refine ⟨fun q hq => ?_, fun q hq hlength => ?_⟩
  · rw [List.find?_cons] at hq
    split at hq
    · cases hq
      exact Nat.le_refl _
    · exact h.before q hq
  · rw [List.find?_cons] at hq
    split at hq
    · next hname =>
      have hname : name = n := by simpa using hname
      simp [StepList.pushPlain, unionMap_append, declared, hname]
    · exact (h.push (.declare name ty init span)).here q hq hlength

end Placed

namespace Holds

theorem init (l : LowerState) : Holds x outer n { lower := l } where
  toPlaced := .init n l
  generated := StepList.generated_empty
  steps := .nil
  none := by simp
  pending := by simp [localsList]
  declares := by simp [Declares]

theorem declared_flush (l : StepList) : n ∈ unionMap Step.declared l.flush.steps ↔
    n ∈ unionMap Step.declared l.steps ∨ n ∈ unionMap declared l.pending := by
  rw [StepList.steps_flush]
  split
  · next hempty => simp [hempty]
  · simp [unionMap_append, Step.declared, Node.code, Node.ofKind]

theorem flush (h : Holds x outer n s) :
    (s.steps.flush.steps.Pairwise fun a b => n ∈ a.declared → n ∉ b.locals x) ∧
      (outer → ∀ step ∈ s.steps.flush.steps, n ∉ step.locals x) := by
  rw [StepList.steps_flush]
  split
  · exact ⟨h.steps, h.none⟩
  · have hcode : ∀ b ∈ [Step.node (.code s.steps.pending)],
        outer ∨ n ∈ unionMap Step.declared s.steps.steps → n ∉ b.locals x := by
      intro b hb
      rw [List.mem_singleton.1 hb, Step.locals, Node.locals_code]
      exact h.pending
    refine ⟨List.pairwise_append.2 ⟨h.steps, List.pairwise_singleton .., fun a ha b hb hn =>
      hcode b hb (.inr (mem_unionMap.2 ⟨a, ha, hn⟩))⟩, fun houter step hstep => ?_⟩
    rcases List.mem_append.1 hstep with hstep | hstep
    · exact h.none houter step hstep
    · exact hcode step hstep (.inl houter)

theorem still (h : Holds x outer n s) (hem : Emits s t []) : Holds x outer n t := by
  obtain ⟨hsteps, hpending⟩ := hem.same rfl
  refine ⟨h.toPlaced.emits hem, hem.generated h.generated, hsteps ▸ h.steps, hsteps ▸ h.none,
    ?_, ?_⟩
  · rw [hsteps, hpending]
    exact h.pending
  · rw [hsteps, hpending, Declares, hem.locals]
    exact h.declares

/-- Code that does not use the name, unless nothing has declared it yet. -/
theorem unused (h : Holds x outer n s) (hs : Spread x [] s t a X Y)
    (hn : n ∈ Y → ¬ (outer ∨ Declares s n)) :
    Holds x outer n t ∧ (n ∈ X → ¬ (outer ∨ Declares t n)) := by
  have hdeclares : Declares t n ↔ Declares s n := by rw [Declares, Declares, hs.emits.locals]
  have hX : n ∈ X → ¬ (outer ∨ Declares t n) := by
    rw [hdeclares]
    exact fun hX => hn (hs.within (mem_union_right _ hX))
  refine ⟨?_, hX⟩
  by_cases ha : a = []
  · subst ha
    exact h.still hs.emits
  · obtain ⟨hsteps, hpending⟩ := hs.emits.append ha
    have hadded : outer ∨ Declares s n → ∀ b ∈ a, n ∉ b.locals x := fun hd b hb hlocal =>
      hn (hs.within (mem_union_left _ (mem_unionMap.2 ⟨b, hb, hlocal⟩))) hd
    have hbare : ∀ b ∈ a, n ∉ b.declared := by
      intro b hb hb'
      have hmem : n ∈ unionMap Step.declared a := mem_unionMap.2 ⟨b, hb, hb'⟩
      rw [hs.bare] at hmem
      cases hmem
    refine ⟨h.toPlaced.emits hs.emits, hs.emits.generated h.generated, ?_, ?_, ?_, ?_⟩
    · rw [hsteps]
      refine List.pairwise_append.2 ⟨h.flush.1, List.pairwise_of_forall_mem_list fun p hp b _ hd =>
        absurd hd (hbare p hp), fun p hp b hb hd => hadded (.inr (h.declares.1 ?_)) b hb⟩
      rw [← declared_flush]
      exact mem_unionMap.2 ⟨p, hp, hd⟩
    · rw [hsteps]
      intro houter
      exact List.forall_mem_append.2 ⟨h.flush.2 houter, hadded (.inl houter)⟩
    · rw [hpending]
      simp [localsList]
    · rw [hsteps, hpending, hdeclares, unionMap_append, hs.bare, union_empty, unionMap_nil,
        declared_flush, h.declares]
      simp

/-- Code that is checked uses the name in the step of its declaration. -/
theorem checked (h : Holds x outer n s) (hs : Spread x [] s t a X Y)
    (huse : n ∈ Y → outer → Declares s n) (hcheck : ∀ u ∈ t.uses, u.declaredAt = t.steps.length) :
    Holds x outer n t ∧ (n ∈ X → outer ∨ Declares t n → n ∈ unionMap declared t.steps.pending) := by
  by_cases hn : n ∈ Y ∧ Declares s n
  · obtain ⟨rfl, hp⟩ := h.toPlaced.used hs hn.1 hn.2 hcheck
    refine ⟨h.still hs.emits, fun _ _ => ?_⟩
    rw [(hs.emits.same rfl).2]
    exact hp
  · obtain ⟨ht, hX⟩ := h.unused hs fun hY hd =>
      hn ⟨hY, hd.elim (huse hY) id⟩
    exact ⟨ht, fun hn' hd => absurd hd (hX hn')⟩

theorem unpaused (h : Holds x outer n s) (hs : Spread x [] s t [] X Y)
    (huse : n ∈ Y → n ∈ unionMap declared s.steps.pending) :
    Holds x outer n t ∧ (n ∈ X → n ∈ unionMap declared t.steps.pending) := by
  refine ⟨h.still hs.emits, fun hX => ?_⟩
  rw [(hs.emits.same rfl).2]
  exact huse (hs.within (mem_union_right _ hX))

theorem pending_push (h : Holds x outer n s) {stmt : CodeStmt}
    (hstmt : n ∈ stmt.locals x.produced → outer ∨ Declares s n →
      n ∈ unionMap declared s.steps.pending)
    (hn : outer ∨ n ∈ unionMap Step.declared s.steps.steps) :
    n ∉ localsList x.produced (s.steps.pending ++ [stmt]) := by
  have hdeclares := hn.imp_right fun hn => h.declares.1 (.inl hn)
  simp only [localsList_append, localsList, empty_sdiff,
    union_empty, mem_union, mem_sdiff]
  rintro (hlocal | ⟨hlocal, hnot⟩)
  · exact h.pending hn hlocal
  · exact hnot (hstmt hlocal hdeclares)

theorem push (h : Holds x outer n s) {stmt : CodeStmt} (hnone : stmt.declared = ∅)
    (hstmt : n ∈ stmt.locals x.produced → outer ∨ Declares s n →
      n ∈ unionMap declared s.steps.pending) :
    Holds x outer n { s with steps := s.steps.pushPlain stmt } where
  toPlaced := h.toPlaced.push stmt
  generated := h.generated.pushPlain stmt
  steps := h.steps
  none := h.none
  pending := h.pending_push hstmt
  declares := by
    simpa [StepList.pushPlain, unionMap_append, hnone, Declares] using h.declares

theorem declare (h : Holds x outer n s) {name : String} {ty : TypeName} {init : Option Expr}
    {span : Span} (hinit : n ∈ Expr.localsOpt x.produced init → outer ∨ Declares s n →
      n ∈ unionMap declared s.steps.pending) : Holds x outer n { s with
      locals := (name, s.steps.length) :: s.locals
      steps := s.steps.pushPlain (.declare name ty init span) } where
  toPlaced := h.toPlaced.declare name ty init span
  generated := h.generated.pushPlain _
  steps := h.steps
  none := h.none
  pending := h.pending_push (by simpa [locals] using hinit)
  declares := by
    have hdeclares := h.declares
    simp only [Declares] at hdeclares ⊢
    rw [List.find?_cons, StepList.pushPlain, unionMap_append, mem_union, ← or_assoc,
      hdeclares]
    by_cases hname : name = n
    · simp [declared, hname]
    · have hne : (name == n) = false := by simpa using hname
      simp [declared, hne, Ne.symm hname]

end Holds

/-- What is known about a name after code of a run that declares `D`; the names in `alive` are
declared in the step under construction. -/
structure Passes (x : SemanticIndex) (outer : Prop) (n : String) (s t : StageState)
    (D alive : Finset String) : Prop where
  holds : Holds x outer n t
  declares : Declares s n ∨ n ∈ D → Declares t n
  alive : n ∈ alive → n ∈ unionMap declared t.steps.pending

section Statements

variable {site : Site} {alive : Finset String}

/-- A statement that is a scheduled call spreads the locals of the expression. -/
theorem staged_sends (hh : c.Unmarked x) (hsite : site.context = c) (h : Sends site e s t) :
    ∃ a X, Staged x site s t a (c.stmtPauses (.eval e)) X
      ((CodeStmt.eval e).locals (c.reading x)) := by
  subst hsite
  cases h with
  | discard hattr h =>
    have hstaged := scopes hh h rfl
    exact ⟨_, _, by
      simpa [stmtPauses, piecePauses, pieceLocals, pauses, locals, Expr.locals, hattr]
        using hstaged⟩
  | into f hattr hstore h =>
    have hstaged := scopes hh h rfl
    exact ⟨_, _, by
      simpa [stmtPauses, piecePauses, pieceLocals, pauses, locals, Expr.locals, hattr, hstore]
        using hstaged⟩

theorem passes_spread (hs : Spread x [] s t a X Y)
    (ha : a.isEmpty = !(site.canSchedule && p)) (hholds : Holds x outer n t)
    (halive : n ∈ alive → n ∈ unionMap declared s.steps.pending) :
    Passes x outer n s t ∅ (if p then ∅ else alive) := by
  refine ⟨hholds, ?_, fun hn => ?_⟩
  · rintro (hd | hn)
    · rw [Declares, hs.emits.locals]
      exact hd
    · cases hn
  · cases p with
    | true => simp at hn
    | false =>
      have ha : a = [] := by simpa using ha
      rw [(hs.emits.same ha).2]
      exact halive hn

theorem passes_staged (hhidden : site.hidden = []) (hstaged : Staged x site s t a p X Y)
    (hs : Holds x outer n s) (huse : n ∈ Y → outer → Declares s n)
    (halive : n ∈ alive → n ∈ unionMap declared s.steps.pending)
    (hcheck : ∀ u ∈ t.uses, u.declaredAt = t.steps.length) :
    Passes x outer n s t ∅ (if p then ∅ else alive) ∧
      (n ∈ X → outer ∨ Declares t n → n ∈ unionMap declared t.steps.pending) := by
  obtain ⟨ha, hspread⟩ := hstaged
  rw [hhidden] at hspread
  obtain ⟨hholds, hX⟩ := hs.checked hspread huse hcheck
  exact ⟨passes_spread hspread ha hholds halive, hX⟩

theorem passes_unchecked (hhidden : site.hidden = [])
    (hstaged : Staged x site s t a p X Y) (hs : Holds x outer n s)
    (hstray : n ∉ if p then Y else Y \ alive)
    (halive : n ∈ alive → n ∈ unionMap declared s.steps.pending) :
    Passes x outer n s t ∅ (if p then ∅ else alive) ∧
      (n ∈ X → n ∈ unionMap declared t.steps.pending) := by
  obtain ⟨ha, hspread⟩ := hstaged
  rw [hhidden] at hspread
  cases p with
  | true =>
    have hX : n ∉ X := fun hn => hstray (hspread.within (mem_union_right _ hn))
    obtain ⟨hholds, -⟩ := hs.unused hspread fun hn => absurd hn hstray
    exact ⟨passes_spread hspread ha hholds halive, fun hn => absurd hn hX⟩
  | false =>
    have hnil : a = [] := by simpa using ha
    have huse : n ∈ Y → n ∈ alive := by
      intro hn
      by_contra hnot
      exact hstray (mem_sdiff.2 ⟨hn, hnot⟩)
    obtain ⟨hholds, hX⟩ := hs.unpaused (hnil ▸ hspread) fun hn => halive (huse hn)
    exact ⟨passes_spread hspread ha hholds halive, hX⟩

namespace Passes

variable {D : Finset String}

theorem push (h : Passes x outer n s t D alive) {stmt : CodeStmt} (hnone : stmt.declared = ∅)
    (hstmt : n ∈ stmt.locals x.produced → outer ∨ Declares t n →
      n ∈ unionMap declared t.steps.pending) :
    Passes x outer n s { t with steps := t.steps.pushPlain stmt } D alive where
  holds := h.holds.push hnone hstmt
  declares := h.declares
  alive hn := by
    simp only [StepList.pushPlain, unionMap_append]
    exact mem_union_left _ (h.alive hn)

theorem declare (h : Passes x outer n s t ∅ alive)
    (hinit : n ∈ Expr.localsOpt x.produced init → outer ∨ Declares t n →
      n ∈ unionMap declared t.steps.pending) : Passes x outer n s { t with
      locals := (name, t.steps.length) :: t.locals
      steps := t.steps.pushPlain (.declare name ty init span) } {name} (alive ∪ {name}) where
  holds := h.holds.declare hinit
  declares hn := by
    rw [Declares, List.find?_cons]
    split
    · rfl
    · next hname =>
      refine h.declares (hn.imp_right fun hn => ?_)
      simp [mem_singleton.1 hn] at hname
  alive hn := by
    simp only [StepList.pushPlain, unionMap_append]
    rcases mem_union.1 hn with hn | hn
    · exact mem_union_left _ (h.alive hn)
    · exact mem_union_right _ (by simpa [declared] using hn)

theorem plain (h : Passes x outer n s t ∅ alive) : Passes x outer n s t ∅ (alive ∪ ∅) :=
  ⟨h.holds, h.declares, fun hn => h.alive (by simpa using hn)⟩

theorem pushed (h : Passes x outer n s t ∅ alive) {stmt : CodeStmt}
    (hstmt : n ∈ stmt.locals x.produced → outer ∨ Declares t n →
      n ∈ unionMap declared t.steps.pending) :
    Passes x outer n s (t.pushed stmt) stmt.declared (alive ∪ stmt.declared) := by
  cases stmt with
  | declare => exact h.declare hstmt
  | eval | branch | block | loop => exact (h.push rfl hstmt).plain

theorem trans (h : Passes x outer n s t D alive)
    (h' : Passes x outer n t u D' alive') : Passes x outer n s u (D ∪ D') alive' where
  holds := h'.holds
  declares hn := by
    refine h'.declares ?_
    rcases hn with hd | hn
    · exact .inl (h.declares (.inl hd))
    · rcases mem_union.1 hn with hn | hn
      · exact .inl (h.declares (.inr hn))
      · exact .inr hn
  alive := h'.alive

end Passes

theorem passes_stmt (hh : c.Unmarked x) (hsite : site.context = c)
    (hhidden : site.hidden = []) {stmt : CodeStmt} (h : Stage.stmt site stmt s = .ok r t)
    (hcheck : ∀ u ∈ t.uses, u.declaredAt = t.steps.length) (hs : Holds x outer n s)
    (huse : n ∈ stmt.locals (c.reading x) → outer → Declares s n)
    (halive : n ∈ alive → n ∈ unionMap declared s.steps.pending) :
    Passes x outer n s t stmt.declared
      ((if c.stmtPauses stmt then ∅ else alive) ∪ stmt.declared) := by
  rcases stmt_ok h with ⟨e, rfl, hsends⟩ | ⟨site', stmt', a, s₁, hsite', hstmt, rfl⟩
  · obtain ⟨a, X, hstaged⟩ := staged_sends hh hsite hsends
    exact (passes_staged hhidden hstaged hs huse halive hcheck).1.plain
  · have hcontext : site'.context = c ∧ site'.hidden = [] := by
      rcases hsite' with rfl | rfl <;> exact ⟨hsite, hhidden⟩
    obtain ⟨hpasses, hX⟩ :=
      passes_staged hcontext.2 (scopes hh hstmt hcontext.1) hs huse halive hcheck
    rw [← declared_of_stmt hstmt]
    exact hpasses.pushed hX

theorem passes_body (hh : c.Unmarked x) (hsite : site.context = c)
    (hhidden : site.hidden = []) {body : List CodeStmt} {r : Unit}
    (h : Stage.body site body s = .ok r t) (hs : Holds x outer n s)
    (huse : n ∈ localsList (c.reading x) body → outer → Declares s n)
    (halive : n ∈ alive → n ∈ unionMap declared s.steps.pending) :
    Passes x outer n s t (unionMap declared body) (c.aliveAfter alive body) := by
  induction body generalizing s alive with
  | nil =>
    cases h
    exact ⟨hs, fun hn => hn.elim id (by simp), halive⟩
  | cons stmt rest ih =>
    obtain ⟨s₁, hstmt, hcheck, hrest⟩ := body_cons h
    have hfirst := passes_stmt hh hsite hhidden hstmt (Stage.uses_of_checkUses hcheck) hs
      (fun hn => huse (by simp [localsList, hn])) halive
    have hcleared : Passes x outer n s { s₁ with uses := [] } stmt.declared
        ((if c.stmtPauses stmt then ∅ else alive) ∪ stmt.declared) :=
      ⟨⟨⟨hfirst.holds.before, hfirst.holds.here⟩, hfirst.holds.generated, hfirst.holds.steps,
        hfirst.holds.none, hfirst.holds.pending, hfirst.holds.declares⟩, hfirst.declares,
        hfirst.alive⟩
    refine hcleared.trans (ih hrest hcleared.holds (fun hn houter => hcleared.declares ?_)
      hcleared.alive)
    by_cases hd : n ∈ stmt.declared
    · exact .inr hd
    · exact .inl (huse (by simp [localsList, hn, hd]) houter)

/-- The first value of a store is not checked. -/
theorem passes_initializer (hh : c.Unmarked x) (hsite : site.context = c)
    (hhidden : site.hidden = []) (hstore : store ∈ c.activity.stores) {e : Expr}
    (h : initializer site store e s = .ok r t) (hs : Holds x outer n s)
    (hstray : n ∉ if c.pauses e then e.locals (c.reading x) else e.locals (c.reading x) \ alive)
    (halive : n ∈ alive → n ∈ unionMap declared s.steps.pending) :
    Passes x outer n s t ∅ (if c.pauses e then ∅ else alive) := by
  subst hsite
  rcases initializer_ok hstore h with ⟨o, f, args, attr, read, a, rfl, hattr, hsend⟩ |
    ⟨v, a, s₁, hv, rfl⟩
  · have hpauses : site.context.pauses (.call o f args) = true := by simp [pauses, hattr]
    rw [hpauses] at hstray ⊢
    refine (passes_unchecked hhidden (scopes hh hsend rfl) hs ?_ halive).1
    simpa [piecePauses, pieceLocals, Expr.locals, hattr] using hstray
  · obtain ⟨hpasses, hX⟩ := passes_unchecked hhidden (scopes hh hv rfl) hs hstray halive
    exact hpasses.push rfl fun hn _ => hX (by
      simpa [locals, leftLocals, hh.handle store hstore] using hn)

/-- A fragment is the first value of a store, or its statements are staged one by one. -/
theorem code_form (c : LowerContext) (body : List CodeStmt) (st : Option Store) :
    (∃ store o op target value, st = some store ∧ body = [.eval (.assign o op target value)]) ∨
      (∀ site, Stage.code site body st = Stage.body site body) ∧
      (∀ rest, c.runLocals ((body, st) :: rest) = localsList c.source body ∪
        (c.runLocals rest \ unionMap declared body)) ∧
      ∀ alive rest, c.strayLocals alive ((body, st) :: rest) =
        c.strayLocals (c.aliveAfter alive body) rest := by
  by_cases h : ∃ store o op target value, st = some store ∧
      body = [.eval (.assign o op target value)]
  · exact .inl h
  · refine .inr ⟨fun site => ?_, fun rest => ?_, fun alive rest => ?_⟩
    · unfold code
      split
      · exact absurd ⟨_, _, _, _, _, rfl, rfl⟩ h
      · rfl
    · rw [runLocals]
      intro o op target value store hbody hst
      exact h ⟨_, _, _, _, _, hst, hbody⟩
    · rw [strayLocals]
      intro o op target value store hbody hst
      exact h ⟨_, _, _, _, _, hst, hbody⟩

variable (c) in
def withStores (fs : List (List CodeStmt × Option StoreId)) :
    List (List CodeStmt × Option Store) :=
  fs.map fun p => (p.1, p.2.bind fun id => c.activity.stores[id]?)

/-- A run leaks no name that is declared before it is used and that no first value uses elsewhere.
-/
theorem holds_fragments (hh : c.Unmarked c.semantics) (hsite : site.context = c)
    (hhidden : site.hidden = []) {fs : List (List CodeStmt × Option StoreId)} {r : Unit}
    (h : Stage.fragments site fs s = .ok r t) (hs : Holds c.semantics True n s)
    (huse : n ∈ c.runLocals (c.withStores fs) → Declares s n)
    (hstray : n ∉ c.strayLocals alive (c.withStores fs))
    (halive : n ∈ alive → n ∈ unionMap declared s.steps.pending) : Holds c.semantics True n t := by
  induction fs generalizing s alive with
  | nil =>
    cases h
    exact hs
  | cons p fs ih =>
    obtain ⟨_, s₁, hcode, hrest⟩ := Stage.bind_eq_ok.1 h
    rw [hsite] at hcode
    rw [withStores, List.map_cons] at huse hstray
    rcases code_form c p.1 (p.2.bind fun id => c.activity.stores[id]?) with
      ⟨store, o, op, target, value, hst, hbody⟩ | ⟨hform, hrun, hstrays⟩
    · rw [hst, hbody] at hcode huse hstray
      rw [runLocals] at huse
      rw [strayLocals] at hstray
      obtain ⟨id, -, hid⟩ := Option.bind_eq_some_iff.1 hst
      have hparts : (n ∉ if c.pauses value then value.locals c.source
            else value.locals c.source \ alive) ∧
          n ∉ c.strayLocals (if c.pauses value then ∅ else alive) (c.withStores fs) := by
        cases hp : c.pauses value <;> simpa [hp, withStores] using hstray
      have hfirst := passes_initializer hh hsite hhidden
        (Array.mem_of_getElem? hid) hcode hs hparts.1 halive
      exact ih hrest hfirst.holds (fun hn => hfirst.declares (.inl (huse hn))) hparts.2
        hfirst.alive
    · rw [hform] at hcode
      rw [hrun] at huse
      rw [hstrays] at hstray
      have hfirst := passes_body hh hsite hhidden hcode hs
        (fun hn _ => huse (mem_union_left _ hn)) halive
      refine ih hrest hfirst.holds (fun hn => hfirst.declares ?_) hstray hfirst.alive
      by_cases hd : n ∈ unionMap declared p.1
      · exact .inr hd
      · exact .inl (huse (mem_union_right _ (mem_sdiff.2 ⟨hn, hd⟩)))

end Statements

end LowerContext

end Workflow
