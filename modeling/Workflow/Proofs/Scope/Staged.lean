import Workflow.Proofs.Lower.Derivation

/-!
# Locals of staged code

Staging an expression spreads its locals: each is one of a step that it adds, or of the produced
expression, and nothing is new. On the way the uses of the locals of the fragment are noted, those
that no scope inside the expression binds.
-/

namespace Workflow

open Stage CodeStmt Finset

variable {site : Site} {s t : StageState} {o : Origin} {args : List Argument}
variable {store : Store} {e : Expr} {stmt : CodeStmt} {body : List CodeStmt}

/-- Staging notes the uses of the locals in `Y` that are declared in the fragment, except the hidden
ones. -/
structure Notes (hidden : List String) (s t : StageState) (Y : Finset String) : Prop where
  locals : t.locals = s.locals
  uses : ∀ u ∈ s.uses, u ∈ t.uses
  noted : ∀ n ∈ Y, n ∉ hidden → ∀ q, s.locals.find? (·.1 == n) = some q →
    ∃ u ∈ t.uses, u.declaredAt = q.2

namespace Notes

variable {hidden : List String} {s t u : StageState} {Y Y' : Finset String}

theorem of_scope (h : t.scope = s.scope) : Notes hidden s t ∅ where
  locals := congrArg Prod.fst h
  uses u hu := by
    rw [show t.uses = s.uses from congrArg Prod.snd h]
    exact hu
  noted n hn := by cases hn

theorem both (h : Notes hidden s t Y) (h' : Notes hidden t u Y') : Notes hidden s u (Y ∪ Y') where
  locals := h'.locals.trans h.locals
  uses v hv := h'.uses v (h.uses v hv)
  noted n hn hhidden q hq := by
    rcases mem_union.1 hn with hn | hn
    · obtain ⟨v, hv, hd⟩ := h.noted n hn hhidden q hq
      exact ⟨v, h'.uses v hv, hd⟩
    · rw [← h.locals] at hq
      exact h'.noted n hn hhidden q hq

theorem after (h : Notes hidden s t Y) (hscope : u.scope = t.scope) : Notes hidden s u Y := by
  have := h.both (of_scope hscope)
  rwa [union_empty] at this

theorem before (hscope : t.scope = s.scope) (h : Notes hidden t u Y) : Notes hidden s u Y := by
  have := (of_scope hscope).both h
  rwa [empty_union] at this

theorem name (s : StageState) (site : Site) (o : Origin) (n : String) :
    Notes site.hidden s (s.noted site o n) {n} := by
  unfold StageState.noted
  by_cases hhidden : n ∈ site.hidden
  · rw [if_pos (by simpa using hhidden)]
    refine ⟨rfl, fun u hu => hu, fun m hm hm' => ?_⟩
    rw [mem_singleton.1 hm] at hm'
    exact absurd hhidden hm'
  · rw [if_neg (by simpa using hhidden)]
    cases hfind : s.locals.find? (·.1 == n) with
    | none =>
      refine ⟨rfl, fun u hu => hu, fun m hm _ q hq => ?_⟩
      rw [mem_singleton.1 hm, hfind] at hq
      cases hq
    | some found =>
      refine ⟨rfl, fun u hu => List.mem_append_left _ hu, fun m hm _ q hq => ?_⟩
      rw [mem_singleton.1 hm, hfind] at hq
      cases hq
      exact ⟨_, List.mem_append_right _ (List.mem_singleton.2 rfl), rfl⟩

theorem mono (h : Notes hidden s t Y) (hY : Y' ⊆ Y) : Notes hidden s t Y' where
  locals := h.locals
  uses := h.uses
  noted n hn := h.noted n (hY hn)

end Notes

def Step.declared : Step → Finset String
  | .node (.mk none (.code body)) => unionMap CodeStmt.declared body
  | _ => ∅

/-- Staging with the locals `Y`: those in `X` are left to the produced code, the others are those of
the added steps. -/
structure Spread (x : SemanticIndex) (hidden : List String) (s t : StageState) (a : List Step)
    (X Y : Finset String) : Prop where
  emits : Emits s t a
  bare : unionMap Step.declared a = ∅
  within : unionMap (Step.locals x) a ∪ X ⊆ Y
  notes : Notes hidden s t Y

namespace Spread

variable {x : SemanticIndex} {hidden : List String} {s t u : StageState} {a b : List Step}
variable {X Y X' Y' : Finset String}

theorem none (hem : Emits s t []) (hscope : t.scope = s.scope) : Spread x hidden s t [] ∅ ∅ where
  emits := hem
  bare := rfl
  within := Subset.refl ∅
  notes := .of_scope hscope

theorem both (h : Spread x hidden s t a X Y) (h' : Spread x hidden t u b X' Y') :
    Spread x hidden s u (a ++ b) (X ∪ X') (Y ∪ Y') where
  emits := h.emits.trans h'.emits
  bare := by rw [unionMap_append, h.bare, h'.bare, union_empty]
  within := by
    have := union_subset_union h.within h'.within
    rwa [unionMap_append, union_union_union_comm]
  notes := h.notes.both h'.notes

theorem after (h : Spread x hidden s t a X Y) (hem : Emits t u []) (hscope : u.scope = t.scope) :
    Spread x hidden s u a X Y where
  emits := by simpa using h.emits.trans hem
  bare := h.bare
  within := h.within
  notes := h.notes.after hscope

theorem before (hem : Emits s t []) (hscope : t.scope = s.scope) (h : Spread x hidden t u a X Y) :
    Spread x hidden s u a X Y where
  emits := by simpa using hem.trans h.emits
  bare := h.bare
  within := h.within
  notes := h.notes.before hscope

theorem mono (h : Spread x hidden s t a X Y) (hX : X' ⊆ X) : Spread x hidden s t a X' Y where
  emits := h.emits
  bare := h.bare
  within := (union_subset_union_right hX).trans h.within
  notes := h.notes

/-- Names that are hidden inside a scope are bound by it. -/
theorem scope {inner : List String} (h : Spread x inner s t [] X Y) (D : Finset String)
    (hinner : ∀ n ∈ inner, n ∈ hidden ∨ n ∈ D) : Spread x hidden s t [] (X \ D) (Y \ D) where
  emits := h.emits
  bare := rfl
  within := by
    have := sdiff_subset_sdiff h.within (Subset.refl D)
    rwa [unionMap_nil, empty_union] at this ⊢
  notes := by
    refine ⟨h.notes.locals, h.notes.uses, fun n hn hhidden q hq => ?_⟩
    obtain ⟨hY, hD⟩ := mem_sdiff.1 hn
    exact h.notes.noted n hY (fun hi => (hinner n hi).elim hhidden hD) q hq

end Spread

namespace LowerContext

variable (c : LowerContext) (x : SemanticIndex)

/-- No local occurs in the handle of a store, and nothing that stands for a store is a local. -/
structure Unmarked : Prop where
  handle : ∀ store ∈ c.activity.stores, store.handle.locals x.produced = ∅
  name : ∀ e store, c.storeFor? e = some store → x.isLocal e.id = false

def stmtPauses : CodeStmt → Bool
  | .eval e => c.pauses e
  | .declare _ _ init _ => init.any c.pauses
  | .branch e _ _ => c.pauses e
  | .block _ | .loop _ _ => false

def piecePauses : Piece → Bool
  | .expr e _ => c.pauses e
  | .optional v _ => v.any c.pauses
  | .values args _ | .inputs _ _ args _ | .plain args _ => c.argsPause args
  | .send .. => true
  | .call _ _ f args _ => c.pauses f || c.argsPause args
  | .stmt stmt _ => c.stmtPauses stmt
  | .body .. | .branch .. => false

def pieceLocals : Piece → Finset String
  | .expr e _ => e.locals (c.reading x)
  | .optional v _ => Expr.localsOpt (c.reading x) v
  | .values args _ | .inputs _ _ args _ | .plain args _ | .send _ _ _ _ args _ =>
    Argument.localsList (c.reading x) args
  | .call _ _ f args _ => f.locals (c.reading x) ∪ Argument.localsList (c.reading x) args
  | .stmt stmt _ => stmt.locals (c.reading x)
  | .body body _ => localsList (c.reading x) body
  | .branch stmt _ => localsOpt (c.reading x) stmt

def leftLocals : Piece → Finset String
  | .expr _ e | .call _ _ _ _ e => e.locals x.produced
  | .optional _ v => Expr.localsOpt x.produced v
  | .values _ as => Argument.localsList x.produced as
  | .inputs _ _ _ as => unionMap (Expr.locals x.produced) (as.flatMap (·.value.slots))
  | .plain _ p => Argument.localsList x.produced p.args
  | .send _ _ _ _ _ read => (read.getD .null).locals x.produced
  | .stmt _ stmt => stmt.locals x.produced
  | .body _ body => localsList x.produced body
  | .branch _ stmt => localsOpt x.produced stmt

/-- Code spreads its locals, and adds steps exactly if it pauses and something may be scheduled. -/
def Staged (site : Site) (s t : StageState) (a : List Step) (pauses : Bool)
    (X Y : Finset String) : Prop :=
  a.isEmpty = !(site.canSchedule && pauses) ∧ Spread x site.hidden s t a X Y

variable {c x}

namespace Staged

variable {site : Site} {s t u : StageState} {a b : List Step} {p q : Bool}
variable {X Y X' Y' : Finset String}

@[simp]
theorem deeper : Staged x site.deeper s t a p X Y ↔ Staged x site s t a p X Y := Iff.rfl

theorem none (hem : Emits s t []) (hscope : t.scope = s.scope) : Staged x site s t [] false ∅ ∅ :=
  ⟨by simp, .none hem hscope⟩

theorem both (h : Staged x site s t a p X Y) (h' : Staged x site t u b q X' Y') :
    Staged x site s u (a ++ b) (p || q) (X ∪ X') (Y ∪ Y') := by
  refine ⟨?_, h.2.both h'.2⟩
  have happend : (a ++ b).isEmpty = (a.isEmpty && b.isEmpty) := by cases a <;> rfl
  rw [happend, h.1, h'.1, ← Bool.not_or, Bool.and_or_distrib_left]

theorem after (h : Staged x site s t a p X Y) (hem : Emits t u []) (hscope : u.scope = t.scope) :
    Staged x site s u a p X Y :=
  ⟨h.1, h.2.after hem hscope⟩

theorem before (hem : Emits s t []) (hscope : t.scope = s.scope) (h : Staged x site t u a p X Y) :
    Staged x site s u a p X Y :=
  ⟨h.1, h.2.before hem hscope⟩

theorem mono (h : Staged x site s t a p X Y) (hX : X' ⊆ X) : Staged x site s t a p X' Y :=
  ⟨h.1, h.2.mono hX⟩

/-- Where nothing may be scheduled there are no steps. -/
theorem inside (h : Staged x site s t a p X Y) (hcan : site.canSchedule = false) : a = [] := by
  simpa [Staged, hcan] using h.1

theorem congr (h : Staged x site s t a p X Y)
    (hpauses : (site.canSchedule && q) = (site.canSchedule && p)) : Staged x site s t a q X Y :=
  ⟨by rw [hpauses]; exact h.1, h.2⟩

theorem scope {inner : Site} (h : Staged x inner s t a p X Y) (hcan : inner.canSchedule = false)
    (D : Finset String) (hinner : ∀ n ∈ inner.hidden, n ∈ site.hidden ∨ n ∈ D) :
    Staged x site s t a false (X \ D) (Y \ D) := by
  obtain rfl := h.inside hcan
  exact ⟨by simp, h.2.scope D hinner⟩

theorem unpaused (h : Staged x site s t a p X Y) (hcan : site.canSchedule = false) :
    Staged x site s t a false X Y :=
  h.congr (by simp [hcan])

theorem nest (h : Staged x site.nest s t a p X Y) : Staged x site s t a false X Y :=
  ⟨by simp [h.inside (Site.canSchedule_nest site)], h.2⟩

end Staged

theorem Unmarked.locals_name (hh : c.Unmarked x)
    (h : c.storeFor? (.name o n) = some store) : (Expr.name o n).locals (c.reading x) = ∅ := by
  have hlocal : x.isLocal o.id = false := hh.name _ _ h
  simp [Expr.locals, reading, hlocal]

theorem Unmarked.of_storeFor? (hh : c.Unmarked x) (h : c.storeFor? e = some store) :
    store.handle.locals x.produced = ∅ :=
  hh.handle store (storeFor?_mem h)

section Steps

variable (x) (b : List Step)

attribute [local simp] setVar getVar locals localsList Expr.localsOpt
  Expr.locals localVar declared

/-- The left side of an operator is evaluated by its skip, the right side in the last step. -/
theorem locals_operatorSteps (op : BinaryOp) (l r : Expr) (result held : String)
    (ty heldType : TypeName) :
    unionMap (Step.locals x) (operatorSteps op l result held ty heldType b r) =
      l.locals x.produced ∪ (unionMap (Step.locals x) b ∪ r.locals x.produced) := by
  have hskip : ∀ d, (operatorStep op l result held ty heldType d).locals x =
      l.locals x.produced := by
    intro d
    cases op <;> simp [operatorStep, skipParts, Step.locals]
  rw [operatorSteps, unionMap_cons, hskip, unionMap_append]
  simp [Step.locals, Node.locals_code]

theorem declared_operatorSteps (op : BinaryOp) (l r : Expr) (result held : String)
    (ty heldType : TypeName) :
    unionMap Step.declared (operatorSteps op l result held ty heldType b r) =
      unionMap Step.declared b := by
  simp [operatorSteps, operatorStep, unionMap_append, Step.declared, Node.code,
    Node.ofKind]

theorem declared_choiceSteps (test first second : Expr) (result : String) (d : List Step) :
    unionMap Step.declared (choiceSteps test result b first d second) =
      unionMap Step.declared b ∪ unionMap Step.declared d := by
  simp [choiceSteps, unionMap_append, Step.declared, Node.code, Node.ofKind]

theorem locals_choiceSteps (test first second : Expr) (result : String) (d : List Step) :
    unionMap (Step.locals x) (choiceSteps test result b first d second) =
      test.locals x.produced ∪ ((unionMap (Step.locals x) b ∪ first.locals x.produced) ∪
        (unionMap (Step.locals x) d ∪ second.locals x.produced)) := by
  simp [choiceSteps, unionMap_append, Step.locals, Node.locals_code]

end Steps

variable {a : List Step}

attribute [local simp] Expr.locals Argument.localsList localsList locals Expr.localsOpt localsOpt
  localVar declared

theorem Unmarked.of_namedStore? (hh : c.Unmarked x) (h : c.namedStore? e = some store) :
    c.storeFor? e = some store ∧ e.locals (c.reading x) = ∅ ∧ c.pauses e = false := by
  unfold namedStore? at h
  split at h
  case isFalse => cases h
  case isTrue hname =>
    cases e
    case name o n => exact ⟨h, hh.locals_name h, rfl⟩
    all_goals cases hname

theorem Unmarked.locals_storeStep (hh : c.Unmarked x) (h : c.storeFor? e = some store) :
    (storeStep op step store).locals x.produced = ∅ := by
  unfold storeStep
  split <;> simp [hh.of_storeFor? h]

theorem Unmarked.locals_storeAssign (hh : c.Unmarked x) (h : c.storeFor? e = some store) :
    (storeAssign o op store v).locals x.produced = v.locals x.produced := by
  unfold storeAssign
  cases op.binary <;> simp [hh.of_storeFor? h]

theorem locals_copies (hh : c.Unmarked x) (h : Staging site (.plain args p) a s t)
    (hsite : site.context = c) :
    localsList x.produced p.before = ∅ ∧ localsList x.produced p.after = ∅ := by
  induction args generalizing s p a with
  | nil =>
    cases h
    exact ⟨rfl, rfl⟩
  | cons arg rest ih =>
    cases h with
    | copied _ hstore _ _ _ h =>
      rw [hsite] at hstore
      have hunmarked := hh.of_storeFor? (hh.of_namedStore? hstore).1
      obtain ⟨hbefore, hafter⟩ := ih h
      refine ⟨?_, by simp [hunmarked, hafter]⟩
      split <;> simp [hunmarked, hbefore]
    | passed _ _ h =>
      obtain ⟨hbefore, hafter⟩ := ih h
      exact ⟨hbefore, hafter⟩

theorem locals_plainCall {discard : Bool} {f e' : Expr} {p : PlainArgs}
    (hp : localsList x.produced p.before = ∅ ∧ localsList x.produced p.after = ∅)
    (h : plainCall o discard f p s = .ok e' t) :
    e'.locals x.produced ⊆ f.locals x.produced ∪ Argument.localsList x.produced p.args := by
  obtain ⟨-, -, rfl | rfl | ⟨n, rfl⟩⟩ := plainCall_ok h
  · simp
  all_goals simp [localsList_append, hp, sdiff_subset]

theorem locals_invokeNode (x : SemanticIndex) (attr : SchedulingAttribute)
    (arguments : List NodeArgument) (location : Option Location) :
    (invokeNode attr arguments location).locals x =
      unionMap (Expr.locals x.produced) (arguments.flatMap (·.value.slots)) ∪
        unionMap (Expr.locals x.produced) (location.toList.map (·.handle)) := by
  simp [invokeNode, Node.locals_named, Node.locals_ofKind, NodeKind.ownLocals, NodeKind.slots,
    NodeKind.body, NodeKind.children, unionMap_append]

/-- The result of a scheduled call goes into a store or a variable, and is read from a variable. -/
theorem locals_result (h : resultLocation site attr result s = .ok p t)
    (hinto : ∀ store, result = .into store → store.handle.locals x.produced = ∅) :
    unionMap (Expr.locals x.produced) (p.1.toList.map (·.handle)) = ∅ ∧
      (p.2.getD .null).locals x.produced = ∅ := by
  obtain ⟨-, -, ⟨hloc, hread⟩ | ⟨n, ty, -, rfl⟩⟩ := resultLocation_ok h
  · refine ⟨?_, by rw [hread]; simp [Expr.null]⟩
    cases hp : p.1 with
    | none => rfl
    | some l =>
      obtain ⟨-, store, rfl, hhandle⟩ := hloc l hp
      simp [hhandle, hinto store rfl]
  · simp [getVar]

theorem mem_hidden_after (h : n ∈ (site.after stmt).hidden) :
    n ∈ site.hidden ∨ n ∈ stmt.declared := by
  cases stmt
  case declare name ty init span =>
    rcases List.mem_cons.1 h with rfl | h
    · exact .inr (mem_singleton_self n)
    · exact .inl h
  all_goals exact .inl h

theorem mem_hidden_afterAll (h : n ∈ (site.afterAll body).hidden) :
    n ∈ site.hidden ∨ n ∈ unionMap declared body := by
  induction body generalizing site with
  | nil => exact .inl h
  | cons stmt rest ih =>
    rw [unionMap_cons]
    rcases ih h with h | h
    · exact (mem_hidden_after h).imp_right (mem_union_left _)
    · exact .inr (mem_union_right _ h)

theorem declared_of_stmt (h : Staging site (.stmt stmt stmt') a s t) :
    stmt'.declared = stmt.declared := by
  cases h <;> rfl

/-- The staged statements of a scope declare the same names. -/
theorem declared_of_body (h : Staging site (.body body body') a s t) :
    unionMap declared body' = unionMap declared body := by
  induction body generalizing site s body' a with
  | nil =>
    cases h
    rfl
  | cons stmt rest ih =>
    cases h with
    | bodyCons _ hstmt hrest =>
      rw [unionMap_cons, unionMap_cons, declared_of_stmt hstmt, ih hrest]

/-- An operator that is not lowered to a skip adds the steps of its sides. -/
theorem and_pauses_binary (hplain : (op.isShortCircuit && b && c.schedules r) = false) :
    (b && c.pauses (.binary o op l r)) = (b && (c.pauses l || c.pauses r)) := by
  rw [pauses]
  revert hplain
  cases b <;> cases op.isShortCircuit <;> cases c.schedules r <;> simp

theorem and_pauses_conditional (hplain : (b && (c.schedules y || c.schedules n)) = false) :
    (b && c.pauses (.conditional o e y n)) = (b && (c.pauses e || (c.pauses y || c.pauses n))) := by
  rw [pauses]
  revert hplain
  cases b <;> cases c.schedules y <;> cases c.schedules n <;> simp [Bool.or_assoc]

attribute [local simp] piecePauses pieceLocals leftLocals pauses argsPause stmtPauses

/-- Every piece spreads its locals. -/
theorem scopes (hh : c.Unmarked x) (h : Staging site p a s t) : site.context = c →
    Staged x site s t a (c.piecePauses p) (leftLocals x p) (c.pieceLocals x p) := by
  induction h with intro hsite
  | literal | absent | valuesNil | inputsNil | plainNil | bodyNil | branchNone =>
    simpa using Staged.none (.refl _) rfl
  | read hstore =>
    rw [hsite] at hstore
    have hlocals := hh.locals_name hstore
    simp only [piecePauses, leftLocals, pieceLocals, pauses, hlocals,
      Expr.locals_storeGet_withSpan, hh.of_storeFor? hstore]
    exact Staged.none (.refl _) rfl
  | @name o n s site =>
    refine ⟨by simp, .noted s site.deeper o n, rfl, ?_, ?_⟩
    · subst hsite
      simp only [leftLocals, pieceLocals, unionMap_nil, empty_union]
      exact Subset.refl _
    · refine (Notes.name s site.deeper o n).mono ?_
      simp only [pieceLocals, Expr.locals]
      split
      · exact Subset.refl _
      · exact empty_subset _
  | scheduled hattr _ ih =>
    rw [hsite] at hattr
    simpa [hattr] using ih hsite
  | called hcall ih =>
    cases hcall with
    | call hnone =>
      have hsite' : Site.context (Site.deeper _) = c := hsite
      rw [hsite'] at hnone
      simpa [hnone] using ih hsite
  | step hop hstore =>
    subst hsite
    simpa [UnaryOp.isStep, hop, hstore, hh.locals_storeStep hstore] using Staged.none (.refl _) rfl
  | unary hplain _ ih =>
    subst hsite
    rcases hplain with hplain | hplain <;> simpa [UnaryOp.isStep, hplain] using ih rfl
  | operator hskip _ _ _ _ _ hscope hscope' hem hl hr =>
    -- The right side schedules calls and may be skipped.
    obtain ⟨-, hl⟩ := hl hsite
    obtain ⟨-, hr⟩ := hr hsite
    refine ⟨?_, hem, ?_, ?_, ((hl.notes.after hscope).both hr.notes).after hscope'⟩
    · simp only [hsite, Bool.and_eq_true] at hskip
      simp [operatorSteps, hskip]
    · rw [unionMap_append, declared_operatorSteps, hl.bare, hr.bare, union_empty]
    · have := union_subset_union hl.within hr.within
      rw [unionMap_append, locals_operatorSteps]
      simpa [getVar, union_assoc] using this
  | binary hplain _ _ hl hr =>
    rw [hsite] at hplain
    simp only [piecePauses]
    exact Staged.congr ((hl hsite).both (hr hsite)) (and_pauses_binary hplain)
  | choice hskip _ _ _ _ _ _ _ hscope hscope' hscope'' hem he hy hn =>
    -- A side schedules calls, and one of the sides is skipped.
    obtain ⟨-, he⟩ := he hsite
    obtain ⟨-, hy⟩ := hy hsite
    obtain ⟨-, hn⟩ := hn hsite
    refine ⟨?_, hem, ?_, ?_, (he.notes.after hscope).both
      (((hy.notes.after hscope').both hn.notes).after hscope'')⟩
    · simp only [hsite, Bool.and_eq_true, Bool.or_eq_true] at hskip
      rcases hskip with ⟨hcan, hskip | hskip⟩ <;> simp [choiceSteps, hcan, hskip]
    · simp [unionMap_append, declared_choiceSteps, he.bare, hy.bare, hn.bare]
    · have := union_subset_union he.within (union_subset_union hy.within hn.within)
      rw [unionMap_append, locals_choiceSteps]
      simpa [getVar, union_assoc] using this
  | conditional hplain _ _ _ he hy hn =>
    rw [hsite] at hplain
    simp only [piecePauses]
    exact Staged.congr ((he hsite).both ((hy hsite).both (hn hsite)))
      (and_pauses_conditional hplain)
  | write hstore _ _ ih =>
    subst hsite
    simpa [hstore, hh.locals_storeAssign hstore] using ih rfl
  | assign hnone _ _ ht he =>
    subst hsite
    simpa [hnone] using (ht rfl).both (he rfl)
  | @lambda params _ _ _ _ _ _ site _ ih =>
    have hcan : (site.deeper.enterLambda params).canSchedule = false := by
      simp [Site.canSchedule, Site.enterLambda]
    refine (ih hsite).scope hcan params.toFinset fun n hn => ?_
    rcases List.mem_append.1 hn with hn | hn
    · exact .inr (List.mem_toFinset.2 hn)
    · exact .inl hn
  | @block _ _ _ _ _ _ _ _ site body _ hbody _ ih ih' =>
    -- A block binds in its value what its statements declare.
    have hcan := Site.canSchedule_nest site.deeper
    have hvalue := (ih' ((Site.context_afterAll _ body).trans hsite)).scope
      ((Site.canSchedule_afterAll _ body).trans hcan) (unionMap declared body)
      fun n hn => mem_hidden_afterAll hn
    simpa [declared_of_body hbody] using ((ih hsite).both hvalue).nest
  | index _ _ ih ih' | valuesCons _ _ ih ih' | passed _ _ _ ih ih' =>
    simpa using (ih hsite).both (ih' hsite)
  | input _ _ _ ih ih' => simpa [ArgumentValue.slots] using (ih hsite).both (ih' hsite)
  | location _ hstore hhandle hem hscope _ _ ih =>
    rw [hsite] at hstore
    obtain ⟨hfor, hlocals, hpause⟩ := hh.of_namedStore? hstore
    have hunmarked := hh.of_storeFor? hfor
    rw [← hhandle] at hunmarked
    simpa [ArgumentValue.slots, hunmarked, hlocals, hpause] using (ih hsite).before hem hscope
  | copied _ hstore _ hem hscope _ ih =>
    rw [hsite] at hstore
    obtain ⟨-, hlocals, hpause⟩ := hh.of_namedStore? hstore
    simpa [hlocals, hpause] using (ih hsite).before hem hscope
  | send _ hinto hcan _ hresult hem _ hscope ih =>
    obtain ⟨-, hs⟩ := ih hsite
    obtain ⟨hem', hscope', -⟩ := resultLocation_ok hresult
    obtain ⟨hloc, hread⟩ := locals_result hresult fun store h =>
      hh.handle store (hsite ▸ hinto store h)
    refine ⟨by simp [hcan], ?_, ?_, ?_, (hs.notes.after hscope').after hscope⟩
    · simpa using (hs.emits.trans hem').trans hem
    · simp [unionMap_append, hs.bare, invokeNode, Node.ofKind, Node.named, Step.declared]
    · simpa [hread, hloc, unionMap_append, Step.locals, locals_invokeNode] using hs.within
  | call _ _ hargs hcall ih ih' =>
    obtain ⟨hem, hscope, -⟩ := plainCall_ok hcall
    have hwithin := locals_plainCall (locals_copies hh hargs hsite) hcall
    exact (((ih hsite).both (ih' hsite)).after hem hscope).mono hwithin
  | evalCall hcall ih =>
    cases hcall with
    | call hnone =>
      rw [hsite] at hnone
      simpa [hnone] using ih hsite
  | eval _ _ ih => exact ih hsite
  | blockStmt _ _ ih => exact ih hsite
  | branchStmt _ _ _ he hy hn =>
    simpa using (he hsite).both ((hy hsite).nest.both (hn hsite).nest)
  | loop hcan _ _ he hbody =>
    simpa using ((he hsite).unpaused hcan).both (hbody hsite).nest
  | @bodyCons _ _ _ _ _ _ _ site stmt _ hcan hstmt _ ih ih' =>
    have hsite' : (site.after stmt).context = c := by
      rw [← hsite]
      cases stmt <;> rfl
    have hrest := (ih' hsite').scope ((Site.canSchedule_after site stmt).trans hcan) stmt.declared
      fun n hn => mem_hidden_after hn
    simpa [-declared, declared_of_stmt hstmt] using ((ih hsite).unpaused hcan).both hrest
  | branchSome hcan _ ih => exact (ih hsite).unpaused hcan
  | member _ ih | create _ ih | cast _ ih | present _ ih | declare _ ih => simpa using ih hsite

end LowerContext

end Workflow
