import Workflow.Proofs.Semantics.Annotated

/-!
# The stores that names may stand for

At each place of a model program some stores are known by name: those that were declared before it
in its block or in a block around it. The lexical oracle says that an expression stands for a store
only if it is a name under which the store is known at that place.
-/

namespace Workflow

open ModelStmt List

/-- Stores, by their markers, with the names under which they are known. -/
abbrev Known := List (String × Marker)

/-- The scope binds names only to stores that are known under them. -/
def Scope.Within (scope : Scope) (known : Known) : Prop :=
  ∀ name m ty, (name, Binding.store m ty) ∈ scope → (name, m) ∈ known

namespace Scope.Within

variable {scope : Scope} {known : Known}

theorem nil (known : Known) : Within [] known := fun _ _ _ h => by cases h

theorem bind_localVar (h : scope.Within known) (name : String) (ty : Option TypeName) :
    (Scope.bind scope name (.localVar ty)).Within known := by
  intro x m ty' hmem
  rcases mem_cons.1 hmem with heq | hmem
  · cases heq
  · exact h x m ty' hmem

theorem bind_store (h : scope.Within known) (name : String) (m : Marker) (ty : TypeName) :
    (Scope.bind scope name (.store m ty)).Within ((name, m) :: known) := by
  intro x m' ty' hmem
  rcases mem_cons.1 hmem with heq | hmem
  · cases heq
    exact mem_cons_self
  · exact mem_cons_of_mem _ (h x m' ty' hmem)

theorem mem_of_find? (h : scope.Within known)
    (hfind : scope.find? name = some (.store m ty)) : (name, m) ∈ known := by
  obtain ⟨b, hb, heq⟩ := Option.map_eq_some_iff.1 hfind
  have hname : b.1 = name := by simpa using find?_some hb
  refine h name m ty ?_
  rw [← hname, ← heq]
  exact mem_of_find?_eq_some hb

end Scope.Within

def TypeTable.Offers (types : TypeTable) (attr : SchedulingAttribute) : Prop :=
  ∃ entry ∈ types, attr ∈ entry.2.methods.filterMap (·.scheduling)

/-- What may be said: it fits the form, a store is known under its name, and only what a type offers
is scheduled. -/
structure Known.Allows (known : Known) (types : TypeTable) (e : Expr) (symbol : Option Symbol) :
    Prop where
  fits : e.Fits symbol
  store : ∀ m, symbol = some (.store m) → ∃ o name, e = .name o name ∧ (name, m) ∈ known
  offered : ∀ m attr, symbol = some (.method m) → m.scheduling = some attr → types.Offers attr

namespace ScopeContext

variable {c : ScopeContext} {scope : Scope}

theorem offers_of_method? (h : c.method? scope e = some m) (hattr : m.scheduling = some attr) :
    c.types.Offers attr := by
  cases e
  case member o target name =>
    obtain ⟨path, -, h⟩ := Option.bind_eq_some_iff.1 h
    split at h
    · next t ht =>
      obtain ⟨method, hmethod, rfl⟩ := Option.map_eq_some_iff.1 h
      obtain ⟨entry, hentry, rfl⟩ := Option.map_eq_some_iff.1 ht
      exact ⟨entry, mem_of_find?_eq_some hentry,
        mem_filterMap.2 ⟨method, mem_of_find?_eq_some hmethod, hattr⟩⟩
    · cases h
      cases hattr
  all_goals cases h

theorem memberSymbol_ne_method (m : MethodSymbol) : c.memberSymbol scope e ≠ .method m := by
  unfold memberSymbol
  split
  · split <;> simp
  · simp

theorem says_allows (c : ScopeContext) (known : Known) :
    c.Says (·.Within known) (known.Allows c.types) where
  bind _ name ty h := h.bind_localVar name ty
  plain e := ⟨c.says_fits.plain e, by simp, by simp⟩
  name scope o name h := by
    refine ⟨c.says_fits.name scope o name trivial, fun m hm => ⟨o, name, rfl, ?_⟩,
      fun m attr hm => ?_⟩
    all_goals
      unfold inspectName at hm
      split at hm
    · next hfind =>
      cases hm
      exact h.mem_of_find? hfind
    · cases hm
    · split at hm <;> cases hm
    · cases hm
    · cases hm
    · split at hm <;> cases hm
  member scope o target name :=
    ⟨c.says_fits.member scope o target name, fun m h =>
      absurd (Option.some.inj h) (memberSymbol_ne_store m), fun m _ h =>
      absurd (Option.some.inj h) (memberSymbol_ne_method m)⟩
  call scope o callee args := by
    refine ⟨c.says_fits.call scope o callee args, fun m h => ?_, fun m attr h hattr => ?_⟩
    all_goals obtain ⟨_, hm, h⟩ := Option.map_eq_some_iff.1 h
    · cases h
    · cases h
      exact offers_of_method? hm hattr
  callee scope e symbol h := by
    cases hmethod : c.method? scope e with
    | none => exact h
    | some method =>
      refine ⟨hmethod ▸ c.says_fits.callee scope e symbol h.fits, by simp,
        fun m attr hm hattr => ?_⟩
      cases hm
      exact offers_of_method? hmethod hattr

end ScopeContext

/-! ### Places in model programs -/

namespace ModelStmt

def after (known : Known) : ModelStmt → Known
  | .declare (some m) name _ _ _ => (name, m) :: known
  | _ => known

def afterList (known : Known) (ss : List ModelStmt) : Known := ss.foldl after known

mutual
/-- Each piece of marked code in a statement has the property with the stores known at its place. -/
def Scoped (P : Known → MarkedCode → Prop) (known : Known) : ModelStmt → Prop
  | .declare _ _ _ _ init => ∀ code ∈ init.toList.flatMap ModelExpr.fragments, P known code
  | .eval e => ∀ code ∈ e.fragments, P known code
  | .fragment marker body => P known ⟨marker, CodeStmt.nodesList body⟩
  | .block body => ScopedList P known body
  | .forEach marker name _ values body =>
    (∀ code ∈ values.fragments, P known code) ∧ ScopedList P ((name, marker) :: known) body

def ScopedList (P : Known → MarkedCode → Prop) (known : Known) : List ModelStmt → Prop
  | [] => True
  | s :: rest => s.Scoped P known ∧ ScopedList P (s.after known) rest
end

mutual
theorem Scoped.mono {P Q : Known → MarkedCode → Prop} (hPQ : ∀ known code, P known code →
    Q known code) : {s : ModelStmt} → s.Scoped P known → s.Scoped Q known
  | .declare .., h | .eval _, h => by
    rw [Scoped] at h ⊢
    exact fun code hcode => hPQ _ code (h code hcode)
  | .fragment .., h => by
    rw [Scoped] at h ⊢
    exact hPQ _ _ h
  | .block _, h => by
    rw [Scoped] at h ⊢
    exact h.mono hPQ
  | .forEach .., h => by
    rw [Scoped] at h ⊢
    exact ⟨fun code hcode => hPQ _ code (h.1 code hcode), h.2.mono hPQ⟩

theorem ScopedList.mono {P Q : Known → MarkedCode → Prop} (hPQ : ∀ known code, P known code →
    Q known code) : {ss : List ModelStmt} → ScopedList P known ss → ScopedList Q known ss
  | [], _ => trivial
  | _ :: _, h => ⟨h.1.mono hPQ, h.2.mono hPQ⟩
end

variable {P : Known → MarkedCode → Prop}

theorem afterList_append (known : Known) (ss ts : List ModelStmt) :
    afterList known (ss ++ ts) = afterList (afterList known ss) ts := foldl_append

theorem scopedList_append : ScopedList P known (ss ++ ts) ↔
      ScopedList P known ss ∧ ScopedList P (afterList known ss) ts := by
  induction ss generalizing known with
  | nil => simp [ScopedList, afterList]
  | cons s ss ih => simp only [cons_append, ScopedList, ih, and_assoc]; rfl

theorem scopedList_singleton : ScopedList P known [s] ↔ s.Scoped P known := by simp [ScopedList]

end ModelStmt

def ModelMethod.known (m : ModelMethod) : Known :=
  m.parameters.filterMap fun p => p.marker.map (p.name, ·)

def ModelMethod.Scoped (P : Known → MarkedCode → Prop) (m : ModelMethod) : Prop :=
  ∀ body ∈ m.body, ScopedList P m.known body

/-! ### Analysis -/

/-- An answer for marked code says nothing but what the stores known there allow. -/
structure AnnotatedFragment.Names (f : AnnotatedFragment) (types : TypeTable) (known : Known)
    (code : MarkedCode) : Prop where
  marker : f.marker = code.marker
  exprs : ∀ ann ∈ f.exprs,
    ∃ e ∈ code.exprs, e.id = some ann.expr ∧ known.Allows types e ann.symbol

/-- Each answer is for a piece of marked code that has the property. -/
def ModelFindings.Named (types : TypeTable) (P : Known → MarkedCode → Prop)
    (found : ModelFindings) : Prop :=
  ∀ f ∈ found.fragments, ∃ known code, P known code ∧ f.Names types known code

namespace ModelFindings.Named

variable {types : TypeTable} {P : Known → MarkedCode → Prop} {a b : ModelFindings}

theorem append (ha : a.Named types P) (hb : b.Named types P) : (a ++ b).Named types P := by
  intro f hf
  rcases mem_append.1 hf with hf | hf
  · exact ha f hf
  · exact hb f hf

theorem of_nil (h : a.fragments = []) : a.Named types P := by
  intro f hf
  rw [h] at hf
  cases hf

theorem ofCode
    (hP : ∀ m ∈ marker, P known ⟨m, es⟩) (h : Annotates (known.Allows types) es found.annotations) :
    (ModelFindings.ofCode marker found).Named types P := by
  cases marker with
  | none => exact of_nil rfl
  | some m =>
    intro f hf
    rw [mem_singleton.1 hf]
    exact ⟨known, ⟨m, es⟩, hP m rfl, rfl, h.about⟩

end ModelFindings.Named

section Analysis

variable (types : TypeTable) {P : Known → MarkedCode → Prop} {known : Known} {scope : Scope}

theorem analyze_named (hscope : scope.Within known) (e : ModelExpr)
    (h : ∀ code ∈ e.fragments, P known code) : (e.analyze types scope).2.Named types P := by
  refine .ofCode (fun m hm => h _ ?_) (ScopeContext.annotates_close
    ((ScopeContext.says_allows ⟨types, e.marker⟩ known).inspect scope hscope e.expr))
  rw [ModelExpr.fragments, Option.mem_def.1 hm]
  exact mem_singleton_self _

theorem analyzeOption_named (hscope : scope.Within known) (e : Option ModelExpr)
    (h : ∀ code ∈ e.toList.flatMap ModelExpr.fragments, P known code) :
    (ModelExpr.analyzeOption types scope e).2.Named types P := by
  cases e with
  | none => exact .of_nil rfl
  | some e => exact analyze_named types hscope e (by simpa using h)

mutual
/-- The answers for a statement say nothing but what the stores known at their places allow. -/
theorem analyzeStmt_named (known : Known) (scope : Scope) (hscope : scope.Within known) :
    (s : ModelStmt) → s.Scoped P known →
    (s.analyze types scope).1.Within (s.after known) ∧ (s.analyze types scope).2.Named types P
  | .declare marker name ty like init, h => by
    rw [Scoped] at h
    have hinit := analyzeOption_named types hscope init h
    rw [analyze]
    cases marker with
    | none => exact ⟨hscope.bind_localVar _ _, hinit⟩
    | some m => exact ⟨hscope.bind_store _ _ _, hinit.append (.of_nil rfl)⟩
  | .eval e, h => by
    rw [Scoped] at h
    rw [analyze]
    exact ⟨hscope, analyze_named types hscope e h⟩
  | .fragment marker body, h => by
    rw [Scoped] at h
    rw [analyze]
    obtain ⟨hinner, hbody⟩ :=
      (ScopeContext.says_allows { types := types, marker := some marker } known).inspectBody
        scope hscope body
    refine ⟨hinner, .ofCode (fun m hm => ?_) hbody⟩
    cases hm
    exact h
  | .block body, h => by
    rw [Scoped] at h
    rw [analyze]
    exact ⟨hscope, (analyzeList_named known scope hscope body h).2⟩
  | .forEach marker name ty values body, h => by
    rw [Scoped] at h
    rw [analyze]
    have hvalues := analyze_named types hscope values h.1
    exact ⟨hscope, (hvalues.append (.of_nil rfl)).append
      (analyzeList_named _ _ (hscope.bind_store name marker _) body h.2).2⟩

theorem analyzeList_named (known : Known) (scope : Scope) (hscope : scope.Within known) :
    (ss : List ModelStmt) → ScopedList P known ss →
    (analyzeList types scope ss).1.Within (afterList known ss) ∧
      (analyzeList types scope ss).2.Named types P
  | [], _ => by
    rw [analyzeList]
    exact ⟨hscope, .of_nil rfl⟩
  | s :: rest, h => by
    rw [ScopedList] at h
    obtain ⟨hinner, hs⟩ := analyzeStmt_named known scope hscope s h.1
    obtain ⟨hlast, hrest⟩ := analyzeList_named _ _ hinner rest h.2
    rw [analyzeList]
    exact ⟨hlast, hs.append hrest⟩
end

theorem within_parameters (ps : List ModelParameter) (hscope : scope.Within known) :
    (ps.foldl (fun s p => Scope.bind s p.name p.binding) scope).Within
      (known ++ ps.filterMap fun p => p.marker.map (p.name, ·)) := by
  induction ps generalizing known scope with
  | nil => simpa using hscope
  | cons p ps ih =>
    rw [foldl_cons]
    cases hm : p.marker with
    | none =>
      rw [filterMap_cons_none (by rw [hm]; rfl)]
      refine ih ?_
      rw [ModelParameter.binding, hm]
      exact hscope.bind_localVar _ _
    | some m =>
      rw [filterMap_cons_some (b := (p.name, m)) (by rw [hm]; rfl)]
      have hp : (Scope.bind scope p.name p.binding).Within ((p.name, m) :: known) := by
        rw [ModelParameter.binding, hm]
        exact hscope.bind_store _ _ _
      intro name m' ty hmem
      have hknown := ih hp name m' ty hmem
      simp only [mem_append, mem_cons] at hknown ⊢
      tauto

theorem analyzeMethod_named (m : ModelMethod) (h : m.Scoped P) : (m.analyze types).Named types P := by
  unfold ModelMethod.analyze
  cases hbody : m.body with
  | none => exact .of_nil rfl
  | some body =>
    exact (analyzeList_named types m.known _ (within_parameters m.parameters (.nil [])) body
      (h body hbody)).2

end Analysis

/-- The answers of the lexical oracle say nothing but what the stores known at their places
allow. -/
theorem analyzeAll_named
    {P : Known → MarkedCode → Prop} (hunits : ∀ m ∈ ModelUnit.methods units, m.Scoped P)
    (h : ModelUnit.analyzeAll units = .ok answer) :
    ∀ f ∈ answer.fragments, ∃ known code, P known code ∧
      f.Names (TypeTable.ofUnits units) known code := by
  have hfold : ∀ (methods : List ModelMethod) (found : ModelFindings),
      (∀ m ∈ methods, m.Scoped P) → found.Named (TypeTable.ofUnits units) P →
      ((methods.map (ModelMethod.analyze (TypeTable.ofUnits units))).foldl ModelFindings.append
        found).Named (TypeTable.ofUnits units) P := by
    intro methods
    induction methods with
    | nil => exact fun found _ hfound => hfound
    | cons m methods ih =>
      intro found hmethods hfound
      obtain ⟨hm, hmethods⟩ := forall_mem_cons.1 hmethods
      exact ih _ hmethods (hfound.append (analyzeMethod_named _ m hm))
  have hall := hfold (ModelUnit.methods units) {} hunits (.of_nil rfl)
  unfold ModelUnit.analyzeAll at h
  dsimp only at h
  split at h
  · cases h
    exact hall
  · cases h

end Workflow
