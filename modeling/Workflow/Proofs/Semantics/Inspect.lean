import Workflow.Proofs.Arena.Fragments
import Workflow.Semantics.Scope

/-!
# What the lexical analysis says about expressions

The analysis annotates the expressions that it is shown and no others. It says of names only that
they stand for stores, and of calls only that they have a method if what they call spells out a
member of a type.
-/

namespace Workflow

open CodeStmt

variable {e : Expr}

/-- Whether an expression spells out a dotted name. -/
def Expr.isPath : Expr → Bool
  | .name .. => true
  | .member _ target _ => target.isPath
  | _ => false

/-- What is said about an expression fits its form. -/
structure Expr.Fits (e : Expr) (symbol : Option Symbol) : Prop where
  store : ∀ m, symbol = some (.store m) → e.asName.isSome = true
  callee : ∀ o f args m, e = .call o f args → symbol = some (.method m) → f.isPath = true

/-- Each expression with an identity is annotated once, and nothing is said but what may be said. -/
structure Annotates (F : Expr → Option Symbol → Prop) (es : List Expr)
    (anns : List ExprAnnotation) : Prop where
  ids : (↑(anns.map (·.expr)) : Multiset ExprId) = exprIds es
  about : ∀ ann ∈ anns, ∃ e ∈ es, e.id = some ann.expr ∧ F e ann.symbol

theorem Expr.fits_none (e : Expr) : e.Fits none := ⟨by simp, by simp⟩

theorem exprIds_cons (e : Expr) (es : List Expr) :
    exprIds (e :: es) = ↑e.id.toList + exprIds es := by
  unfold exprIds
  cases hid : e.id with
  | none => simp [hid]
  | some id => simp [hid]

namespace Annotates

variable {F : Expr → Option Symbol → Prop} {es fs : List Expr} {as bs : List ExprAnnotation}

theorem nil : Annotates F [] [] := ⟨rfl, by simp⟩

theorem append (h : Annotates F es as) (h' : Annotates F fs bs) :
    Annotates F (es ++ fs) (as ++ bs) where
  ids := by rw [List.map_append, ← Multiset.coe_add, h.ids, h'.ids, exprIds_append]
  about ann hann := by
    rcases List.mem_append.1 hann with hann | hann
    · obtain ⟨e, he, hsaid⟩ := h.about ann hann
      exact ⟨e, List.mem_append_left fs he, hsaid⟩
    · obtain ⟨e, he, hsaid⟩ := h'.about ann hann
      exact ⟨e, List.mem_append_right es he, hsaid⟩

end Annotates

namespace ScopeContext

variable {c : ScopeContext} {scope : Scope} {V : Scope → Prop} {F : Expr → Option Symbol → Prop}

/-- What the analysis says may be said as long as the scope is as required; locals do not change
that. -/
structure Says (c : ScopeContext) (V : Scope → Prop) (F : Expr → Option Symbol → Prop) :
    Prop where
  bind : ∀ scope name ty, V scope → V (Scope.bind scope name (.localVar ty))
  plain : ∀ e, F e none
  name : ∀ scope o name, V scope → F (.name o name) (c.inspectName scope o name).symbol
  member : ∀ scope o target name, F (.member o target name)
    (some (c.memberSymbol scope (.member o target name)))
  call : ∀ scope o callee args, F (.call o callee args) ((c.method? scope callee).map .method)
  callee : ∀ scope e symbol, F e symbol → F e ((c.method? scope e).map .method <|> symbol)

/-- The annotation of an expression comes after those of what is below it. -/
theorem annotates_close {i : Inspection}
    (h : F e i.symbol ∧ Annotates F e.nodes.tail i.below.annotations) :
    Annotates F e.nodes (i.close e).annotations := by
  obtain ⟨hfits, hbelow⟩ := h
  have hnodes : e.nodes = e :: e.nodes.tail := by cases e <;> rw [Expr.nodes] <;> rfl
  rw [hnodes]
  unfold Inspection.close
  split
  case h_1 hid =>
    refine ⟨by rw [hbelow.ids, exprIds_cons, hid]; exact (zero_add _).symm, fun ann hann => ?_⟩
    obtain ⟨f, hf, hsaid⟩ := hbelow.about ann hann
    exact ⟨f, List.mem_cons_of_mem e hf, hsaid⟩
  case h_2 id hid =>
    have hself : Annotates F [e] [⟨id, i.symbol, i.ty⟩] := by
      refine ⟨by rw [exprIds_cons, hid]; rfl, fun ann hann => ?_⟩
      rw [List.mem_singleton.1 hann]
      exact ⟨e, List.mem_singleton_self e, hid, hfits⟩
    have hall := hbelow.append hself
    refine ⟨hall.ids.trans ?_, fun ann hann => ?_⟩
    · rw [exprIds_append, add_comm, ← exprIds_append, List.singleton_append]
    · obtain ⟨f, hf, hsaid⟩ := hall.about ann hann
      exact ⟨f, by simpa [or_comm] using hf, hsaid⟩

theorem isPath_of_typePath? (h : c.typePath? scope e = some path) : e.isPath = true := by
  fun_induction typePath? c scope e generalizing path with
  | case1 => rfl
  | case2 => cases h
  | case3 o target name ih =>
    obtain ⟨inner, hinner, -⟩ := Option.map_eq_some_iff.1 h
    exact ih hinner
  | case4 => cases h

theorem isPath_of_method? (h : c.method? scope e = some m) :
    e.isPath = true ∧ ∀ o f args, e ≠ .call o f args := by
  cases e
  case member o target name =>
    obtain ⟨path, hpath, -⟩ := Option.bind_eq_some_iff.1 h
    exact ⟨isPath_of_typePath? (e := target) hpath, by simp⟩
  all_goals cases h

/-- The callee of a call gets the method of the call, if there is one. -/
theorem fits_callee {f : Expr} (h : f.Fits symbol) :
    f.Fits ((c.method? scope f).map Symbol.method <|> symbol) := by
  cases hm : c.method? scope f with
  | none => exact h
  | some m =>
    refine ⟨fun marker heq => ?_, fun o g args m' hcall _ => ?_⟩
    · simp at heq
    · exact absurd hcall ((isPath_of_method? hm).2 o g args)

theorem memberSymbol_ne_store (m : Marker) : c.memberSymbol scope e ≠ .store m := by
  unfold memberSymbol
  split
  · split <;> simp
  · simp

theorem says_fits (c : ScopeContext) : c.Says (fun _ => True) Expr.Fits where
  bind _ _ _ _ := trivial
  plain := Expr.fits_none
  name _ _ _ _ := ⟨by simp [Expr.asName], by simp⟩
  member _ _ _ _ :=
    ⟨fun m h => absurd (Option.some.inj h) (memberSymbol_ne_store m), fun _ _ _ _ h => by cases h⟩
  call scope o callee args := by
    refine ⟨fun m h => ?_, fun o f as m heq h => ?_⟩
    · obtain ⟨m', -, h⟩ := Option.map_eq_some_iff.1 h
      cases h
    · obtain ⟨m', hm, -⟩ := Option.map_eq_some_iff.1 h
      cases heq
      exact (isPath_of_method? hm).1
  callee _ _ _ h := fits_callee h

theorem annotations_inspectName (o : Origin) (name : String) :
    (c.inspectName scope o name).below.annotations = [] := by
  unfold inspectName
  split
  · rfl
  · rfl
  · split
    · rfl
    · rfl

theorem Says.foldl_bind (hc : c.Says V F) (params : List String) (h : V scope) :
    V (params.foldl (fun s p => Scope.bind s p (.localVar none)) scope) := by
  induction params generalizing scope with
  | nil => exact h
  | cons p params ih => exact ih (hc.bind scope p none h)

mutual
/-- What is said about an expression and below it may be said. -/
theorem Says.inspect (hc : c.Says V F) (scope : Scope) (h : V scope) : (e : Expr) →
    F e (c.inspect scope e).symbol ∧ Annotates F e.nodes.tail (c.inspect scope e).below.annotations
  | .literal o v => by
    rw [ScopeContext.inspect]
    exact ⟨hc.plain _, .nil⟩
  | .name o name => by
    rw [ScopeContext.inspect, Expr.nodes, annotations_inspectName]
    exact ⟨hc.name scope o name h, .nil⟩
  | .member o target name => by
    rw [ScopeContext.inspect, Expr.nodes]
    exact ⟨hc.member scope o target name, annotates_close (hc.inspect scope h target)⟩
  | .call o callee args => by
    rw [ScopeContext.inspect, Expr.nodes]
    obtain ⟨hcallee, hbelow⟩ := hc.inspect scope h callee
    refine ⟨hc.call scope o callee args, ?_⟩
    exact (annotates_close (i := { c.inspect scope callee with
      symbol := (c.method? scope callee).map Symbol.method <|> (c.inspect scope callee).symbol })
      ⟨hc.callee scope callee _ hcallee, hbelow⟩).append (hc.inspectArgs scope h args)
  | .create o ty args => by
    rw [ScopeContext.inspect, Expr.nodes]
    exact ⟨hc.plain _, hc.inspectArgs scope h args⟩
  | .unary _ _ e | .cast _ _ e => by
    rw [ScopeContext.inspect, Expr.nodes]
    exact ⟨hc.plain _, annotates_close (hc.inspect scope h e)⟩
  | .binary _ _ l r | .assign _ _ l r | .index _ l r => by
    rw [ScopeContext.inspect, Expr.nodes]
    exact ⟨hc.plain _, (annotates_close (hc.inspect scope h l)).append
      (annotates_close (hc.inspect scope h r))⟩
  | .conditional o e y n => by
    rw [ScopeContext.inspect, Expr.nodes]
    refine ⟨hc.plain _, ?_⟩
    rw [List.tail_cons, ← List.append_assoc]
    exact ((annotates_close (hc.inspect scope h e)).append
      (annotates_close (hc.inspect scope h y))).append (annotates_close (hc.inspect scope h n))
  | .lambda o params body => by
    rw [ScopeContext.inspect, Expr.nodes]
    exact ⟨hc.plain _, annotates_close (hc.inspect _ (hc.foldl_bind params h) body)⟩
  | .block o body value => by
    rw [ScopeContext.inspect, Expr.nodes]
    obtain ⟨hinner, hbody⟩ := hc.inspectBody scope h body
    exact ⟨hc.plain _, hbody.append (hc.inspectOption _ hinner value)⟩

theorem Says.inspectArgs (hc : c.Says V F) (scope : Scope) (h : V scope) : (args : List Argument) →
    Annotates F (Argument.nodesList args) (c.inspectArgs scope args).annotations
  | [] => by
    rw [ScopeContext.inspectArgs]
    exact .nil
  | .mk d e :: rest => by
    rw [ScopeContext.inspectArgs, Argument.nodesList]
    exact (annotates_close (hc.inspect scope h e)).append (hc.inspectArgs scope h rest)

theorem Says.inspectOption (hc : c.Says V F) (scope : Scope) (h : V scope) : (e : Option Expr) →
    Annotates F (Expr.nodesOpt e) (c.inspectOption scope e).2.annotations
  | none => by
    rw [ScopeContext.inspectOption]
    exact .nil
  | some e => by
    rw [ScopeContext.inspectOption, Expr.nodesOpt]
    exact annotates_close (hc.inspect scope h e)

theorem Says.inspectStmt (hc : c.Says V F) (scope : Scope) (h : V scope) : (stmt : CodeStmt) →
    V (c.inspectStmt scope stmt).1 ∧ Annotates F stmt.nodes (c.inspectStmt scope stmt).2.annotations
  | .eval e => by
    rw [ScopeContext.inspectStmt, nodes]
    exact ⟨h, annotates_close (hc.inspect scope h e)⟩
  | .declare name ty init span => by
    rw [ScopeContext.inspectStmt, nodes]
    exact ⟨hc.bind scope name _ h, hc.inspectOption scope h init⟩
  | .block body => by
    rw [ScopeContext.inspectStmt, nodes]
    exact ⟨h, (hc.inspectBody scope h body).2⟩
  | .branch e y n => by
    rw [ScopeContext.inspectStmt, nodes, ← List.append_assoc]
    exact ⟨h, ((annotates_close (hc.inspect scope h e)).append
      (hc.inspectStmt scope h y).2).append (hc.inspectElse scope h n)⟩
  | .loop e body => by
    rw [ScopeContext.inspectStmt, nodes]
    exact ⟨h, (annotates_close (hc.inspect scope h e)).append (hc.inspectStmt scope h body).2⟩

theorem Says.inspectElse (hc : c.Says V F) (scope : Scope) (h : V scope) : (n : Option CodeStmt) →
    Annotates F (nodesOpt n) (c.inspectElse scope n).annotations
  | none => by
    rw [ScopeContext.inspectElse]
    exact .nil
  | some stmt => by
    rw [ScopeContext.inspectElse, nodesOpt]
    exact (hc.inspectStmt scope h stmt).2

theorem Says.inspectBody (hc : c.Says V F) (scope : Scope) (h : V scope) : (body : List CodeStmt) →
    V (c.inspectBody scope body).1 ∧
      Annotates F (nodesList body) (c.inspectBody scope body).2.annotations
  | [] => by
    rw [ScopeContext.inspectBody]
    exact ⟨h, .nil⟩
  | stmt :: rest => by
    obtain ⟨hinner, hstmt⟩ := hc.inspectStmt scope h stmt
    obtain ⟨hlast, hrest⟩ := hc.inspectBody _ hinner rest
    rw [ScopeContext.inspectBody, nodesList]
    exact ⟨hlast, hstmt.append hrest⟩
end

end ScopeContext

end Workflow
