import Mathlib.Algebra.BigOperators.Group.Finset.Basic
import Mathlib.Data.Finset.Interval
import Mathlib.Order.Interval.Finset.Nat
import Workflow.Model.Emit
import Workflow.Proofs.Arena.Chain

/-!
# The embedded code of an activity

The tokens of a statement: the identities of its expressions, the markers of its fragments, and the
store that it gives its first value. Numbering gives the expressions of a tree the identities after
the last one, in the order of the walk, each once.
-/

namespace Workflow

open CodeStmt List

variable {es fs : List Expr}

theorem Expr.mem_nodes_self (e : Expr) : e ∈ e.nodes := by
  cases e <;> simp [Expr.nodes]

theorem CodeStmt.nodesList_append (as bs : List CodeStmt) :
    nodesList (as ++ bs) = nodesList as ++ nodesList bs := by
  induction as with
  | nil => rfl
  | cons a as ih => simp [nodesList, ih]

def ServiceOperation.slots (op : ServiceOperation) : List Fragment :=
  op.content.toList.flatMap Content.fragments ++ op.correlatesWith.toList ++ op.endpoint.toList

namespace StmtKind

def slots : StmtKind → List Fragment
  | .conditional condition _ _ => [condition]
  | .loop condition _ _ => [condition]
  | .switch value cases _ => value :: cases.map (·.key)
  | .raise exception => exception.toList
  | .forEach _ values _ _ completion => values :: completion.toList
  | .delay duration => [duration]
  | .parallel _ completion => completion.toList
  | .transitionBody condition _ _ => condition.toList
  | .flowIf _ condition _ _ => [condition]
  | .flowSwitch _ value cases _ => value :: cases.map (·.key)
  | .transacted _ timeout => timeout.toList
  | .confirm target => target.toList
  | .compensate target => target.toList
  | .terminate reason exception => reason.toList ++ exception.toList
  | .service op => op.slots
  | .contentCorrelation handle data => handle :: data.map (·.value)
  | _ => []

def body : StmtKind → List CodeStmt
  | .code fragment _ _ => fragment.body
  | _ => []

def chained : StmtKind → Option StmtId
  | .code _ next _ => next
  | _ => none

def parts : StmtKind → List StmtId × List StmtTag
  | .guarded _ handlers _ => (handlers, [.handler])
  | .pick branches => (branches, [.pickBranch])
  | .stateMachine states _ _ => (states, [.state])
  | .state _ _ _ _ transitions => (transitions, [.transition])
  | .transition _ bodies => (bodies, [.transitionBody])
  | .flow nodes _ => (nodes, [.flowStep, .flowIf, .flowSwitch])
  | _ => ([], [])

def request : StmtKind → Option StmtId
  | .transactedReceive request _ => some request
  | _ => none

def isReceive : StmtKind → Bool
  | .service op => op.kind == .receive
  | _ => false

def nodes : StmtKind → List StmtId
  | .stateMachine states _ _ => states
  | .flow nodes _ => nodes
  | _ => []

/-- Whether there is a handler or a final part, no way out of a final state, and a body of a
transition. -/
def isComplete : StmtKind → Bool
  | .guarded _ handlers final => !handlers.isEmpty || final.isSome
  | .state _ isFinal _ exit transitions => !isFinal || exit.isNone && transitions.isEmpty
  | .transition _ bodies => !bodies.isEmpty
  | _ => true

/-- What rules about a statement and those around it look at. -/
def face (k : StmtKind) : Option String × Bool × Option StmtId × Bool × List StmtId :=
  (k.nodeName, k.isReceive, k.request, k.isComplete, k.nodes)

def item : StmtKind → Option StoreId
  | .forEach item _ _ _ _ => some item
  | _ => none

def storeRefs : StmtKind → List StoreId
  | .code _ _ initializes => initializes.toList
  | .handler _ caught _ => caught.toList
  | .forEach item _ _ _ _ => [item]
  | .compensable _ token _ _ _ => token.toList
  | _ => []

theorem parts_subset (k : StmtKind) : ∀ m ∈ k.parts.1, m ∈ k.children := by
  cases k <;> simp +contextual [parts, children]

theorem request_subset (k : StmtKind) : ∀ m ∈ k.request, m ∈ k.children := by
  cases k <;> simp +contextual [request, children]

theorem nodes_subset (k : StmtKind) : ∀ m ∈ k.nodes, m ∈ k.children := by
  cases k <;> simp +contextual [nodes, children]

def exprs (k : StmtKind) : List Expr :=
  nodesList k.body ++ k.slots.flatMap (·.expr.nodes)

end StmtKind

def Activity.exprs (a : Activity) : List Expr :=
  (range a.stmts.size).flatMap fun i => (a.kind i).exprs

def exprIds (es : List Expr) : Multiset ExprId := ↑(es.filterMap Expr.id)

section ExprIds

@[simp]
theorem exprIds_nil : exprIds [] = 0 := rfl

@[simp]
theorem exprIds_append (es fs : List Expr) : exprIds (es ++ fs) = exprIds es + exprIds fs := by
  simp [exprIds, filterMap_append]

theorem exprIds_perm (h : es.Perm fs) : exprIds es = exprIds fs :=
  Multiset.coe_eq_coe.2 (h.filterMap Expr.id)

theorem eq_of_nodup_filterMap {α β : Type} {f : α → Option β} {xs : List α}
    (h : (xs.filterMap f).Nodup) {x y : α} {v : β} (hx : x ∈ xs) (hy : y ∈ xs)
    (hfx : f x = some v) (hfy : f y = some v) : x = y := by
  induction xs with
  | nil => cases hx
  | cons z rest ih =>
    have hrest : (rest.filterMap f).Nodup :=
      h.sublist ((sublist_cons_self z rest).filterMap f)
    have hnot : ∀ w ∈ rest, f w = some v → f z ≠ some v := by
      intro w hw hfw hfz
      rw [filterMap_cons_some hfz] at h
      exact (nodup_cons.1 h).1 (mem_filterMap.2 ⟨w, hw, hfw⟩)
    rcases mem_cons.1 hx with rfl | hx' <;> rcases mem_cons.1 hy with rfl | hy'
    · rfl
    · exact absurd hfx (hnot y hy' hfy)
    · exact absurd hfy (hnot x hx' hfx)
    · exact ih hrest hx' hy'

theorem eq_of_exprIds_nodup (h : (exprIds es).Nodup) (he : e ∈ es)
    (hf : f ∈ es) (hid : e.id = some n) (hid' : f.id = some n) : e = f :=
  eq_of_nodup_filterMap (Multiset.coe_nodup.1 h) he hf hid hid'

end ExprIds

/-! ### Tokens -/

/-- What is given out while an activity is built: identities, markers, and stores that are declared
together with their first value. -/
abbrev Tokens := Multiset ExprId × Multiset Marker × Multiset StoreId

def Fragment.tokens (f : Fragment) : Tokens := (exprIds f.expr.nodes, {f.marker}, 0)

namespace StmtKind

def declares : StmtKind → Option StoreId
  | .code fragment _ initializes => (Emit.assignedValue fragment.body).bind fun _ => initializes
  | _ => none

def codeMarker : StmtKind → Option Marker
  | .code fragment _ _ => some fragment.marker
  | _ => none

def codeTokens : StmtKind → Tokens
  | .code fragment next initializes => (exprIds (nodesList fragment.body),
      {fragment.marker}, ↑(declares (.code fragment next initializes)).toList)
  | _ => 0

def tokens (k : StmtKind) : Tokens := k.codeTokens + (k.slots.map Fragment.tokens).sum

theorem tokens_eq (k : StmtKind) : k.tokens =
    (exprIds k.exprs, ↑(k.codeMarker.toList ++ k.slots.map Fragment.marker), ↑k.declares.toList) := by
  have hslots : ∀ fs : List Fragment, (fs.map Fragment.tokens).sum =
      (exprIds (fs.flatMap (·.expr.nodes)), ↑(fs.map Fragment.marker), 0) := by
    intro fs
    induction fs with
    | nil => rfl
    | cons f fs ih =>
      rw [map_cons, sum_cons, ih, flatMap_cons, exprIds_append]
      rfl
  have hcode : k.codeTokens =
      (exprIds (nodesList k.body), ↑k.codeMarker.toList, ↑k.declares.toList) := by
    cases k <;> rfl
  rw [tokens, hcode, hslots, exprs, exprIds_append]
  simp

theorem declares_congr {k k' : StmtKind} (h : k.tokens = k'.tokens) : k.declares = k'.declares := by
  rw [tokens_eq, tokens_eq, Prod.mk.injEq, Prod.mk.injEq, Multiset.coe_eq_coe, Multiset.coe_eq_coe]
    at h
  have hperm := h.2.2
  revert hperm
  cases k.declares <;> cases k'.declares <;> simp

end StmtKind

/-! ### Numbering -/

def idsAfter (last : Nat) (es : List Expr) : List (Option ExprId) :=
  (range' (last + 1) es.length).map some

theorem idsAfter_append (last : Nat) (es fs : List Expr) :
    idsAfter last (es ++ fs) = idsAfter last es ++ idsAfter (last + es.length) fs := by
  rw [idsAfter, idsAfter, idsAfter, ← map_append, length_append, ← range'_append_1]
  congr 3
  omega

theorem idsAfter_cons (last : Nat) (e : Expr) (es : List Expr) :
    idsAfter last (e :: es) = some (last + 1) :: idsAfter (last + 1) es := rfl

section Numbering

/-- A tree with the expressions `es` is renumbered to one with the expressions `fs`. -/
def Numbered (last : Nat) (es fs : List Expr) (next : Nat) : Prop :=
  fs.map Expr.id = idsAfter last es ∧ fs.length = es.length ∧ next = last + es.length

variable {last next last' : Nat} {es fs es' fs' : List Expr}

theorem Numbered.nil (last : Nat) : Numbered last [] [] last := ⟨rfl, rfl, rfl⟩

theorem Numbered.append (h : Numbered last es fs next) (h' : Numbered next es' fs' last') :
    Numbered last (es ++ es') (fs ++ fs') last' := by
  obtain ⟨hids, hlen, rfl⟩ := h
  obtain ⟨hids', hlen', rfl⟩ := h'
  refine ⟨?_, ?_, ?_⟩
  · rw [map_append, idsAfter_append, hids, hids']
  · rw [length_append, length_append, hlen, hlen']
  · rw [length_append, Nat.add_assoc]

theorem Numbered.cons {e f : Expr} (hid : f.id = some (last + 1))
    (h : Numbered (last + 1) es fs next) : Numbered last (e :: es) (f :: fs) next := by
  obtain ⟨hids, hlen, rfl⟩ := h
  refine ⟨?_, ?_, ?_⟩
  · rw [map_cons, idsAfter_cons, hid, hids]
  · rw [length_cons, length_cons, hlen]
  · rw [length_cons]
    omega

attribute [local simp] Expr.nodes Expr.mapOrigins Expr.id Expr.origin Origin.number

mutual
theorem Expr.numbered (last : Nat) : (e : Expr) →
    Numbered last e.nodes (e.mapOrigins Origin.number last).1.nodes
      (e.mapOrigins Origin.number last).2
  | .literal .. | .name .. => by
    simpa using Numbered.cons (by simp) (.nil _)
  | .member _ e _ | .unary _ _ e | .lambda _ _ e | .cast _ _ e => by
    simpa using Numbered.cons (by simp) (e.numbered (last + 1))
  | .call _ c args => by
    simpa using Numbered.cons (by simp) ((c.numbered (last + 1)).append (Argument.numbered _ args))
  | .create _ _ args => by
    simpa using Numbered.cons (by simp) (Argument.numbered (last + 1) args)
  | .binary _ _ l r | .assign _ _ l r | .index _ l r => by
    simpa using Numbered.cons (by simp) ((l.numbered (last + 1)).append (r.numbered _))
  | .conditional _ c y n => by
    simpa using Numbered.cons (by simp)
      ((c.numbered (last + 1)).append ((y.numbered _).append (n.numbered _)))
  | .block _ b v => by
    simpa using Numbered.cons (by simp)
      ((CodeStmt.numberedList (last + 1) b).append (Expr.numberedOpt _ v))

theorem Argument.numbered (last : Nat) : (args : List Argument) →
    Numbered last (Argument.nodesList args) (Argument.nodesList
      (Argument.mapOriginsList Origin.number last args).1)
      (Argument.mapOriginsList Origin.number last args).2
  | [] => by simpa [Argument.nodesList, Argument.mapOriginsList] using Numbered.nil last
  | .mk _ e :: rest => by
    simpa [Argument.nodesList, Argument.mapOriginsList] using
      (e.numbered last).append (Argument.numbered _ rest)

theorem CodeStmt.numbered (last : Nat) : (s : CodeStmt) →
    Numbered last s.nodes (s.mapOrigins Origin.number last).1.nodes
      (s.mapOrigins Origin.number last).2
  | .eval e => by simpa [nodes, mapOrigins] using e.numbered last
  | .declare _ _ init _ => by
    simpa [nodes, mapOrigins] using Expr.numberedOpt last init
  | .block b => by
    simpa [CodeStmt.nodes, CodeStmt.mapOrigins] using CodeStmt.numberedList last b
  | .branch c y n => by
    simpa [nodes, mapOrigins] using
      (c.numbered last).append ((y.numbered _).append (CodeStmt.numberedOpt _ n))
  | .loop c b => by
    simpa [nodes, mapOrigins] using (c.numbered last).append (b.numbered _)

theorem CodeStmt.numberedList (last : Nat) : (body : List CodeStmt) →
    Numbered last (nodesList body) (nodesList (mapOriginsList Origin.number last body).1)
      (mapOriginsList Origin.number last body).2
  | [] => by simpa [nodesList, mapOriginsList] using Numbered.nil last
  | s :: rest => by
    simpa [nodesList, mapOriginsList] using
      (s.numbered last).append (CodeStmt.numberedList _ rest)

theorem Expr.numberedOpt (last : Nat) : (e : Option Expr) →
    Numbered last (Expr.nodesOpt e) (Expr.nodesOpt (Expr.mapOriginsOpt Origin.number last e).1)
      (Expr.mapOriginsOpt Origin.number last e).2
  | none => by simpa [Expr.nodesOpt, Expr.mapOriginsOpt] using Numbered.nil last
  | some e => by simpa [Expr.nodesOpt, Expr.mapOriginsOpt] using e.numbered last

theorem CodeStmt.numberedOpt (last : Nat) : (s : Option CodeStmt) → Numbered last (nodesOpt s)
      (nodesOpt (mapOriginsOpt Origin.number last s).1)
      (mapOriginsOpt Origin.number last s).2
  | none => by simpa [nodesOpt, mapOriginsOpt] using Numbered.nil last
  | some s => by simpa [nodesOpt, mapOriginsOpt] using s.numbered last
end

end Numbering

section InUnit

variable (f : Unit → Origin → Origin × Unit)

attribute [local simp] Expr.nodes Expr.mapOrigins Argument.nodesList Argument.mapOriginsList
  nodes mapOrigins nodesList mapOriginsList Expr.nodesOpt
  Expr.mapOriginsOpt nodesOpt mapOriginsOpt Expr.origin

mutual
theorem Expr.origins_mapOrigins : (e : Expr) →
    (e.mapOrigins f ()).1.nodes.map Expr.origin = e.nodes.map fun n => (f () n.origin).1
  | .literal .. | .name .. => by simp
  | .member _ e _ | .unary _ _ e | .lambda _ _ e | .cast _ _ e => by simp [e.origins_mapOrigins]
  | .call _ c args => by simp [c.origins_mapOrigins, Argument.origins_mapOriginsList args]
  | .create _ _ args => by simp [Argument.origins_mapOriginsList args]
  | .binary _ _ l r | .assign _ _ l r | .index _ l r => by
    simp [l.origins_mapOrigins, r.origins_mapOrigins]
  | .conditional _ c y n => by
    simp [c.origins_mapOrigins, y.origins_mapOrigins, n.origins_mapOrigins]
  | .block _ b v => by simp [CodeStmt.origins_mapOriginsList b, Expr.origins_mapOriginsOpt v]

theorem Argument.origins_mapOriginsList : (args : List Argument) →
    (Argument.nodesList (Argument.mapOriginsList f () args).1).map Expr.origin =
      (Argument.nodesList args).map fun n => (f () n.origin).1
  | [] => by simp
  | .mk _ e :: rest => by simp [e.origins_mapOrigins, Argument.origins_mapOriginsList rest]

theorem CodeStmt.origins_mapOrigins : (s : CodeStmt) →
    (s.mapOrigins f ()).1.nodes.map Expr.origin = s.nodes.map fun n => (f () n.origin).1
  | .eval e => by simp [e.origins_mapOrigins]
  | .declare _ _ init _ => by simp [Expr.origins_mapOriginsOpt init]
  | .block b => by simp [CodeStmt.origins_mapOriginsList b]
  | .branch c y n => by
    simp [c.origins_mapOrigins, y.origins_mapOrigins, CodeStmt.origins_mapOriginsOpt n]
  | .loop c b => by simp [c.origins_mapOrigins, b.origins_mapOrigins]

theorem CodeStmt.origins_mapOriginsList : (body : List CodeStmt) →
    (nodesList (mapOriginsList f () body).1).map Expr.origin =
      (nodesList body).map fun n => (f () n.origin).1
  | [] => by simp
  | s :: rest => by simp [s.origins_mapOrigins, CodeStmt.origins_mapOriginsList rest]

theorem Expr.origins_mapOriginsOpt : (e : Option Expr) →
    (Expr.nodesOpt (Expr.mapOriginsOpt f () e).1).map Expr.origin =
      (Expr.nodesOpt e).map fun n => (f () n.origin).1
  | none => by simp
  | some e => by simp [e.origins_mapOrigins]

theorem CodeStmt.origins_mapOriginsOpt : (s : Option CodeStmt) →
    (nodesOpt (mapOriginsOpt f () s).1).map Expr.origin =
      (nodesOpt s).map fun n => (f () n.origin).1
  | none => by simp
  | some s => by simp [s.origins_mapOrigins]
end

theorem ids_of_origins (h : fs.map Expr.origin = es.map fun n => n.origin.inUnit unit) :
    fs.map Expr.id = es.map Expr.id := by
  have hids := congrArg (map Origin.id) h
  rwa [map_map, map_map] at hids

theorem unit_of_origins (h : fs.map Expr.origin = es.map fun n => n.origin.inUnit unit) :
    ∀ e ∈ fs, e.span.unit = unit := by
  intro e he
  have hmem : e.origin ∈ es.map fun n => n.origin.inUnit unit := h ▸ mem_map_of_mem he
  obtain ⟨n, -, hn⟩ := mem_map.1 hmem
  rw [Expr.span, ← hn]
  rfl

variable (unit : Nat)

theorem Expr.origins_inUnit (e : Expr) :
    (e.inUnit unit).nodes.map Expr.origin = e.nodes.map fun n => n.origin.inUnit unit :=
  e.origins_mapOrigins fun _ o => (o.inUnit unit, ())

theorem CodeStmt.origins_inUnitList (body : List CodeStmt) :
    (nodesList (inUnitList unit body)).map Expr.origin =
      (nodesList body).map fun n => n.origin.inUnit unit :=
  origins_mapOriginsList (fun _ o => (o.inUnit unit, ())) body

end InUnit

/-- Identities in the order of the walk are the ones after the last. -/
theorem exprIds_of_map (h : es.map Expr.id = idsAfter last fs) :
    exprIds es = (Finset.Ioc last (last + fs.length)).val := by
  have hids : es.filterMap Expr.id = range' (last + 1) fs.length := by
    have : es.filterMap Expr.id = (es.map Expr.id).filterMap id := by
      rw [filterMap_map]
      rfl
    rw [this, h, idsAfter, filterMap_map]
    exact filterMap_some
  have hnodup : (exprIds es).Nodup := by
    rw [exprIds, hids]
    exact Multiset.coe_nodup.2 nodup_range'
  refine (Multiset.Nodup.ext hnodup (Finset.nodup _)).2 fun (n : Nat) => ?_
  rw [exprIds, hids, Multiset.mem_coe, mem_range'_1, Finset.mem_val, Finset.mem_Ioc]
  change last + 1 ≤ n ∧ n < last + 1 + fs.length ↔ last < n ∧ n ≤ last + fs.length
  omega

theorem exprIds_number (last unit : Nat) (e : Expr) :
    exprIds ((e.number last).1.inUnit unit).nodes =
        (Finset.Ioc last (e.number last).2).val ∧ last ≤ (e.number last).2 := by
  obtain ⟨hids, -, hnext⟩ := e.numbered last
  rw [← ids_of_origins (Expr.origins_inUnit unit _)] at hids
  rw [Expr.number, hnext]
  exact ⟨exprIds_of_map hids, Nat.le_add_right _ _⟩

theorem exprIds_numberList (last unit : Nat) (body : List CodeStmt) :
    exprIds (nodesList (inUnitList unit (numberList last body).1)) =
        (Finset.Ioc last (numberList last body).2).val ∧
      last ≤ (numberList last body).2 := by
  obtain ⟨hids, -, hnext⟩ := numberedList last body
  rw [← ids_of_origins (origins_inUnitList unit _)] at hids
  rw [numberList, hnext]
  exact ⟨exprIds_of_map hids, Nat.le_add_right _ _⟩

end Workflow
