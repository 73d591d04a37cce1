import Workflow.Proofs.Build.Total
import Workflow.Proofs.Semantics.Annotated

/-!
# What the statements of a model program hold

The emission of a statement puts its own fragments into the model program, and the declarations of
the stores that it hosts or gives their first value. It notes the markers of all of these and no
others, and it keeps every invariant of the emission.
-/

namespace Workflow

open StmtKind List Store

variable {f : Fragment} {initializes : Option StoreId}

/-- Marked code, stores that are declared, and stores that are parameters. -/
abbrev Holding := Multiset MarkedCode × Multiset Store × Multiset Store

def MarkedCode.holding (code : MarkedCode) : Holding := ({code}, 0, 0)

def Store.holding (st : Store) : Holding := (0, {st}, 0)

def Fragment.marked (f : Fragment) : MarkedCode := ⟨f.marker, f.expr.nodes⟩

/-- The code that a model program shows: of a first value only the value, and an endpoint only if
the operation sends. -/
def StmtKind.fragments : StmtKind → List MarkedCode
  | .code f _ initializes => [⟨f.marker, shownCode initializes f.body⟩]
  | .service op => (op.content.toList.flatMap Content.fragments ++ op.correlatesWith.toList ++
      if op.kind == .send then op.endpoint.toList else []).map Fragment.marked
  | kind => kind.slots.map Fragment.marked

theorem StmtKind.shown_eq (k : StmtKind) : k.shown = k.fragments.flatMap (·.exprs) := by
  cases k <;> simp [shown, fragments, Fragment.marked, flatMap_map]

namespace Activity

def plain (a : Activity) (ids : List StoreId) : List StoreId :=
  ids.filter fun id => !(a.stores[id]?).any (·.initialized)

def declaredAt (a : Activity) (id : StmtId) : List StoreId :=
  match a.kind id with
  | .forEach item _ _ _ _ => item :: a.plain ((a.storesOf id).filter (· != item))
  | kind => kind.declares.toList ++ if kind.tag.isStoreHost then a.plain (a.storesOf id) else []

def holdingOf (a : Activity) (id : StoreId) : Holding :=
  ((a.stores[id]?).toList.map holding).sum

def heldAt (a : Activity) (id : StmtId) : Holding :=
  ((a.kind id).fragments.map MarkedCode.holding).sum + ((a.declaredAt id).map a.holdingOf).sum

end Activity

/-! ### Markers -/

namespace Marking

/-- Something was emitted: its markers were noted, and no others. -/
structure Notes (m m' : Marking) (held : Holding) : Prop where
  fragments : ∀ k, k ∈ m'.fragments ↔ k ∈ m.fragments ∨ ∃ code ∈ held.1, code.marker = k
  inferred : ∀ k, k ∈ m'.inferred ↔
    k ∈ m.inferred ∨ ∃ st ∈ held.2.1, st.ty.isInferred = true ∧ st.marker = k
  places : ∀ k, (m'.span? k).isSome = true ↔ (m.span? k).isSome = true ∨
    (∃ code ∈ held.1, code.marker = k) ∨ (∃ st ∈ held.2.1, st.marker = k) ∨
      ∃ st ∈ held.2.2, st.marker = k

theorem Notes.refl (m : Marking) : Notes m m 0 := ⟨by simp, by simp, by simp⟩

theorem Notes.trans (h : Notes m m' held)
    (h' : Notes m' m'' held') : Notes m m'' (held + held') where
  fragments k := by
    rw [h'.fragments, h.fragments]
    simp only [Prod.fst_add, Multiset.mem_add, or_and_right, exists_or, or_assoc]
  inferred k := by
    rw [h'.inferred, h.inferred]
    simp only [Prod.fst_add, Prod.snd_add, Multiset.mem_add, or_and_right, exists_or, or_assoc]
  places k := by
    rw [h'.places, h.places]
    simp only [Prod.fst_add, Prod.snd_add, Multiset.mem_add, or_and_right, exists_or]
    grind

theorem isSome_find?_insertSpan {m k : Marker} {span : Span} {l : List (Marker × Span)} :
    ((insertSpan m span l).find? (·.1 == k)).isSome = true ↔
      (l.find? (·.1 == k)).isSome = true ∨ m = k := by
  induction l with
  | nil => simp [insertSpan]
  | cons p rest ih =>
    unfold insertSpan
    simp only [find?_isSome, mem_cons, exists_eq_or_imp, beq_iff_eq] at ih ⊢
    split
    · simp only [mem_cons, exists_eq_or_imp]
      exact or_comm
    · split
      · next heq =>
        simp only [mem_cons, exists_eq_or_imp, heq]
        exact (or_iff_left_of_imp Or.inl).symm
      · simp only [mem_cons, exists_eq_or_imp, ih]
        exact or_assoc.symm

theorem notes_addFragment (t : Marking) (span : Span) (es : List Expr) :
    t.Notes (t.addFragment m span) (MarkedCode.mk m es).holding where
  fragments k := by simp [addFragment, MarkedCode.holding, eq_comm (a := k), or_comm]
  inferred k := by simp [addFragment, MarkedCode.holding]
  places k := by
    rw [span?, Option.isSome_map, addFragment, isSome_find?_insertSpan, span?, Option.isSome_map]
    simp [MarkedCode.holding]

theorem notes_addStorePlace (t : Marking) (st : Store) :
    t.Notes (t.addStorePlace st) (0, 0, {st}) where
  fragments k := by simp [addStorePlace]
  inferred k := by simp [addStorePlace]
  places k := by
    rw [span?, Option.isSome_map, addStorePlace, isSome_find?_insertSpan, span?, Option.isSome_map]
    simp

theorem notes_addStore (t : Marking) (st : Store) : t.Notes (t.addStore st) st.holding where
  fragments k := by
    unfold addStore
    split <;> simp [addStorePlace, holding]
  inferred k := by
    unfold addStore
    split
    · next h => simp [addStorePlace, holding, h, eq_comm (a := k), or_comm]
    · next h => simp [addStorePlace, holding, h]
  places k := by
    have hspans : (t.addStore st).spans = insertSpan st.marker st.span t.spans := by
      unfold addStore
      split <;> rfl
    rw [span?, Option.isSome_map, hspans, isSome_find?_insertSpan, span?, Option.isSome_map]
    simp [holding]

end Marking

/-! ### Steps of the emission -/

namespace Emit

/-- From `s` to `t` the statements were emitted. They hold what is said and have the property. -/
structure Emitted (R : List ModelStmt → Prop) (s t : EmitState) (ss : List ModelStmt)
    (held : Holding) : Prop where
  fragments : (↑(ModelStmt.fragmentsList ss) : Multiset MarkedCode) = held.1
  declared : (↑(ModelStmt.declaredList ss) : Multiset Marker) = held.2.1.map marker
  notes : s.marking.Notes t.marking held
  keeps : R ss

namespace Emitted

variable {R R' : List ModelStmt → Prop} {s t u : EmitState} {ss ts : List ModelStmt}
  {held held' : Holding} {m : Marker} {e : Expr} {st : Store}

theorem append (happend : R ss → R ts → R (ss ++ ts)) (h : Emitted R s t ss held)
    (h' : Emitted R t u ts held') : Emitted R s u (ss ++ ts) (held + held') where
  fragments := by
    rw [ModelStmt.fragmentsList_append, ← Multiset.coe_add, h.fragments, h'.fragments]
    rfl
  declared := by
    rw [ModelStmt.declaredList_append, ← Multiset.coe_add, h.declared, h'.declared,
      ← Multiset.map_add]
    rfl
  notes := h.notes.trans h'.notes
  keeps := happend h.keeps h'.keeps

theorem block (h : Emitted R s t ss held) (hR : R' [.block ss]) :
    Emitted R' s t [.block ss] held where
  fragments := by
    rw [ModelStmt.fragmentsList, ModelStmt.fragments, ModelStmt.fragmentsList, append_nil]
    exact h.fragments
  declared := by
    rw [ModelStmt.declaredList, ModelStmt.declared, ModelStmt.declaredList, append_nil]
    exact h.declared
  notes := h.notes
  keeps := hR

theorem temp {name : String} {ty : TypeName} {like : Option String}
    (h : s.marking.Notes t.marking (MarkedCode.mk m e.nodes).holding)
    (hR : R [.declare none name ty like (some (.ofFragment m e))]) :
    Emitted R s t [.declare none name ty like (some (.ofFragment m e))]
      (MarkedCode.mk m e.nodes).holding where
  fragments := by
    simp [ModelStmt.fragmentsList, ModelStmt.fragments, ModelExpr.fragments, ModelExpr.ofFragment,
      MarkedCode.holding]
  declared := by simp [ModelStmt.declaredList, ModelStmt.declared, MarkedCode.holding]
  notes := h
  keeps := hR

theorem eval (h : s.marking.Notes t.marking (MarkedCode.mk m e.nodes).holding)
    (hR : R [.eval (.ofFragment m e)]) :
    Emitted R s t [.eval (.ofFragment m e)] (MarkedCode.mk m e.nodes).holding where
  fragments := by
    simp [ModelStmt.fragmentsList, ModelStmt.fragments, ModelExpr.fragments, ModelExpr.ofFragment,
      MarkedCode.holding]
  declared := by simp [ModelStmt.declaredList, ModelStmt.declared, MarkedCode.holding]
  notes := h
  keeps := hR

theorem code {body : List CodeStmt}
    (h : s.marking.Notes t.marking (MarkedCode.mk m (CodeStmt.nodesList body)).holding)
    (hR : R [.fragment m body]) :
    Emitted R s t [.fragment m body] (MarkedCode.mk m (CodeStmt.nodesList body)).holding where
  fragments := by simp [ModelStmt.fragmentsList, ModelStmt.fragments, MarkedCode.holding]
  declared := by simp [ModelStmt.declaredList, ModelStmt.declared, MarkedCode.holding]
  notes := h
  keeps := hR

theorem store (h : s.marking.Notes t.marking st.holding) (hR : R [st.declaration none]) :
    Emitted R s t [st.declaration none] st.holding where
  fragments := by
    simp [declaration, ModelStmt.fragmentsList, ModelStmt.fragments, holding]
  declared := by
    simp [declaration, ModelStmt.declaredList, ModelStmt.declared, holding]
  notes := h
  keeps := hR

/-- A store that is declared together with its first value holds the value. -/
theorem first (h : s.marking.Notes t.marking ((MarkedCode.mk m e.nodes).holding + st.holding))
    (hR : R [st.declaration (some (.ofFragment m e))]) :
    Emitted R s t [st.declaration (some (.ofFragment m e))]
      ((MarkedCode.mk m e.nodes).holding + st.holding) where
  fragments := by
    simp [declaration, ModelStmt.fragmentsList, ModelStmt.fragments, ModelExpr.fragments,
      ModelExpr.ofFragment, MarkedCode.holding, holding]
  declared := by
    simp [declaration, ModelStmt.declaredList, ModelStmt.declared, MarkedCode.holding,
      holding]
  notes := h
  keeps := hR

/-- An iteration holds its values, the store of its items and its body. -/
theorem forEach (h : s.marking.Notes t.marking (st.holding + (MarkedCode.mk m e.nodes).holding))
    (hbody : Emitted R t u ss held)
    (hR : R' [.forEach st.marker st.name st.ty (.ofFragment m e) ss]) :
    Emitted R' s u [.forEach st.marker st.name st.ty (.ofFragment m e) ss]
      (st.holding + (MarkedCode.mk m e.nodes).holding + held) where
  fragments := by
    simp [ModelStmt.fragmentsList, ModelStmt.fragments, ModelExpr.fragments, ModelExpr.ofFragment,
      MarkedCode.holding, holding, ← hbody.fragments, Multiset.singleton_add]
  declared := by
    simp [ModelStmt.declaredList, ModelStmt.declared, MarkedCode.holding, holding,
      ← hbody.declared, Multiset.singleton_add]
  notes := h.trans hbody.notes
  keeps := hR

end Emitted

/-- The statements that a step emits hold what is said and have the property. -/
def Emits (R : List ModelStmt → Prop) (x : Emit (List ModelStmt)) (held : Holding) : Prop :=
  ∀ s, Emitted R s (x.run s).2 (x.run s).1 held

theorem Emits.cast {R : List ModelStmt → Prop}
    (h : Emits R x held) (heq : held = held') : Emits R x held' := heq ▸ h

/-- Code that gives no store its first value is shown as it is. -/
theorem plain_code {f : CodeFragment} {next : Option StmtId}
    (h : (StmtKind.code f next initializes).declares = none) :
    shownCode initializes f.body = CodeStmt.nodesList f.body ∧
      (initializes = none ∨ assignedValue f.body = none) ∧
      code a f initializes = do
        mark (·.addFragment f.marker f.span)
        return [.fragment f.marker f.body] := by
  cases hvalue : assignedValue f.body with
  | none =>
    unfold shownCode code
    rw [hvalue]
    refine ⟨?_, .inr rfl, by cases initializes <;> rfl⟩
    split
    · next heq =>
      rw [heq] at hvalue
      cases hvalue
    · rfl
  | some value =>
    cases initializes with
    | none => exact ⟨rfl, .inl rfl, rfl⟩
    | some store => simp [StmtKind.declares, hvalue] at h

namespace Invariant

variable {a : Activity} {Q : StoreHost → List ModelStmt → Prop} (hQ : Invariant a Q) {α : Type}
  {h : StoreHost} {x y z : Emit (List ModelStmt)} {held held' held'' : Holding}

include hQ

theorem emits_nil : Emits (Q h) (pure []) 0 := fun _ => ⟨rfl, rfl, .refl _, hQ.nil⟩

theorem emitted_append (hs : Emitted (Q h) s t ss held) (ht : Emitted (Q h) t u ts held') :
    Emitted (Q h) s u (ss ++ ts) (held + held') := hs.append hQ.append ht

theorem emits_append (hx : Emits (Q h) x held) (hy : Emits (Q h) y held') :
    Emits (Q h) (do return (← x) ++ (← y)) (held + held') :=
  fun s => hQ.emitted_append (hx s) (hy _)

theorem emits_append₃ (hx : Emits (Q h) x held) (hy : Emits (Q h) y held')
    (hz : Emits (Q h) z held'') :
    Emits (Q h) (do return (← x) ++ (← y) ++ (← z)) (held + held' + held'') :=
  fun s => hQ.emitted_append (hQ.emitted_append (hx s) (hy _)) (hz _)

theorem emits_flatten {f : α → Emit (List ModelStmt)} {g : α → Holding} {xs : List α}
    (hf : ∀ v ∈ xs, Emits (Q h) (f v) (g v)) :
    Emits (Q h) (do return (← xs.mapM f).flatten) (xs.map g).sum := by
  induction xs with
  | nil => exact hQ.emits_nil
  | cons v xs ih =>
    intro s
    rw [mapM_cons, map_cons, sum_cons]
    exact hQ.emitted_append (hf v mem_cons_self s)
      (ih (fun w hw => hf w (mem_cons_of_mem _ hw)) _)

theorem emits_declareStores (hids : ∀ k ∈ ids, k ∈ a.storesAt h) :
    Emits (Q h) (declareStores a ids) ((a.plain ids).map a.holdingOf).sum := by
  refine hQ.emits_flatten fun k hk => ?_
  unfold declareStore Activity.holdingOf
  cases hst : a.stores[k]? with
  | none => exact hQ.emits_nil
  | some st =>
    rw [Option.toList_some, map_singleton, sum_singleton]
    exact fun s => .store (Marking.notes_addStore s.marking st)
      (hQ.stores (hids k (mem_filter.1 hk).1) hst)

/-! ### Slots -/

section Slots

variable {id : StmtId}

theorem emitted_tempOf (hf : f ∈ (a.kind id).emitted) (ty : TypeName) (like : Option String)
    (s : EmitState) : Emitted (Q (a.outer id)) s
      ((tempOf ty like f).run s).2 [((tempOf ty like f).run s).1.2] f.marked.holding :=
  .temp (Marking.notes_addFragment s.marking f.span f.expr.nodes) (hQ.temp hf _ ty like)

theorem emits_typed (hf : f ∈ (a.kind id).emitted) (ty : TypeName) :
    Emits (Q (a.outer id)) (typed ty f) f.marked.holding := hQ.emitted_tempOf hf ty none

theorem emits_key (hf : f ∈ (a.kind id).emitted) (subject : String) :
    Emits (Q (a.outer id)) (key subject f) f.marked.holding :=
  hQ.emitted_tempOf hf .inferred (some subject)

theorem emits_optionalTyped {f : Option Fragment} (hf : ∀ g ∈ f, g ∈ (a.kind id).emitted)
    (ty : TypeName) : Emits (Q (a.outer id)) (optionalTyped ty f)
      (f.toList.map fun f => f.marked.holding).sum := by
  cases f with
  | none => exact hQ.emits_nil
  | some f => exact (hQ.emits_typed (hf f rfl) ty).cast (by simp)

/-- A code statement shows its code, or the value that it gives to a store first. -/
theorem emits_code {f : CodeFragment} {next : Option StmtId}
    (hk : a.kind id = .code f next initializes)
    (hstore : ∀ k ∈ (StmtKind.code f next initializes).declares, k < a.stores.size) :
    Emits (Q (a.outer id)) (code a f initializes)
      (((StmtKind.code f next initializes).fragments.map MarkedCode.holding).sum +
        ((StmtKind.code f next initializes).declares.toList.map a.holdingOf).sum) := by
  cases hd : (StmtKind.code f next initializes).declares with
  | none =>
    obtain ⟨hshown, hnone, hcode⟩ := plain_code (a := a) hd
    rw [hcode]
    have hplain : Emits (Q (a.outer id)) (do
        mark (·.addFragment f.marker f.span)
        return [.fragment f.marker f.body])
        (MarkedCode.mk f.marker (CodeStmt.nodesList f.body)).holding :=
      fun s => .code (Marking.notes_addFragment s.marking f.span _) (hQ.plain hk hnone)
    exact hplain.cast (by simp [StmtKind.fragments, hshown])
  | some store =>
    obtain ⟨value, hvalue, hinit⟩ := Option.bind_eq_some_iff.1 hd
    subst hinit
    obtain ⟨o, op, target, hbody⟩ := body_of_assignedValue hvalue
    obtain ⟨st, hst⟩ : ∃ st, a.stores[store]? = some st :=
      ⟨_, Array.getElem?_eq_getElem (hstore store hd)⟩
    unfold code declareStore
    rw [hvalue]
    dsimp only
    rw [hst]
    have hheld : ((StmtKind.code f next (some store)).fragments.map MarkedCode.holding).sum +
        ((some store).toList.map a.holdingOf).sum =
          (MarkedCode.mk f.marker value.nodes).holding + st.holding := by
      simp [StmtKind.fragments, hbody, StmtKind.shownCode, Activity.holdingOf, hst]
    rw [hheld]
    exact fun s => .first ((Marking.notes_addFragment s.marking f.span value.nodes).trans
      (Marking.notes_addStore _ _)) (hQ.first hk hbody hst)

theorem emits_contract (op : ServiceOperation) : Emits (Q h) (contract a op) 0 := by
  unfold contract
  dsimp only
  split
  · exact fun s => ⟨rfl, rfl, .refl _, hQ.access _ _ _⟩
  · exact hQ.emits_nil

theorem emits_content
    (hc : ∀ f ∈ c.toList.flatMap Content.fragments, f ∈ (a.kind id).emitted) (inbound : Bool) :
    Emits (Q (a.outer id)) (content inbound c)
      ((c.toList.flatMap Content.fragments).map fun f => f.marked.holding).sum := by
  cases c with
  | none => exact hQ.emits_nil
  | some c =>
    refine (hQ.emits_flatten (g := fun f => f.marked.holding) fun f hf => ?_).cast (by simp)
    have hf : f ∈ (a.kind id).emitted := hc f (by simpa using hf)
    unfold contentFragment
    split
    · exact fun s => .eval (Marking.notes_addFragment s.marking f.span f.expr.nodes)
        (hQ.target hf)
    · exact hQ.emits_typed hf _

theorem emits_service {op : ServiceOperation} (hk : a.kind id = .service op) :
    Emits (Q (a.outer id)) (service a op)
      (((StmtKind.service op).fragments.map MarkedCode.holding).sum) := by
  have hslot : ∀ f ∈ (StmtKind.service op).emitted, f ∈ (a.kind id).emitted := by
    rw [hk]
    exact fun _ hf => hf
  have hcontent := hQ.emits_content (c := op.content)
    (fun f hf => hslot f (mem_append_left _ (mem_append_left _ hf))) op.kind.isInbound
  have hhandle := hQ.emits_optionalTyped (f := op.correlatesWith)
    (fun f hf => hslot f (by simp [emitted, Option.mem_def.1 hf])) correlationHandleType
  have hhead := fun s => hQ.emitted_append
    (hQ.emitted_append (hQ.emits_contract op s) (hcontent _)) (hhandle _)
  unfold service
  cases hsend : op.kind == .send with
  | true =>
    have hendpoint := hQ.emits_optionalTyped (f := op.endpoint)
      (fun f hf => hslot f (by simp [emitted, hsend, Option.mem_def.1 hf])) endpointType
    refine Emits.cast (fun s => (hQ.emitted_append (hhead s) (hendpoint _)).block
      (hQ.nest (hQ.emitted_append (hhead s) (hendpoint _)).keeps)) ?_
    simp [fragments, Function.comp_def, hsend, add_assoc]
  | false =>
    refine Emits.cast (fun s => (hQ.emitted_append (hhead s) (hQ.emits_nil _)).block
      (hQ.nest (hQ.emitted_append (hhead s) (hQ.emits_nil _)).keeps)) ?_
    simp [fragments, Function.comp_def, hsend]

end Slots

/-! ### Statements -/

section Inner

variable {id : StmtId} {emit : Inner} {T : StmtId → Holding}

theorem emits_block (hx : Emits (Q (.statement id)) x held) :
    Emits (Q (a.outer id)) (do return [.block (← x)]) held :=
  fun s => (hx s).block (hQ.enter (hx s).keeps)

theorem emits_pass (hhost : (a.kind id).tag.isStoreHost = false)
    (hx : Emits (Q (.statement id)) x held) : Emits (Q (a.outer id)) x held :=
  fun s => { hx s with keeps := hQ.pass hhost (hx s).keeps }

theorem emits_optionalBlock (m : Option StmtId)
    (hm : ∀ i ∈ m, Emits (Q (.statement id)) (emit i) (T i)) :
    Emits (Q (a.outer id)) (optionalBlock emit m) (m.toList.map T).sum := by
  cases m with
  | none => exact hQ.emits_nil
  | some m => exact (hQ.emits_block (hm m rfl)).cast (by simp)

theorem emits_hostBlock (hids : ∀ m ∈ ids, Emits (Q (.statement id)) (emit m) (T m)) :
    Emits (Q (a.outer id)) (hostBlock a emit id ids)
      (((a.plain (a.storesOf id)).map a.holdingOf).sum + (ids.map T).sum) :=
  hQ.emits_block (hQ.emits_append (hQ.emits_declareStores fun _ hk => hk) (hQ.emits_flatten hids))

theorem emits_forEach {item : StoreId} {values : Fragment} {body : StmtId} {isParallel : Bool}
    {completion : Option Fragment}
    (hk : a.kind id = .forEach item values body isParallel completion)
    (hitem : item < a.stores.size) (hbody : Emits (Q (.statement id)) (emit body) (T body)) :
    Emits (Q (a.outer id)) (forEach a emit id item values body) (values.marked.holding + ((item ::
      a.plain ((a.storesOf id).filter (· != item))).map a.holdingOf).sum + T body) := by
  have hst : a.stores[item]? = some a.stores[item] := Array.getElem?_eq_getElem hitem
  unfold forEach
  rw [hst]
  have hheld : values.marked.holding + ((item ::
      a.plain ((a.storesOf id).filter (· != item))).map a.holdingOf).sum + T body =
        a.stores[item].holding + values.marked.holding +
          (((a.plain ((a.storesOf id).filter (· != item))).map a.holdingOf).sum + T body) := by
    simp only [map_cons, sum_cons, Activity.holdingOf, hst, Option.toList_some,
      map_nil, sum_nil, add_zero]
    abel
  rw [hheld]
  have hothers : Emits (Q (.statement id))
      (declareStores a ((a.storesOf id).filter (· != item))) _ :=
    hQ.emits_declareStores fun k hmem => (mem_filter.1 hmem).1
  have hinner := fun s => hQ.emitted_append (hothers s) (hbody _)
  exact fun s => .forEach ((Marking.notes_addStore s.marking a.stores[item]).trans
    (Marking.notes_addFragment _ values.span values.expr.nodes)) (hinner _)
      (hQ.iterate hk hst (hinner _).keeps)

attribute [local simp] Activity.heldAt Activity.declaredAt fragments slots
  emitted children declares tag StmtTag.isStoreHost

/-- A statement holds what it declares and shows itself, and what the statements inside it hold. -/
theorem emits_stmtWith (hlinked : a.Linked id (a.kind id))
    (hstore : ∀ k ∈ (a.kind id).declares, k < a.stores.size)
    (hemit : ∀ m ∈ (a.kind id).children, Emits (Q (.statement id)) (emit m) (T m)) :
    Emits (Q (a.outer id)) (stmtWith a emit id)
      (a.heldAt id + ((a.kind id).children.map T).sum) := by
  have hslot : ∀ {k}, a.kind id = k → ∀ f ∈ k.emitted, f ∈ (a.kind id).emitted := by
    rintro _ rfl f hf
    exact hf
  have htyped : ∀ {k f}, a.kind id = k → (∀ g ∈ f, g ∈ k.emitted) → ∀ ty,
      Emits (Q (a.outer id)) (optionalTyped ty f) (f.toList.map fun f => f.marked.holding).sum :=
    fun hk hf => hQ.emits_optionalTyped fun g hg => hslot hk g (hf g hg)
  have hin : ∀ {k}, a.kind id = k → ∀ m ∈ k.children, Emits (Q (.statement id)) (emit m) (T m) := by
    rintro _ rfl m hm
    exact hemit m hm
  have hblock : ∀ {k m}, a.kind id = k → m ∈ k.children →
      Emits (Q (a.outer id)) (block emit m) (T m) :=
    fun hk hm => hQ.emits_block (hin hk _ hm)
  have hoption : ∀ {k m}, a.kind id = k → (∀ i ∈ m, i ∈ k.children) →
      Emits (Q (a.outer id)) (optionalBlock emit m) (m.toList.map T).sum :=
    fun hk hm => hQ.emits_optionalBlock _ fun i hi => hin hk i (hm i hi)
  have hall : ∀ {k ids}, a.kind id = k → k.tag.isStoreHost = false → (∀ m ∈ ids, m ∈ k.children) →
      Emits (Q (a.outer id)) (all emit ids) (ids.map T).sum := by
    rintro _ ids rfl hhost hids
    exact hQ.emits_pass hhost (hQ.emits_flatten fun m hm => hemit m (hids m hm))
  unfold stmtWith
  cases hk : a.kind id with
  | code f next initializes =>
    rw [hk] at hstore
    exact (hQ.emits_code hk hstore).cast (by simp [hk])
  | empty | persist => exact hQ.emits_nil.cast (by simp [hk])
  | sequence | handler | pickBranch | stateMachine | flow | transactedReceive =>
    exact (hQ.emits_hostBlock (hin hk)).cast (by simp [hk])
  | conditional condition yes no =>
    refine (hQ.emits_append₃ (hQ.emits_typed (hslot hk condition (by simp)) _)
      (hblock hk (by simp)) (hoption hk (by simp +contextual))).cast ?_
    simp [hk, add_assoc]
  | loop condition body testAfter =>
    refine (hQ.emits_append (hQ.emits_typed (hslot hk condition (by simp)) _)
      (hblock hk (by simp))).cast ?_
    simp [hk]
  | switch value cs fallback =>
    have hcases : ∀ subject, Emits (Q (a.outer id)) (cases emit subject cs)
        (cs.map fun c => c.key.marked.holding + T c.body).sum := fun subject =>
      hQ.emits_flatten fun c hc => hQ.emits_append
        (hQ.emits_key (hslot hk c.key (mem_cons_of_mem _ (mem_map_of_mem hc))) subject)
        (hblock hk (mem_append_left _ (mem_map_of_mem hc)))
    have hfallback := hoption (m := fallback) hk (by simp +contextual)
    refine Emits.cast (fun s => hQ.emitted_append (hQ.emitted_append
      (hQ.emitted_tempOf (hslot hk value (by simp)) .inferred none s) (hcases _ _))
      (hfallback _)) ?_
    simp [hk, Function.comp_def, sum_map_add, add_assoc]
  | raise | confirm | compensate =>
    exact (htyped hk (by simp) _).cast (by simp [hk, Function.comp_def])
  | guarded body handlers final =>
    refine (hQ.emits_append₃ (hblock hk (by simp)) (hall hk rfl (by simp +contextual))
      (hoption hk (by simp +contextual))).cast ?_
    simp [hk, add_assoc]
  | forEach item values body isParallel completion =>
    rw [hk] at hlinked
    refine (hQ.emits_append (hQ.emits_forEach hk (hlinked.item item rfl).lt_size
      (hin hk body (by simp))) (htyped hk (by simp +contextual) _)).cast ?_
    simp only [Activity.heldAt, hk, Activity.declaredAt, StmtKind.fragments, StmtKind.slots,
      StmtKind.children, map_cons, sum_cons, map_nil, sum_nil, map_map,
      Function.comp_def]
    abel
  | delay duration => exact (hQ.emits_typed (hslot hk duration (by simp)) _).cast (by simp [hk])
  | parallel branches completion =>
    refine (hQ.emits_append (hQ.emits_flatten fun m hm => hblock hk hm)
      (htyped hk (by simp) _)).cast ?_
    simp [hk, Function.comp_def, add_comm]
  | pick branches => exact (hall hk rfl fun _ hm => hm).cast (by simp [hk])
  | state name isFinal entry exit transitions =>
    refine (hQ.emits_append₃ (hoption hk (by simp +contextual)) (hoption hk (by simp +contextual))
      (hall hk rfl (by simp +contextual))).cast ?_
    simp [hk, add_assoc]
  | transition trigger bodies =>
    refine (hQ.emits_append (hoption hk (by simp +contextual))
      (hall hk rfl (by simp +contextual))).cast ?_
    simp [hk]
  | transitionBody condition action target =>
    refine (hQ.emits_append (htyped hk (by simp) _) (hoption hk (by simp))).cast ?_
    simp [hk, Function.comp_def]
  | flowStep | noPersist => exact (hblock hk (by simp)).cast (by simp [hk])
  | flowIf name condition onTrue onFalse =>
    exact (hQ.emits_typed (hslot hk condition (by simp)) _).cast (by simp [hk])
  | flowSwitch name value cs fallback =>
    have hkeys : ∀ subject, Emits (Q (a.outer id))
        (do return (← cs.mapM fun c => key subject c.key).flatten)
        (cs.map fun c => c.key.marked.holding).sum := fun subject =>
      hQ.emits_flatten fun c hc => hQ.emits_key
        (hslot hk c.key (mem_cons_of_mem _ (mem_map_of_mem hc))) subject
    refine Emits.cast (fun s => hQ.emitted_append
      (hQ.emitted_tempOf (hslot hk value (by simp)) .inferred none s) (hkeys _ _)) ?_
    simp [hk, Function.comp_def]
  | transacted body timeout =>
    refine (hQ.emits_append (hblock hk (by simp)) (htyped hk (by simp) _)).cast ?_
    simp [hk, Function.comp_def, add_comm]
  | cancellable body onCancel =>
    refine (hQ.emits_append (hblock hk (by simp)) (hoption hk (by simp +contextual))).cast ?_
    simp [hk]
  | compensable body token compensation confirmation cancellation =>
    have hhead := hQ.emits_append₃ (hblock (m := body) hk (by simp))
      (hoption (m := compensation) hk (by simp +contextual))
      (hoption (m := confirmation) hk (by simp +contextual))
    have hlast := hoption (m := cancellation) hk (by simp +contextual)
    refine Emits.cast (fun s => hQ.emitted_append (hhead s) (hlast _)) ?_
    simp [hk, add_assoc]
  | terminate reason exception =>
    refine (hQ.emits_append (htyped hk (by simp +contextual) _)
      (htyped hk (by simp +contextual) _)).cast ?_
    simp [hk, Function.comp_def]
  | service op => exact (hQ.emits_service hk).cast (by simp [hk])
  | contentCorrelation handle data =>
    have hdata : Emits (Q (a.outer id))
        (do return (← data.mapM fun p => typed .inferred p.value).flatten)
        (data.map fun p => p.value.marked.holding).sum :=
      hQ.emits_flatten fun p hp => hQ.emits_typed
        (hslot hk p.value (mem_cons_of_mem _ (mem_map_of_mem hp))) _
    refine (hQ.emits_append (hQ.emits_typed (hslot hk handle (by simp)) _) hdata).cast ?_
    simp [hk, Function.comp_def]

end Inner

end Invariant

end Emit

end Workflow
