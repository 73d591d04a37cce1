import Workflow.Activity.Resolve.Unit
import Workflow.Proofs.Build.Activity

/-!
# What resolution keeps

Resolution fills in the targets of jumps and the partners of messaging operations, and it declares
stores for the handles that they share. The statements stay where they are with the code that they
hold. Its errors are at places of the activity.
-/

namespace Workflow

open List StmtKind

variable {P : Span → Prop} {k : StmtKind}

/-- A reference without what it was resolved to. -/
def NodeRef.bare (r : NodeRef) : NodeRef := { r with resolved := none }

/-- An operation without its partner and what a reply takes over from it. -/
def ServiceOperation.bare (op : ServiceOperation) : ServiceOperation :=
  { op with contract := none, operation := none, request := none, reply := none
            correlationStore := none }

/-- The parts of a statement without how jumps and messages are linked. -/
def StmtKind.bare : StmtKind → StmtKind
  | .stateMachine states start _ => .stateMachine states start none
  | .transitionBody condition action target => .transitionBody condition action target.bare
  | .flow nodes _ => .flow nodes none
  | .flowStep name action next _ => .flowStep name action (next.map NodeRef.bare) none
  | .flowIf name condition onTrue onFalse =>
    .flowIf name condition (onTrue.map NodeRef.bare) (onFalse.map NodeRef.bare)
  | .flowSwitch name value cases fallback => .flowSwitch name value
      (cases.map fun c => { c with target := c.target.bare }) (fallback.map NodeRef.bare)
  | .service op => .service op.bare
  | k => k

/-- Two kinds of statements that differ at most in how jumps and messages are linked. -/
def StmtKind.Alike (k k' : StmtKind) : Prop := k'.bare = k.bare

namespace StmtKind.Alike

variable {k k' k'' : StmtKind}

theorem refl (k : StmtKind) : Alike k k := rfl

theorem trans (h : Alike k k') (h' : Alike k' k'') : Alike k k'' := Eq.trans h' h

theorem symm (h : Alike k k') : Alike k' k := Eq.symm h

theorem congr (h : Alike k k') {β : Type} {f : StmtKind → β} (hf : ∀ k, f k.bare = f k) :
    f k' = f k := by
  rw [← hf k', h, hf]

theorem tag (h : Alike k k') : k'.tag = k.tag := h.congr fun k => by cases k <;> rfl

theorem children (h : Alike k k') : k'.children = k.children :=
  h.congr fun k => by cases k <;> rfl

theorem body (h : Alike k k') : k'.body = k.body := h.congr fun k => by cases k <;> rfl

theorem slots (h : Alike k k') : k'.slots = k.slots :=
  h.congr fun k => by cases k <;> simp [bare, StmtKind.slots, ServiceOperation.bare,
    ServiceOperation.slots]

theorem chained (h : Alike k k') : k'.chained = k.chained := h.congr fun k => by cases k <;> rfl

theorem parts (h : Alike k k') : k'.parts = k.parts := h.congr fun k => by cases k <;> rfl

theorem item (h : Alike k k') : k'.item = k.item := h.congr fun k => by cases k <;> rfl

theorem storeRefs (h : Alike k k') : k'.storeRefs = k.storeRefs :=
  h.congr fun k => by cases k <;> rfl

theorem codeTokens (h : Alike k k') : k'.codeTokens = k.codeTokens :=
  h.congr fun k => by cases k <;> rfl

theorem face (h : Alike k k') : k'.face = k.face := h.congr fun k => by cases k <;> rfl

theorem spans (h : Alike k k') : k'.refs.map (·.span) = k.refs.map (·.span) := by
  have hbare : ∀ r : Option NodeRef,
      (r.map NodeRef.bare).toList.map (·.span) = r.toList.map (·.span) := by
    rintro (_ | _) <;> rfl
  refine h.congr (f := fun k => k.refs.map (·.span)) fun k => ?_
  cases k <;> simp [bare, refs, hbare, NodeRef.bare, Function.comp_def]

theorem exprs (h : Alike k k') : k'.exprs = k.exprs := by
  rw [StmtKind.exprs, StmtKind.exprs, h.body, h.slots]

theorem tokens (h : Alike k k') : k'.tokens = k.tokens := by
  rw [StmtKind.tokens, StmtKind.tokens, h.codeTokens, h.slots]

theorem placed {P : Span → Prop} (h : Alike k k') (hk : k.Placed P) : k'.Placed P where
  body := h.body ▸ hk.body
  slots := h.slots ▸ hk.slots
  refs r hr := by
    have hmem : r.span ∈ k.refs.map (·.span) := h.spans ▸ mem_map_of_mem hr
    obtain ⟨r', hr', hspan⟩ := mem_map.1 hmem
    exact hspan ▸ hk.refs r' hr'

end StmtKind.Alike

namespace Activity

variable {a b c : Activity} {i : StmtId}

theorem service?_eq_some : a.service? i = some op ↔ a.kind i = .service op := by
  rw [service?]
  split
  case h_1 op' hk => simp [hk]
  case h_2 hother =>
    constructor
    · rintro ⟨⟩
    · exact fun hk => (hother op hk).elim

theorem lt_size_of_service? (h : a.service? i = some op) : i < a.stmts.size :=
  lt_size_of_kind (service?_eq_some.1 h) rfl

theorem Fills.alike
    (h : a.Fills p xs lo hi) (hab : ∀ i, b.parent i = a.parent i ∧ b.tag i = a.tag i)
    (hkind : ∀ i, (a.kind i).Alike (b.kind i)) (hstores : a.StoresStay b) : b.Fills p xs lo hi := by
  have hto : ∀ m, Lower.chainedTo b m = Lower.chainedTo a m := fun m => by
    rw [chainedTo_eq, chainedTo_eq, (hkind m).chained]
  have hforward : ∀ xs, b.chainsForward xs = a.chainsForward xs := by
    intro xs
    induction xs with
    | nil => rfl
    | cons m rest ih =>
      cases rest with
      | nil => rw [chainsForward, chainsForward, isUnchained, isUnchained, hto]
      | cons next rest => rw [chainsForward, chainsForward, hto, ih, (hkind next).tag]
  induction h with
  | nil => exact .nil _ _
  | @cons _ _ lo _ _ hp ht hc _ _ ihi iha =>
    refine .cons ((hab lo).1.trans hp) ?_ ?_ ((hkind lo).children ▸ ihi) iha
    · rw [(hab lo).2, (hkind lo).tag, ht]
    · refine ⟨?_, hc.follows.congr (hkind lo).tag (hkind lo).children fun m _ =>
        ⟨(hkind m).tag, (hkind m).chained⟩, fun m hm => ?_, fun i hi => ?_,
        hc.ruled.congr (hkind lo).face fun m _ => (hkind m).face⟩
      · have hchained := hc.chained
        unfold Chained at hchained ⊢
        rw [(hkind lo).tag, (hkind lo).children, hforward]
        simpa only [hto] using hchained
      · rw [(hkind lo).parts] at hm ⊢
        rw [(hab m).2]
        exact hc.parts m hm
      · rw [(hkind lo).item] at hi
        exact (hc.item i hi).stay hstores

def HasPlace (a : Activity) (span : Span) : Prop :=
  (∃ i < a.stmts.size, a.stmtSpan i = span) ∨ ∃ i, span ∈ (a.kind i).refs.map (·.span)

theorem HasPlace.of_lt (h : i < a.stmts.size) : a.HasPlace (a.stmtSpan i) := .inl ⟨i, h, rfl⟩

theorem HasPlace.of_kind (h : a.kind i = k) (hr : r ∈ k.refs) : a.HasPlace r.span :=
  .inr ⟨i, h ▸ mem_map_of_mem hr⟩

theorem Placed.of_hasPlace (h : a.Placed P) {span : Span} (hspan : a.HasPlace span) : P span := by
  rcases hspan with ⟨i, hi, rfl⟩ | ⟨i, hi⟩
  · exact h.stmts i hi
  · obtain ⟨r, hr, rfl⟩ := mem_map.1 hi
    exact (h.kind i).refs r hr

/-- The second activity has the same statements, up to links, and a sound table of stores if the
first has. -/
structure Keeps (a b : Activity) : Prop where
  name : b.name = a.name
  size : b.stmts.size = a.stmts.size
  root : b.root = a.root
  parent : ∀ i, b.parent i = a.parent i
  tag : ∀ i, b.tag i = a.tag i
  span : ∀ i, b.stmtSpan i = a.stmtSpan i
  storesOf : ∀ i, b.storesOf i = a.storesOf i
  kind : ∀ i, (a.kind i).Alike (b.kind i)
  parameters : b.parameters = a.parameters
  operations : b.serviceOperations = a.serviceOperations
  result : b.result = a.result
  table : a.stores.toList <+: b.stores.toList
  /-- The activity itself hosts the stores that were added. -/
  own : b.activityStores =
    a.activityStores ++ range' a.stores.size (b.stores.size - a.stores.size)
  initialized : b.initialized = a.initialized
  sound : a.Sound → b.Sound

namespace Keeps

theorem refl (a : Activity) : Keeps a a :=
  ⟨rfl, rfl, rfl, fun _ => rfl, fun _ => rfl, fun _ => rfl, fun _ => rfl, fun _ => .refl _, rfl,
    rfl, rfl, prefix_rfl, by simp, rfl, id⟩

theorem trans (h : Keeps a b) (h' : Keeps b c) : Keeps a c where
  name := h'.name.trans h.name
  size := h'.size.trans h.size
  root := h'.root.trans h.root
  parent i := (h'.parent i).trans (h.parent i)
  tag i := (h'.tag i).trans (h.tag i)
  span i := (h'.span i).trans (h.span i)
  storesOf i := (h'.storesOf i).trans (h.storesOf i)
  kind i := (h.kind i).trans (h'.kind i)
  parameters := h'.parameters.trans h.parameters
  operations := h'.operations.trans h.operations
  result := h'.result.trans h.result
  table := h.table.trans h'.table
  own := by
    have hab := h.table.length_le
    have hbc := h'.table.length_le
    rw [Array.length_toList, Array.length_toList] at hab hbc
    rw [h'.own, h.own, append_assoc, show c.stores.size - a.stores.size =
      b.stores.size - a.stores.size + (c.stores.size - b.stores.size) by omega,
      ← range'_append_1, Nat.add_sub_cancel' hab]
  initialized := h'.initialized.trans h.initialized
  sound := h'.sound ∘ h.sound

theorem setKind {id : StmtId} {k : StmtKind} (hk : (a.kind id).Alike k) :
    Keeps a (a.setKind id k) where
  name := rfl
  size := size_setKind a id k
  root := rfl
  parent := parent_setKind a id k
  tag := tag_setKind a id k
  span := stmtSpan_setKind a id k
  storesOf := storesOf_setKind a id k
  kind i := by
    by_cases hi : i = id
    · subst hi
      by_cases hlt : i < a.stmts.size
      · rw [kind_setKind_self a i k hlt]
        exact hk
      · have hnone : ∀ b : Activity, b.stmts.size = a.stmts.size → b.kind i = .empty := by
          intro b hb
          rw [Activity.kind, Array.getElem?_eq_none (hb ▸ Nat.le_of_not_lt hlt)]
        rw [hnone _ (size_setKind a i k), hnone a rfl]
        exact .refl _
    · rw [kind_setKind_of_ne a id k hi]
      exact .refl _
  parameters := rfl
  operations := rfl
  result := rfl
  table := prefix_rfl
  own := by
    change a.activityStores = a.activityStores ++ range' a.stores.size (a.stores.size - _)
    simp
  initialized := rfl
  sound := (sameShape_setKind a id k).sound

theorem modifyService (id : StmtId) {f : ServiceOperation → ServiceOperation}
    (hf : ∀ op, (f op).bare = op.bare) : Keeps a (a.modifyService id f) := by
  unfold Activity.modifyService
  split
  case h_1 op hk =>
    refine setKind ?_
    rw [hk]
    exact congrArg service (hf op)
  case h_2 => exact refl a

theorem addStore {store : Store} (hfree : a.lookup store.host store.name = none)
    (hhost : store.host = .activity) (hr : store.redirect = none)
    (hinit : store.initialized = false) : Keeps a (a.addStore store) where
  name := name_addStore a store
  size := size_addStore a store
  root := by
    unfold Activity.addStore
    rw [hhost]
  parent := parent_addStore a store
  tag := tag_addStore a store
  span := stmtSpan_addStore a store
  storesOf i := by
    unfold Activity.addStore
    rw [hhost]
    rfl
  kind i := by
    rw [kind_addStore]
    exact .refl _
  parameters := by
    unfold Activity.addStore
    rw [hhost]
  operations := serviceOperations_addStore a store
  result := result_addStore a store
  table := by
    rw [stores_addStore, Array.toList_push]
    exact prefix_append _ _
  own := by
    rw [stores_addStore, Array.size_push, Nat.add_sub_cancel_left]
    unfold Activity.addStore
    rw [hhost]
    rfl
  initialized := initialized_addStore a hinit
  sound h := h.addStore hfree (by simp [hhost]) hr hinit

theorem stores (h : Keeps a b) : a.StoresStay b := by
  intro k st hst
  refine ⟨st, ?_, .refl st⟩
  rw [← Array.getElem?_toList] at hst ⊢
  obtain ⟨added, hadded⟩ := h.table
  rw [← hadded, List.getElem?_append_left (List.getElem?_eq_some_iff.1 hst).1, hst]

theorem hasPlace_iff (h : Keeps a b) {span : Span} : b.HasPlace span ↔ a.HasPlace span := by
  unfold HasPlace
  simp only [h.size, h.span, (h.kind _).spans]

theorem exprs (h : Keeps a b) : b.exprs = a.exprs := by
  rw [Activity.exprs, Activity.exprs, h.size]
  congr 1
  funext i
  exact (h.kind i).exprs

theorem tokens_add (h : Keeps a b) :
    b.tokens + (0, a.storeMarkers, 0) = a.tokens + (0, b.storeMarkers, 0) := by
  have hkinds : ∑ i ∈ Finset.range a.stmts.size, (b.kind i).tokens =
      ∑ i ∈ Finset.range a.stmts.size, (a.kind i).tokens :=
    Finset.sum_congr rfl fun i _ => (h.kind i).tokens
  rw [tokens, tokens, h.size, hkinds]
  abel

theorem wellBuilt (h : Keeps a b) (ha : a.WellBuilt) : b.WellBuilt where
  sound := h.sound ha.sound
  fills := by
    rw [h.root, h.size]
    exact ha.fills.alike (fun i => ⟨h.parent i, h.tag i⟩) h.kind h.stores
  unchained := by
    rw [chainedTo_eq, h.root, (h.kind a.root).chained, ← chainedTo_eq]
    exact ha.unchained
  nodup := by
    rw [h.exprs]
    exact ha.nodup
  firsts := by
    rw [h.initialized, ← ha.firsts]
    simpa using congrArg (fun t : Tokens => t.2.2) h.tokens_add
  seesFirst i := by
    have hfirst := (ha.seesFirst i).stay ha.sound.parentsFirst (fun m _ => h.parent m)
      (Nat.lt_succ_self i) h.stores
    unfold SeesFirst at hfirst ⊢
    rwa [declares_congr (h.kind i).tokens]

end Keeps

end Activity

/-- The activity is kept, new stores have new markers, and new errors are about the program and at
places of the activity. -/
structure ResolveState.Keeps (s t : ResolveState) : Prop
    extends Activity.Keeps s.activity t.activity where
  markers : s.ids.markers ≤ t.ids.markers
  fresh : ∃ new, t.activity.storeMarkers = s.activity.storeMarkers + new ∧
    new ≤ (Finset.Ioc s.ids.markers t.ids.markers).val
  clear : s.errors.Clear → t.errors.Clear
  added : ∀ st ∈ t.activity.stores, st ∈ s.activity.stores ∨ s.activity.HasPlace st.span
  reported : ∀ e ∈ t.errors.errors, e ∈ s.errors.errors ∨ s.activity.HasPlace e.span

namespace ResolveState.Keeps

variable {s t u : ResolveState}

theorem of_stores_eq (h : s.activity.Keeps t.activity) (hids : t.ids = s.ids)
    (hstores : t.activity.stores = s.activity.stores) (hclear : s.errors.Clear → t.errors.Clear)
    (hreported : ∀ e ∈ t.errors.errors, e ∈ s.errors.errors ∨ s.activity.HasPlace e.span) :
    s.Keeps t where
  toKeeps := h
  markers := by rw [hids]
  fresh := ⟨0, by rw [Activity.storeMarkers, hstores, add_zero]; rfl, Multiset.zero_le _⟩
  clear := hclear
  added _ hst := .inl (hstores ▸ hst)
  reported := hreported

theorem refl (s : ResolveState) : s.Keeps s :=
  .of_stores_eq (.refl _) rfl rfl id fun _ => .inl

theorem trans (h : s.Keeps t) (h' : t.Keeps u) : s.Keeps u where
  toKeeps := h.toKeeps.trans h'.toKeeps
  markers := Nat.le_trans h.markers h'.markers
  fresh := by
    obtain ⟨new, hnew, hle⟩ := h.fresh
    obtain ⟨new', hnew', hle'⟩ := h'.fresh
    refine ⟨new + new', by rw [hnew', hnew, add_assoc], ?_⟩
    rw [← Ioc_val_add h.markers h'.markers]
    exact add_le_add hle hle'
  clear := h'.clear ∘ h.clear
  added st hst := (h'.added st hst).elim (h.added st) fun hspan => .inr (h.hasPlace_iff.1 hspan)
  reported e he := (h'.reported e he).elim (h.reported e) fun hspan => .inr (h.hasPlace_iff.1 hspan)

end ResolveState.Keeps

namespace Resolve

variable {α β : Type} {x : Resolve α} {f : α → Resolve β} {s : ResolveState} {a : Activity}

/-- The step keeps the activity, and its value has the property. -/
def Keeps (x : Resolve α) (s : ResolveState) (Q : α → Prop) : Prop :=
  Q (x s).1 ∧ s.Keeps (x s).2

namespace Keeps

variable {Q : α → Prop} {R : β → Prop}

theorem pure {v : α} (h : Q v) : Keeps (Pure.pure v) s Q :=
  ⟨h, .refl s⟩

theorem bind (hx : Keeps x s Q) (hf : ∀ v t, Q v → s.Keeps t → Keeps (f v) t R) :
    Keeps (x >>= f) s R := by
  obtain ⟨hv, hs⟩ := hx
  obtain ⟨hw, ht⟩ := hf _ _ hv hs
  exact ⟨hw, hs.trans ht⟩

theorem bind_activity {f : Activity → Resolve β} (h : Keeps (f s.activity) s R) :
    Keeps (activity >>= f) s R := h

theorem ite {c : Prop} [Decidable c] {y : Resolve α} (hx : Keeps x s Q) (hy : Keeps y s Q) :
    Keeps (if c then x else y) s Q := by
  split
  · exact hx
  · exact hy

theorem report {span : Span} (cause : Cause) (h : cause.isInternal = false)
    (hspan : s.activity.HasPlace span) : Keeps (Resolve.report cause span) s fun _ => True := by
  refine ⟨trivial, .of_stores_eq (.refl _) rfl rfl (fun hs =>
    hs.push (CompileError.not_isUnanswered_of_cause h)) fun e he => ?_⟩
  refine (mem_append.1 he).imp_right fun he => ?_
  rw [mem_singleton.1 he]
  exact hspan

theorem setKind {id : StmtId} {k : StmtKind} (h : (s.activity.kind id).Alike k) :
    Keeps (Resolve.setKind id k) s fun _ => True :=
  ⟨trivial, .of_stores_eq (.setKind h) rfl rfl (fun hs => hs) fun _ => .inl⟩

theorem modifyService (id : StmtId) {g : ServiceOperation → ServiceOperation}
    (hg : ∀ op, (g op).bare = op.bare) :
    Keeps (Resolve.modifyActivity (·.modifyService id g)) s fun _ => True := by
  refine ⟨trivial, .of_stores_eq (.modifyService id hg) rfl ?_ (fun hs => hs)
    fun _ => .inl⟩
  change (s.activity.modifyService id g).stores = s.activity.stores
  unfold Activity.modifyService
  split <;> rfl

theorem mapM {xs : List α} {T : α → β → Prop} (h : ∀ v ∈ xs, ∀ t, s.Keeps t → Keeps (f v) t (T v)) :
    Keeps (xs.mapM f) s (Forall₂ T xs) := by
  induction xs generalizing s with
  | nil => exact pure .nil
  | cons v xs ih =>
    obtain ⟨hv, hxs⟩ := forall_mem_cons.1 h
    rw [mapM_cons]
    refine (hv s (.refl s)).bind fun w t hw ht => ?_
    refine (ih fun v hv u hu => hxs v hv u (ht.trans hu)).bind fun ws u hws _ => ?_
    exact pure (.cons hw hws)

theorem forM {xs : List α} {g : α → Resolve Unit}
    (h : ∀ v ∈ xs, ∀ t, s.Keeps t → Keeps (g v) t fun _ => True) :
    Keeps (xs.forM g) s fun _ => True := by
  induction xs generalizing s with
  | nil => exact pure trivial
  | cons v xs ih =>
    obtain ⟨hv, hxs⟩ := forall_mem_cons.1 h
    rw [forM_eq_forM, forM_cons]
    exact (hv s (.refl s)).bind fun _ t _ ht => ih fun v hv u hu => hxs v hv u (ht.trans hu)

end Keeps

variable {names : String → Option StmtId}

theorem forall_mem_flatten {xs : List α} {yss : List (List β)} {Q : β → Prop}
    (h : Forall₂ (fun _ ys => ∀ y ∈ ys, Q y) xs yss) : ∀ y ∈ yss.flatten, Q y := by
  induction h with
  | nil => exact fun y hy => nomatch hy
  | cons hys _ ih => exact forall_mem_append.2 ⟨hys, ih⟩

theorem keeps_target (hr : s.activity.HasPlace r.span) :
    Keeps (target names r) s fun r' => r'.bare = r.bare := by
  unfold target
  split
  · exact .pure rfl
  · exact (Keeps.report _ rfl hr).bind fun _ _ _ _ => .pure rfl

theorem keeps_optionalTarget (hr : ∀ r' ∈ r.toList, s.activity.HasPlace r'.span) :
    Keeps (optionalTarget names r) s fun r' => r'.map NodeRef.bare = r.map NodeRef.bare := by
  cases r with
  | none => exact .pure rfl
  | some r =>
    change Keeps (some <$> target names r) s _
    rw [map_eq_pure_bind]
    exact (keeps_target (hr r (mem_singleton_self r))).bind fun r' _ hr' _ =>
      .pure (congrArg some hr')

theorem keeps_flowNode (next : Option StmtId) (hk : ∀ r ∈ k.refs, s.activity.HasPlace r.span) :
    Keeps (flowNode names next k) s k.Alike := by
  unfold flowNode
  split
  · exact .pure rfl
  · next r _ =>
    refine (keeps_target (hk r (mem_singleton_self r))).bind fun r' _ hr' _ => .pure ?_
    rw [Alike, bare, Option.map_some, hr']
    rfl
  · obtain ⟨htrue, hfalse⟩ := forall_mem_append.1 hk
    refine (keeps_optionalTarget htrue).bind fun onTrue t honTrue ht => ?_
    refine (keeps_optionalTarget fun r hr => ht.hasPlace_iff.2 (hfalse r hr)).bind
      fun onFalse _ honFalse _ => .pure ?_
    rw [Alike, bare, honTrue, honFalse]
    rfl
  · next name value cases fallback =>
    obtain ⟨hcases, hfallback⟩ := forall_mem_append.1 hk
    have hcase : ∀ c ∈ cases, ∀ t, s.Keeps t → Keeps (do
        return { c with target := ← target names c.target }) t
        fun c' => c'.key = c.key ∧ c'.target.bare = c.target.bare := fun c hc t ht =>
      (keeps_target (ht.hasPlace_iff.2 (hcases _ (mem_map_of_mem hc)))).bind
        fun r _ hr _ => .pure ⟨rfl, hr⟩
    refine (Keeps.mapM hcase).bind fun cases' t hkept ht => ?_
    refine (keeps_optionalTarget fun r hr => ht.hasPlace_iff.2 (hfallback r hr)).bind
      fun fallback' _ hfallback' _ => .pure ?_
    rw [Alike, bare, hfallback']
    congr 1
    clear hk hcases hcase
    induction hkept with
    | nil => rfl
    | cons h _ ih => rw [map_cons, map_cons, ih, h.1, h.2]
  · exact .pure (.refl _)

theorem keeps_flowNodes (nodes : List StmtId) : Keeps (flowNodes names nodes) s fun _ => True := by
  induction nodes generalizing s with
  | nil => exact .pure trivial
  | cons id rest ih =>
    refine .bind_activity ((keeps_flowNode _ fun r hr => .of_kind rfl hr).bind fun k t hk ht => ?_)
    refine (Keeps.setKind ?_).bind fun _ _ _ _ => ih
    exact (ht.kind id).symm.trans hk

theorem keeps_flow (id : StmtId) : Keeps (flow id) s fun _ => True := by
  refine .bind_activity ?_
  split
  case h_1 nodes start hk =>
    refine (keeps_flowNodes nodes).bind fun _ t _ ht => .setKind ?_
    have hold := ht.kind id
    rw [hk] at hold
    exact hold.symm.trans rfl
  case h_2 => exact .pure trivial

theorem keeps_startState {machine : StmtId} (states : List StmtId) {start : Option NodeRef}
    (hmachine : machine < s.activity.stmts.size)
    (hstart : ∀ r ∈ start.toList, s.activity.HasPlace r.span) :
    Keeps (startState machine states start) s fun _ => True := by
  cases start with
  | some r =>
    have hr := hstart r (mem_singleton_self r)
    refine .bind_activity ((keeps_target hr).bind fun r' t hr' ht => .ite ?_ (.pure trivial))
    have hspan : r'.span = r.span := (congrArg NodeRef.span hr' :)
    exact (Keeps.report _ rfl (hspan ▸ ht.hasPlace_iff.2 hr)).bind fun _ _ _ _ => .pure trivial
  | none =>
    refine .bind_activity (.ite ?_ (.pure trivial))
    exact (Keeps.report _ rfl (.of_lt hmachine)).bind fun _ _ _ _ => .pure trivial

theorem keeps_ambiguous (state : String) (h : ∀ b ∈ bodies, b < s.activity.stmts.size) :
    Keeps (ambiguous state bodies) s fun _ => True := by
  refine .ite (.forM fun body hbody t ht => ?_) (.pure trivial)
  exact .bind_activity (.report _ rfl (.of_lt (ht.size ▸ h body hbody)))

theorem keeps_transitionBody (id : StmtId) :
    Keeps (transitionBody names id) s fun bodies => ∀ b ∈ bodies, b < s.activity.stmts.size := by
  refine .bind_activity ?_
  split
  case h_1 condition action r hk =>
    have hr : s.activity.HasPlace r.span := .of_kind hk (mem_singleton_self r)
    refine (keeps_target hr).bind fun r' t hr' ht => ?_
    have hnew : (s.activity.kind id).Alike (.transitionBody condition action r') := by
      rw [hk, Alike, bare, hr']
      rfl
    refine (Keeps.setKind ((ht.kind id).symm.trans hnew)).bind fun _ _ _ _ => .pure fun b hb => ?_
    split at hb
    · rw [mem_singleton.1 hb]
      exact Activity.lt_size_of_kind hk rfl
    · cases hb
  case h_2 => exact .pure fun b hb => nomatch hb

theorem keeps_transition (state : String) (id : StmtId) :
    Keeps (transition names state id) s fun bodies => ∀ b ∈ bodies, b < s.activity.stmts.size := by
  refine .bind_activity ?_
  split
  case h_1 trigger bodies hk =>
    refine (Keeps.mapM fun b _ t ht => ht.size ▸ keeps_transitionBody b).bind
      fun bodies' t hbodies ht => .ite ?_ (.pure (forall_mem_flatten hbodies))
    refine (keeps_ambiguous _ (ht.size ▸ forall_mem_flatten hbodies)).bind fun _ _ _ _ => .pure ?_
    exact fun b hb => nomatch hb
  case h_2 => exact .pure fun b hb => nomatch hb

theorem keeps_state (id : StmtId) : Keeps (state names id) s fun _ => True := by
  refine .bind_activity ?_
  split
  case h_1 =>
    exact (Keeps.mapM fun b _ t ht => ht.size ▸ keeps_transition _ b).bind fun bodies t hbodies ht =>
      keeps_ambiguous _ (ht.size ▸ forall_mem_flatten hbodies)
  case h_2 => exact .pure trivial

theorem keeps_stateMachine (id : StmtId) : Keeps (stateMachine id) s fun _ => True := by
  refine .bind_activity ?_
  split
  case h_2 => exact .pure trivial
  case h_1 states start first hk =>
    have hid : id < s.activity.stmts.size := Activity.lt_size_of_kind hk rfl
    have hrest : ∀ first t, s.Keeps t → Keeps (do
        states.forM (state (named s.activity states))
        setKind id (.stateMachine states start first)) t fun _ => True := by
      intro first t ht
      refine (Keeps.forM fun st _ u _ => keeps_state st).bind fun _ u _ hu => .setKind ?_
      have hold := (ht.trans hu).kind id
      rw [hk] at hold
      exact hold.symm.trans rfl
    refine (keeps_startState states hid fun r hr => .of_kind hk hr).bind
      fun first t _ ht => .ite ?_ (hrest _ t ht)
    have hplace : t.activity.HasPlace (s.activity.stmtSpan id) := ht.hasPlace_iff.2 (.of_lt hid)
    exact (Keeps.report _ rfl hplace).bind fun _ u _ hu => hrest _ u (ht.trans hu)

theorem keeps_declareHandle {request : StmtId} (h : request < s.activity.stmts.size) :
    Keeps (declareHandle request) s fun _ => True := by
  refine ⟨trivial, ?_⟩
  unfold declareHandle
  have hnext : s.activity.Keeps (s.activity.nextTemp "handle").2 :=
    { Activity.Keeps.refl s.activity with sound := fun h => h.of_arena rfl rfl rfl rfl }
  have hplace : s.activity.HasPlace (s.activity.stmtSpan request) := .of_lt h
  dsimp only [modifyGet, MonadStateOf.modifyGet, StateT.modifyGet]
  split
  case h_1 k b hd =>
    obtain ⟨hfree, rfl, rfl⟩ := Activity.declare_eq_ok hd
    constructor
    case toKeeps => exact hnext.trans (.addStore hfree rfl rfl rfl)
    case markers => exact Nat.le_succ _
    case fresh =>
      refine ⟨{s.ids.markers + 1}, Activity.storeMarkers_addStore _ _, ?_⟩
      exact le_of_eq (congrArg Finset.val (Nat.Ioc_succ_singleton s.ids.markers)).symm
    case clear => exact id
    case added =>
      intro st hst
      rcases Array.mem_push.1 hst with hst | rfl
      · exact .inl hst
      · exact .inr hplace
    case reported => exact fun _ => .inl
  case h_2 e he =>
    refine ⟨hnext, Nat.le_succ _, ⟨0, (add_zero _).symm, Multiset.zero_le _⟩,
      fun hs => hs.push (CompileError.not_isUnanswered_of_cause (checked_declare _ _ e he)),
      fun _ => .inl, fun e' he' => (mem_append.1 he').imp_right fun he' => ?_⟩
    unfold Activity.declare at he
    split at he <;> cases he
    rw [mem_singleton.1 he']
    exact hplace

theorem keeps_correlateReply (ops before : List StmtId) {id : StmtId} {reply : ServiceOperation}
    (h : s.activity.service? id = some reply) :
    Keeps (correlateReply ops before id reply) s fun _ => True := by
  have hplace : s.activity.HasPlace (s.activity.stmtSpan id) :=
    .of_lt (Activity.lt_size_of_service? h)
  refine .bind_activity ?_
  dsimp only
  split
  · exact .report _ rfl hplace
  split
  · exact .pure trivial
  next request hrequest =>
  refine .ite (.report _ rfl hplace) ?_
  refine (keeps_declareHandle (Activity.lt_size_of_service? hrequest)).bind fun handle t _ _ => ?_
  cases handle with
  | none => exact .pure trivial
  | some handle =>
    refine (Keeps.modifyService _ (by intro op; rfl)).bind fun _ _ _ _ => ?_
    exact .modifyService _ (by intro op; rfl)

theorem keeps_correlateFrom (ops before rest : List StmtId) :
    Keeps (correlateFrom ops before rest) s fun _ => True := by
  induction rest generalizing s before with
  | nil => exact .pure trivial
  | cons id rest ih =>
    refine .bind_activity ?_
    dsimp only
    split
    · next reply hreply =>
      refine .ite ?_ (ih _)
      exact (keeps_correlateReply _ _ hreply).bind fun _ _ _ _ => ih _
    · exact ih _

theorem keeps_all : Keeps all s fun _ => True := by
  refine .bind_activity ?_
  refine (Keeps.forM fun id _ s _ => ?_).bind fun _ t _ _ =>
    .bind_activity (keeps_correlateFrom _ _ _)
  refine .bind_activity ?_
  split
  · exact keeps_flow id
  · exact keeps_stateMachine id
  · exact .pure trivial

end Resolve

namespace Activity

theorem keeps_resolve (ids : Ids) (errors : Diagnostics) (a : Activity) :
    a.Keeps (a.resolve ids errors).1 :=
  (Resolve.keeps_all (s := { ids := ids, activity := a, errors := errors })).2.toKeeps

/-- Resolution only reports what is wrong with the program. -/
theorem clear_resolve (ids : Ids) (herrors : errors.Clear) (a : Activity) :
    (a.resolve ids errors).2.2.Clear :=
  (Resolve.keeps_all (s := { ids := ids, activity := a, errors := errors })).2.clear herrors

/-- Resolution reports its errors and declares its stores at places of the activity. -/
theorem placed_resolve (ids : Ids) (errors : Diagnostics) {a : Activity} (ha : a.Placed P) :
    (a.resolve ids errors).1.Placed P ∧
      ∀ e ∈ (a.resolve ids errors).2.2.errors, e ∈ errors.errors ∨ P e.span := by
  have h := (Resolve.keeps_all (s := { ids := ids, activity := a, errors := errors })).2
  refine ⟨⟨fun i hi => ha.of_hasPlace (h.hasPlace_iff.1 (.of_lt hi)),
    fun i => (h.kind i).placed (ha.kind i), fun k st hst => ?_⟩,
    fun e he => (h.reported e he).imp_right ha.of_hasPlace⟩
  refine (h.added st (Array.mem_of_getElem? hst)).elim (fun hold => ?_) ha.of_hasPlace
  obtain ⟨k, hk⟩ := Array.getElem?_of_mem hold
  exact ha.stores k st hk

/-- Resolution gives out markers after the last one, and the stores that it adds take them. -/
theorem markers_resolve (ids : Ids) (errors : Diagnostics) (a : Activity) :
    ids.markers ≤ (a.resolve ids errors).2.1.markers ∧ (a.resolve ids errors).1.tokens.2.1 ≤
      a.tokens.2.1 + (Finset.Ioc ids.markers (a.resolve ids errors).2.1.markers).val := by
  have h := (Resolve.keeps_all (s := { ids := ids, activity := a, errors := errors })).2
  refine ⟨h.markers, ?_⟩
  obtain ⟨new, hnew, hle⟩ := h.fresh
  have htokens : (a.resolve ids errors).1.tokens.2.1 + a.storeMarkers =
      a.tokens.2.1 + (a.resolve ids errors).1.storeMarkers :=
    congrArg (fun t : Tokens => t.2.1) h.tokens_add
  have hsum : (a.resolve ids errors).1.tokens.2.1 = a.tokens.2.1 + new := by
    refine add_right_cancel (b := a.storeMarkers) ?_
    rw [htokens, add_assoc, add_comm new]
    exact congrArg _ hnew
  rw [hsum]
  exact add_le_add (le_refl _) hle

end Activity

end Workflow
