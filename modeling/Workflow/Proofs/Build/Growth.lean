import Workflow.Proofs.Build.Checks
import Workflow.Proofs.Build.Place

/-!
# Building only adds

A step of the construction leaves the statements that are there as they are. It adds statements that
fill the places after them, and stores whose names are free. Every token that it gives out goes to
one statement or store, and no number is ever taken back. A step that stops does so with an error
about the program, in the unit that is built.
-/

namespace Workflow

open Activity List CodeStmt

variable {name : String} {q : Option StmtId} {k : StmtKind}

def BuildState.issued (s : BuildState) : Tokens :=
  ((Finset.Ioc 0 s.ids.exprs).val, (Finset.Ioc 0 s.ids.markers).val, s.activity.initialized)

namespace Build

variable {α β : Type} {x : Build α} {f : α → Build β} {s t u : BuildState} {S : Source}
  {Q : α → BuildState → Prop} {R : β → BuildState → Prop} {node : ParseNode} {d : Nat}

/-- A step that succeeds has the property, one that stops has an error about the source. -/
structure Ok (S : Source) (x : Build α) (s : BuildState) (Q : α → BuildState → Prop) : Prop where
  ok : ∀ a t, x s = .ok a t → s.ids.Le t.ids ∧ Q a t
  error : ∀ e t, x s = .error e t → s.ids.Le t.ids ∧ e.Blames S

namespace Ok

theorem of_run {a : α} (hx : x s = .ok a t) (hle : s.ids.Le t.ids) (h : Q a t) : Ok S x s Q := by
  constructor
  · intro b u hb
    cases hx.symm.trans hb
    exact ⟨hle, h⟩
  · intro e u he
    cases hx.symm.trans he

theorem pure {a : α} (h : Q a s) : Ok S (Pure.pure a) s Q := of_run rfl (.refl _) h

theorem bind (hx : Ok S x s Q) (hf : ∀ a t, Q a t → Ok S (f a) t R) : Ok S (x >>= f) s R := by
  have hrun : (x >>= f) s = match x s with
      | .ok a t => f a t
      | .error e t => .error e t := by
    change EStateM.bind x f s = _
    unfold EStateM.bind
    cases x s <;> rfl
  cases hxs : x s with
  | ok a t =>
    rw [hxs] at hrun
    obtain ⟨hle, ha⟩ := hx.ok a t hxs
    obtain ⟨hok, herror⟩ := hf a t ha
    exact ⟨fun b u h => (hok b u (hrun.symm.trans h)).imp_left hle.trans,
      fun e u h => (herror e u (hrun.symm.trans h)).imp_left hle.trans⟩
  | error e t =>
    rw [hxs] at hrun
    constructor
    · intro b u h
      cases hrun.symm.trans h
    · intro e' u h
      cases hrun.symm.trans h
      exact hx.error e t hxs

theorem mono {P : α → BuildState → Prop} (hx : Ok S x s P) (h : ∀ a t, P a t → Q a t) : Ok S x s Q :=
  ⟨fun a t hat => (hx.ok a t hat).imp_right (h a t), hx.error⟩

theorem map {g : α → β} (hx : Ok S x s fun a t => R (g a) t) : Ok S (g <$> x) s R := by
  exact hx.bind fun a t h => pure h

theorem throw (he : e.Blames S) : Ok S (MonadExcept.throw e) s Q := by
  constructor
  · rintro _ _ ⟨⟩
  · rintro _ _ ⟨⟩
    exact ⟨.refl _, he⟩

theorem fail (cause : Cause) (span : Span) (h : cause.isInternal = false) :
    Ok S (Build.fail cause (span.inUnit S.unit)) s Q := throw ⟨h, .inl rfl⟩

theorem invalid (node : ParseNode) (detail : String) :
    Ok S (Build.invalid S.unit node detail) s Q := fail _ _ rfl

theorem bind_check {e : Except CompileError α} (he : ∀ e', e = .error e' → e'.Blames S)
    (h : ∀ a, e = .ok a → Ok S (f a) s R) : Ok S (check e >>= f) s R := by
  cases e with
  | error e => exact Ok.bind (Q := fun _ _ => False) (throw (he e rfl)) fun _ _ h => h.elim
  | ok a => exact h a rfl

theorem bind_require {f : ParseNode → Build β} (hn : node.Below S (d + 1))
    (h : ∀ m, m.Below S d → Ok S (f m) s R) : Ok S (check (node.require name) >>= f) s R :=
  bind_check (fun _ he => hn.blames (.member name he)) fun m hm =>
    h m (hn.member (ParseNode.member_of_require hm))

theorem bind_text {f : String → Build β} (hn : node.Below S d) (h : ∀ text, Ok S (f text) s R) :
    Ok S (check node.requireText >>= f) s R :=
  bind_check (fun _ he => hn.blames (.text he)) fun text _ => h text

theorem bind_expr {f : ParseNode × Expr → Build β} (hn : node.Below S d) (h : ∀ p, Ok S (f p) s R) :
    Ok S (check (node.requireExpr name) >>= f) s R :=
  bind_check (fun _ he => hn.blames (.expr name he)) fun p _ => h p

theorem bind_optionalExpr {f : Option (ParseNode × Expr) → Build β} (hn : node.Below S d)
    (h : ∀ o, Ok S (f o) s R) : Ok S (check (node.optionalExpr name) >>= f) s R := by
  refine bind_check (fun e he => hn.blames (.expr name ?_)) fun o _ => h o
  unfold ParseNode.optionalExpr at he
  split at he
  · cases he
  · cases hexpr : node.requireExpr name with
    | ok p =>
      rw [hexpr] at he
      cases he
    | error e' =>
      rw [hexpr] at he
      cases he
      rfl

theorem bind_activity {f : Activity → Build β} (h : Ok S (f s.activity) s R) :
    Ok S (activity >>= f) s R := ⟨h.ok, h.error⟩

theorem bind_modifyActivity {g : Activity → Activity} {f : Unit → Build β}
    (h : Ok S (f ()) { s with activity := g s.activity } R) :
    Ok S (Build.modifyActivity g >>= f) s R := ⟨h.ok, h.error⟩

theorem ite {c : Prop} [Decidable c] {y : Build α} (hx : c → Ok S x s Q) (hy : ¬c → Ok S y s Q) :
    Ok S (if c then x else y) s Q := by
  split
  case isTrue h => exact hx h
  case isFalse h => exact hy h

theorem bind_fail {cause : Cause} {span : Span} (h : cause.isInternal = false) :
    Ok S (Build.fail cause (span.inUnit S.unit) >>= f) s R :=
  Ok.bind (Q := fun _ _ => False) (fail cause span h) fun _ _ hfalse => hfalse.elim

theorem bind_invalid : Ok S (Build.invalid S.unit node detail >>= f) s R := bind_fail rfl

theorem modifyActivity {g : Activity → Activity} {Q : Unit → BuildState → Prop}
    (h : Q () { s with activity := g s.activity }) : Ok S (Build.modifyActivity g) s Q :=
  of_run rfl (.refl _) h

end Ok

/-! ### What a step adds -/

/-- The activity is intact and the statement around what is built next is there. -/
structure Ready (S : Source) (p : Option StmtId) (s : BuildState) : Prop where
  intact : s.activity.Intact S.unit
  inside : ∀ i ∈ p, i < s.activity.stmts.size

/-- From `s` to `t` the statements `ids` were added inside `p`, with tokens that nothing holds yet.
-/
structure Added (S : Source) (p : Option StmtId) (s t : BuildState) (ids : List StmtId)
    (own : Tokens) : Prop where
  intact : t.activity.Intact S.unit
  header : t.activity.header = s.activity.header
  size : s.activity.stmts.size ≤ t.activity.stmts.size
  parent : ∀ i < s.activity.stmts.size, t.activity.parent i = s.activity.parent i
  tag : ∀ i < s.activity.stmts.size, t.activity.tag i = s.activity.tag i
  kind : ∀ i < s.activity.stmts.size, t.activity.kind i = s.activity.kind i
  stores : s.activity.StoresStay t.activity
  operations : ∀ i ∈ t.activity.serviceOperations,
    i ∈ s.activity.serviceOperations ∨ s.activity.stmts.size ≤ i ∨ p = some i
  fills : t.activity.Fills p ids s.activity.stmts.size t.activity.stmts.size
  first : ∀ i, s.activity.stmts.size ≤ i → i < t.activity.stmts.size →
    t.activity.SeesFirst i (t.activity.kind i) ∧ t.activity.Sheltered i (t.activity.kind i)
  balance : t.activity.tokens + s.issued + own = s.activity.tokens + t.issued

namespace Added

variable {p : Option StmtId} {xs ys : List StmtId} {o o' : Tokens}

theorem ready (h : Added S p s t xs o) (hr : Ready S q s) : Ready S q t where
  intact := h.intact
  inside i hi := Nat.lt_of_lt_of_le (hr.inside i hi) h.size

theorem trans (h : Added S p s t xs o) (h' : Added S p t u ys o') :
    Added S p s u (xs ++ ys) (o + o') where
  intact := h'.intact
  header := h'.header.trans h.header
  size := Nat.le_trans h.size h'.size
  parent i hi := (h'.parent i (Nat.lt_of_lt_of_le hi h.size)).trans (h.parent i hi)
  tag i hi := (h'.tag i (Nat.lt_of_lt_of_le hi h.size)).trans (h.tag i hi)
  kind i hi := (h'.kind i (Nat.lt_of_lt_of_le hi h.size)).trans (h.kind i hi)
  stores := h.stores.trans h'.stores
  operations i hi := by
    rcases h'.operations i hi with hi | hi | hi
    · exact h.operations i hi
    · exact .inr (.inl (Nat.le_trans h.size hi))
    · exact .inr (.inr hi)
  fills := by
    refine (h.fills.congr (fun i _ hi => ?_) h'.stores).append h'.fills
    exact ⟨h'.parent i hi, h'.tag i hi, h'.kind i hi⟩
  first i hi hlt := by
    by_cases hold : i < t.activity.stmts.size
    · rw [h'.kind i hold]
      exact (h.first i hi hold).imp
        (·.stay h.intact.sound.parentsFirst h'.parent hold h'.stores)
        (·.stay h.intact.sound.parentsFirst h'.parent h'.tag hold)
    · exact h'.first i (Nat.le_of_not_lt hold) hlt
  balance := by
    -- what is held and given out in between cancels
    refine add_right_cancel (b := t.activity.tokens + t.issued) ?_
    calc u.activity.tokens + s.issued + (o + o') + (t.activity.tokens + t.issued)
        = (t.activity.tokens + s.issued + o) + (u.activity.tokens + t.issued + o') := by abel
      _ = (s.activity.tokens + t.issued) + (t.activity.tokens + u.issued) := by
        rw [h.balance, h'.balance]
      _ = s.activity.tokens + u.issued + (t.activity.tokens + t.issued) := by abel

theorem cast (h : Added S p s t xs o) (hown : o = o') : Added S p s t xs o' := hown ▸ h

theorem lt_stores (h : Added S p s t xs o) {k : StoreId} (hk : k < s.activity.stores.size) :
    k < t.activity.stores.size := by
  obtain ⟨st, hst, -⟩ := h.stores k _ (Array.getElem?_eq_getElem hk)
  exact (Array.getElem?_eq_some_iff.1 hst).1

theorem size_eq (h : Added S p s t [] o) : t.activity.stmts.size = s.activity.stmts.size := by
  have hfills := h.fills
  generalize s.activity.stmts.size = lo at hfills ⊢
  cases hfills
  rfl

theorem of_kinds_eq (hintact : t.activity.Intact S.unit)
    (hheader : t.activity.header = s.activity.header)
    (hsize : t.activity.stmts.size = s.activity.stmts.size)
    (hparent : ∀ i, t.activity.parent i = s.activity.parent i)
    (htag : ∀ i, t.activity.tag i = s.activity.tag i)
    (hkind : ∀ i, t.activity.kind i = s.activity.kind i)
    (hstores : s.activity.StoresStay t.activity)
    (hops : ∀ i ∈ t.activity.serviceOperations, i ∈ s.activity.serviceOperations ∨ p = some i)
    (hbalance : t.activity.tokens + s.issued + o = s.activity.tokens + t.issued) :
    Added S p s t [] o where
  intact := hintact
  header := hheader
  size := Nat.le_of_eq hsize.symm
  parent i _ := hparent i
  tag i _ := htag i
  kind i _ := hkind i
  stores := hstores
  operations i hi := (hops i hi).imp_right .inr
  fills := by
    rw [hsize]
    exact .nil _ _
  first i hi hlt := absurd (Nat.lt_of_lt_of_eq hlt hsize) (Nat.not_lt.2 hi)
  balance := hbalance

theorem of_issued (hr : Ready S p s) {exprs markers : Nat} (hexprs : s.ids.exprs ≤ exprs)
    (hmarkers : s.ids.markers ≤ markers) :
    Added S p s { s with ids := { exprs := exprs, markers := markers } } []
      ((Finset.Ioc s.ids.exprs exprs).val, (Finset.Ioc s.ids.markers markers).val, 0) := by
  refine of_kinds_eq hr.intact rfl rfl (fun _ => rfl) (fun _ => rfl) (fun _ => rfl) (.of_eq rfl)
    (fun _ => .inl) ?_
  simp only [BuildState.issued, add_assoc, Prod.mk_add_mk, add_zero,
    Ioc_val_add (Nat.zero_le _) hexprs, Ioc_val_add (Nat.zero_le _) hmarkers]

end Added

/-- What was added: the statements `ids` are not chained, `inner` are no parts, and nothing holds
the fragments `fs` yet. -/
structure Grown (S : Source) (p : Option StmtId) (s t : BuildState) (ids inner : List StmtId)
    (fs : List Fragment) : Prop extends Added S p s t ids (fs.map Fragment.tokens).sum where
  unchained : ∀ id ∈ ids, Lower.chainedTo t.activity id = none
  alone : ∀ m ∈ inner, t.activity.StandsAlone m
  prepared : ∀ f ∈ fs, f.IsPrepared S.unit

namespace Grown

variable {p : Option StmtId} {xs ys is js : List StmtId} {fs gs : List Fragment}

theorem trans (h : Grown S p s t xs is fs) (h' : Grown S p t u ys js gs) :
    Grown S p s u (xs ++ ys) (is ++ js) (fs ++ gs) where
  toAdded := (h.toAdded.trans h'.toAdded).cast (by rw [map_append, sum_append])
  unchained id hid := by
    rcases mem_append.1 hid with hid | hid
    · rw [Lower.chainedTo, h'.kind id (h.fills.mem_lt hid)]
      exact h.unchained id hid
    · exact h'.unchained id hid
  alone m hm := by
    rcases mem_append.1 hm with hm | hm
    · obtain ⟨hlt, hpart⟩ := h.alone m hm
      exact ⟨Nat.lt_of_lt_of_le hlt h'.size, h'.tag m hlt ▸ hpart⟩
    · exact h'.alone m hm
  prepared := forall_mem_append.2 ⟨h.prepared, h'.prepared⟩

theorem cast (h : Grown S p s t xs is fs) (hids : xs = ys) (hinner : is = js) (hfs : fs = gs) :
    Grown S p s t ys js gs := hids ▸ hinner ▸ hfs ▸ h

theorem trans_nil (h : Grown S p s t xs is fs) (h' : Grown S p t u [] [] []) :
    Grown S p s u xs is fs :=
  (h.trans h').cast (append_nil _) (append_nil _) (append_nil _)

theorem of_added (h : Added S p s t [] 0) : Grown S p s t [] [] [] where
  toAdded := h
  unchained _ hid := by cases hid
  alone _ hm := by cases hm
  prepared _ hf := by cases hf

theorem inside (h : Grown S none s t [] [] fs) : Grown S p s t [] [] fs where
  toAdded :=
    { h.toAdded with
      operations := fun i hi => (h.operations i hi).imp_right fun h' =>
        h'.imp_right fun hnone => by cases hnone
      fills := h.size_eq ▸ .nil _ _ }
  unchained := h.unchained
  alone := h.alone
  prepared := h.prepared

theorem of_arena_eq (hintact : t.activity.Intact S.unit)
    (hheader : t.activity.header = s.activity.header) (hstmts : t.activity.stmts = s.activity.stmts)
    (hstores : t.activity.stores = s.activity.stores)
    (hops : ∀ i ∈ t.activity.serviceOperations, i ∈ s.activity.serviceOperations ∨ p = some i)
    (hids : t.ids = s.ids) : Grown S p s t [] [] [] := by
  have hkind : ∀ i, t.activity.kind i = s.activity.kind i := fun i => by
    rw [kind, kind, hstmts]
  have htokens : t.activity.tokens = s.activity.tokens :=
    tokens_congr (by rw [hstmts]) (fun i _ => by rw [hkind])
      (by rw [storeMarkers, storeMarkers, hstores])
  refine .of_added (.of_kinds_eq hintact hheader (by rw [hstmts]) (fun i => ?_) (fun i => ?_) hkind
    (.of_eq hstores) hops ?_)
  · rw [parent, parent, hstmts]
  · rw [tag, tag, hstmts]
  · rw [htokens, BuildState.issued, BuildState.issued, hids, initialized,
      initialized, hstores, add_zero]

theorem refl (hr : Ready S p s) : Grown S p s s [] [] [] :=
  of_arena_eq hr.intact rfl rfl rfl (fun _ => .inl) rfl

end Grown

/-! ### Statements -/

/-- From `s` to `t` all was added that the parts `k` of a statement hold. -/
structure Fitted (S : Source) (id : StmtId) (s t : BuildState) (k : StmtKind) : Prop where
  added : Added S (some id) s t k.children k.tokens
  tag : s.activity.tag id = k.tag
  linked : t.activity.Linked id k
  first : t.activity.SeesFirst id k
  sheltered : t.activity.Sheltered id k
  suits : k.Suits S.unit t.activity id
  unchained : k.chained = none

/-- The statements that were added are parts of a construct, of the given kinds. -/
structure Parts (S : Source) (p : Option StmtId) (tags : List StmtTag) (s t : BuildState)
    (ids : List StmtId) : Prop extends Grown S p s t ids [] [] where
  tags : ∀ m ∈ ids, t.activity.tag m ∈ tags

namespace Parts

variable {p : Option StmtId} {tags : List StmtTag} {xs ys : List StmtId}

theorem nil (hr : Ready S p s) : Parts S p tags s s [] := ⟨.refl hr, fun _ hm => by cases hm⟩

theorem stay (h : Parts S p tags s t xs) (h' : Added S q t u ys o) :
    ∀ m ∈ xs, u.activity.tag m ∈ tags := by
  intro m hm
  rw [h'.tag m (h.fills.mem_lt hm)]
  exact h.tags m hm

theorem append (h : Parts S p tags s t xs) (h' : Parts S p tags t u ys) :
    Parts S p tags s u (xs ++ ys) :=
  ⟨h.toGrown.trans h'.toGrown, forall_mem_append.2 ⟨h.stay h'.toAdded, h'.tags⟩⟩

theorem weaken (h : Parts S p tags s t xs) (hsub : tags ⊆ tags') :
    Parts S p tags' s t xs := ⟨h.toGrown, fun m hm => hsub (h.tags m hm)⟩

theorem standing {id : StmtId} {tag : StmtTag} (h : Parts S p [tag] s t [id])
    (htag : tag.isPart = false) : Grown S p s t [id] [id] [] where
  toAdded := h.toAdded
  unchained := h.unchained
  alone m hm := by
    refine ⟨h.fills.mem_lt hm, ?_⟩
    rw [mem_singleton.1 (h.tags m hm), htag]
  prepared := h.prepared

end Parts

section Steps

variable {p : Option StmtId} {id : StmtId}

/-- The statement at the end of the arena was added for parts that come later. -/
def Opened (S : Source) (p : Option StmtId) (tag : StmtTag) (s t : BuildState) (id : StmtId) :
    Prop :=
  id = s.activity.stmts.size ∧
    ∃ span : Span, t = { s with activity := (s.activity.alloc tag p (span.inUnit S.unit)).2 }

theorem ok_alloc (tag : StmtTag) (p : Option StmtId) (span : Span) :
    Ok S (alloc tag p (span.inUnit S.unit)) s fun id t => Opened S p tag s t id :=
  .of_run rfl (.refl _) ⟨rfl, span, rfl⟩

namespace Opened

variable {tag : StmtTag}

theorem ready (h : Opened S p tag s t id) (hr : Ready S p s) : Ready S (some id) t := by
  obtain ⟨rfl, span, rfl⟩ := h
  refine ⟨hr.intact.alloc tag span hr.inside, fun i hi => ?_⟩
  cases hi
  simp

theorem tag_eq (h : Opened S p tag s t id) : t.activity.tag id = tag := by
  obtain ⟨rfl, span, rfl⟩ := h
  rw [Activity.tag, Activity.getElem?_alloc_self]

theorem parent_eq (h : Opened S p tag s t id) : t.activity.parent id = p := by
  obtain ⟨rfl, span, rfl⟩ := h
  rw [parent, getElem?_alloc_self]
  rfl

theorem last (h : Opened S p tag s t id) (hr : Ready S p s) :
    ∀ i ∈ t.activity.serviceOperations, i < id := by
  obtain ⟨rfl, span, rfl⟩ := h
  exact fun i hi => (hr.intact.service i hi).1

theorem sees {parent : StmtId} {xs : List StmtId} {o : Tokens}
    (ho : Opened S (some parent) tag s t id) (hg : Added S q t u xs o)
    (hr : Ready S (some parent) s) {h : StoreHost} (hs : s.activity.Sees (.statement parent) h) :
    u.activity.Sees (.statement id) h := by
  have hparent := ho.parent_eq
  obtain ⟨rfl, span, rfl⟩ := ho
  have hlt : s.activity.stmts.size <
      (s.activity.alloc tag (some parent) (span.inUnit S.unit)).2.stmts.size := by simp
  have hid : u.activity.parent s.activity.stmts.size = some parent :=
    (hg.parent _ hlt).trans hparent
  have hbefore : ∀ i < s.activity.stmts.size, u.activity.parent i = s.activity.parent i :=
    fun i hi => by
      rw [hg.parent i (Nat.lt_trans hi hlt), Activity.parent,
        Activity.getElem?_alloc_of_lt _ _ _ _ hi, Activity.parent]
  cases h with
  | activity => trivial
  | statement j =>
    refine within_iff.2 (.inr ⟨parent, hid, ?_⟩)
    exact (Within.congr hr.intact.sound.parentsFirst hbefore (hr.inside parent rfl)).2 hs

theorem close_kind (ho : Opened S p tag s t id) (hk : Fitted S id t u k) :
    Ok S (setKind id k) u fun _ v => Parts S p [tag] s v [id] ∧ v.activity.kind id = k := by
  have hg := hk.added
  have htag := ho.tag_eq
  obtain ⟨rfl, span, rfl⟩ := ho
  have hlt : s.activity.stmts.size <
      (s.activity.alloc tag p (span.inUnit S.unit)).2.stmts.size := by simp
  have hin := Nat.lt_of_lt_of_le hlt hg.size
  refine .modifyActivity ⟨⟨?_, fun m hm => ?_⟩, kind_setKind_self _ _ _ hin⟩
  case refine_2 =>
    rw [mem_singleton.1 hm, tag_setKind, hg.tag _ hlt, htag]
    exact mem_singleton.2 rfl
  have hget : ∀ i < s.activity.stmts.size, (s.activity.alloc tag p
      (span.inUnit S.unit)).2.stmts[i]? = s.activity.stmts[i]? := fun i hi =>
    getElem?_alloc_of_lt _ _ _ _ hi
  have hnew := getElem?_alloc_self s.activity tag p (span.inUnit S.unit)
  have hempty : u.activity.kind s.activity.stmts.size = .empty := by
    rw [hg.kind _ hlt, kind, hnew]
  have hkind : (u.activity.setKind s.activity.stmts.size k).kind s.activity.stmts.size = k :=
    kind_setKind_self _ _ _ hin
  constructor
  case unchained =>
    intro id hid
    rw [mem_singleton.1 hid, chainedTo_eq, hkind, hk.unchained]
  case alone =>
    intro m hm
    cases hm
  case prepared =>
    intro f hf
    cases hf
  constructor
  case intact => exact hg.intact.setKind hk.suits
  case header => exact hg.header
  case size =>
    rw [size_setKind]
    exact Nat.le_of_lt hin
  case parent =>
    intro i hi
    rw [parent_setKind, hg.parent i (Nat.lt_trans hi hlt), parent, hget i hi]
    rfl
  case tag =>
    intro i hi
    rw [Activity.tag_setKind, hg.tag i (Nat.lt_trans hi hlt), Activity.tag, hget i hi]
    rfl
  case kind =>
    intro i hi
    rw [kind_setKind_of_ne _ _ _ (Nat.ne_of_lt hi), hg.kind i (Nat.lt_trans hi hlt),
      kind, hget i hi]
    rfl
  case fills =>
    rw [size_setKind]
    have hinner : (u.activity.setKind s.activity.stmts.size k).Fills (some s.activity.stmts.size)
        k.children (s.activity.stmts.size + 1) u.activity.stmts.size := by
      have hfills := hg.fills
      rw [size_alloc] at hfills
      refine hfills.congr (fun i hi _ => ?_) (.of_eq rfl)
      rw [parent_setKind, tag_setKind,
        kind_setKind_of_ne _ _ _ (Nat.ne_of_gt hi)]
      exact ⟨rfl, rfl, rfl⟩
    have hlinks : (u.activity.setKind s.activity.stmts.size k).Linked s.activity.stmts.size k :=
      hk.linked.congr (fun m hm => ⟨tag_setKind _ _ _ _, kind_setKind_of_ne _ _ _
        (Nat.ne_of_gt (hinner.mem_le hm))⟩) (.of_eq rfl)
    refine .cons ?_ ?_ (hkind.symm ▸ hlinks) (hkind.symm ▸ hinner) (.nil _ _)
    · rw [parent_setKind, hg.parent _ hlt, parent, hnew]
      rfl
    · rw [hkind, tag_setKind, hg.tag _ hlt, hk.tag]
  case first =>
    intro i hi hlt'
    rw [size_setKind] at hlt'
    have hstay : ∀ {k'}, u.activity.SeesFirst i k' ∧ u.activity.Sheltered i k' →
        (u.activity.setKind s.activity.stmts.size k).SeesFirst i k' ∧
          (u.activity.setKind s.activity.stmts.size k).Sheltered i k' := fun h =>
      have hparent := fun m (_ : m < _) => parent_setKind u.activity _ k m
      h.imp (·.stay hg.intact.sound.parentsFirst hparent hlt' (.of_eq rfl))
        (·.stay hg.intact.sound.parentsFirst hparent (fun m _ => tag_setKind _ _ _ m) hlt')
    rcases Nat.eq_or_lt_of_le hi with rfl | hi
    · rw [hkind]
      exact hstay ⟨hk.first, hk.sheltered⟩
    · rw [kind_setKind_of_ne _ _ _ (Nat.ne_of_gt hi)]
      refine hstay (hg.first i ?_ hlt')
      rw [size_alloc]
      exact hi
  case stores => exact hg.stores
  case operations =>
    intro i hi
    rcases hg.operations i hi with hi | hi | hi
    · exact .inl hi
    · exact .inr (.inl (Nat.le_trans (Nat.le_of_lt hlt) hi))
    · cases hi
      exact .inr (.inl (Nat.le_refl _))
  case balance =>
    have hset := tokens_setKind u.activity k hin
    have hbalance := hg.balance
    rw [hempty, show StmtKind.empty.tokens = 0 from rfl, add_zero] at hset
    rw [tokens_alloc] at hbalance
    calc (u.activity.setKind s.activity.stmts.size k).tokens + s.issued + 0
        = u.activity.tokens + s.issued + k.tokens := by
          rw [hset]
          abel
      _ = s.activity.tokens + u.issued := hbalance

theorem close (ho : Opened S p tag s t id) (hk : Fitted S id t u k) :
    Ok S (setKind id k) u fun _ v => Parts S p [tag] s v [id] :=
  (ho.close_kind hk).mono fun _ _ h => h.1

end Opened

/-- What a statement that is neither code nor a sequence refers to is there and of the right kind. -/
structure Refers (S : Source) (t : BuildState) (id : StmtId) (k : StmtKind) : Prop where
  code : (k.tag == .code || k.tag == .sequence) = false
  parts : ∀ m ∈ k.parts.1, t.activity.tag m ∈ k.parts.2
  item : ∀ i ∈ k.item, t.activity.IsItem id i
  request : ∀ m ∈ k.request, t.activity.tag m = .service
  service : ∀ op, k = .service op → id ∈ t.activity.serviceOperations ∧ op.IsUnlinked
  stores : ∀ i ∈ k.storeRefs, i < t.activity.stores.size
  refs : ∀ r ∈ k.refs, r.span.unit = S.unit
  ruled : t.activity.Ruled k
  sheltered : t.activity.Sheltered id k

namespace Refers

variable {k : StmtKind}

/-- Whether a statement has neither code nor an item nor operations. -/
def isSimple : StmtKind → Bool
  | .code .. | .sequence .. | .forEach .. | .service .. | .transactedReceive .. => false
  | _ => true

/-- Whether there are rules about a statement. -/
def isRuled : StmtKind → Bool
  | .guarded .. | .stateMachine .. | .state .. | .transition .. | .flow .. | .raise .. | .persist =>
    true
  | _ => false

theorem of_ruled (h : isSimple k = true) (hparts : ∀ m ∈ k.parts.1, t.activity.tag m ∈ k.parts.2)
    (hstores : ∀ i ∈ k.storeRefs, i < t.activity.stores.size)
    (hrefs : ∀ r ∈ k.refs, r.span.unit = S.unit) (hruled : t.activity.Ruled k)
    (hsheltered : t.activity.Sheltered id k) : Refers S t id k := by
  cases k <;> simp only [isSimple, Bool.false_eq_true] at h <;>
    exact ⟨rfl, hparts, fun _ hi => (by cases hi), fun _ hm => (by cases hm),
      fun _ hop => (by cases hop), hstores, hrefs, hruled, hsheltered⟩

theorem of_simple (h : (isSimple k && !isRuled k) = true)
    (hparts : ∀ m ∈ k.parts.1, t.activity.tag m ∈ k.parts.2)
    (hstores : ∀ i ∈ k.storeRefs, i < t.activity.stores.size)
    (hrefs : ∀ r ∈ k.refs, r.span.unit = S.unit) : Refers S t id k := by
  refine of_ruled (Bool.and_eq_true_iff.1 h).1 hparts hstores hrefs ?_ ?_
  all_goals cases k <;> first
    | exact ruled_of_face rfl rfl rfl
    | exact sheltered_of_tag rfl
    | cases h

theorem plain (h : (isSimple k && !isRuled k) = true) (hparts : k.parts.1 = [])
    (hstores : k.storeRefs = []) (hrefs : k.refs = []) : Refers S t id k :=
  of_simple h (by simp [hparts]) (by simp [hstores]) (by simp [hrefs])

end Refers

theorem without_code (h : (k.tag == .code) = false) :
    k.codeTokens = 0 ∧ k.declares = none ∧ k.body = [] ∧ k.chained = none := by
  cases k <;> first | exact ⟨rfl, rfl, rfl, rfl⟩ | cases h

theorem Grown.fitted (h : Grown S (some id) s t k.children k.inner k.slots)
    (htag : s.activity.tag id = k.tag) (hk : Refers S t id k) : Fitted S id s t k := by
  obtain ⟨hnot, hsequence⟩ := Bool.or_eq_false_iff.1 hk.code
  obtain ⟨hcode, hdeclares, hbody, hchained⟩ := without_code hnot
  refine ⟨h.toAdded.cast ?_, htag, ⟨chained_of_unchained h.unchained,
    fun hk => absurd hk (by simpa using hsequence), hk.parts, hk.item, hk.ruled⟩,
    seesFirst_of_none hdeclares, hk.sheltered, ?_, hchained⟩
  · rw [StmtKind.tokens, hcode, zero_add]
  refine ⟨⟨h.alone, hk.request, hk.service⟩, ⟨⟨?_, fun f hf => (h.prepared f hf).numbered⟩,
    hk.stores⟩, ⟨?_, fun f hf => (h.prepared f hf).toPlaced, hk.refs⟩⟩
  all_goals rw [hbody]
  · exact .nil
  · exact fun e he => by cases he

theorem Added.fitted_code {fragment : CodeFragment}
    (h : Added S (some id) s t [] (StmtKind.code fragment none init).tokens)
    (htag : s.activity.tag id = .code) (hbody : Consecutive (nodesList fragment.body))
    (hunit : ∀ e ∈ nodesList fragment.body, e.span.unit = S.unit)
    (hinit : ∀ k ∈ init, k < t.activity.stores.size)
    (hfirst : t.activity.SeesFirst id (.code fragment none init)) :
    Fitted S id s t (.code fragment none init) where
  added := h
  tag := htag
  linked := ⟨chained_of_unchained fun _ hm => (by cases hm), fun hk => (by cases hk),
    fun _ hm => (by cases hm), fun _ hi => (by cases hi), ruled_of_face rfl rfl rfl⟩
  first := hfirst
  sheltered := sheltered_of_tag rfl
  suits :=
    { formed := .of_inner (fun _ hm => by cases hm) rfl rfl
      filled := ⟨⟨hbody, fun _ hf => by cases hf⟩, fun i hi => hinit i (Option.mem_toList.1 hi)⟩
      placed := ⟨hunit, fun _ hf => (by cases hf), fun _ hr => by cases hr⟩ }
  unchained := rfl

theorem Opened.grown (h : Opened S p .empty s t id) (hr : Ready S p s) :
    Grown S p s t [id] [id] [] := by
  have hset := h.close (k := .empty) ((Grown.refl (h.ready hr)).fitted h.tag_eq
    (.plain rfl rfl rfl rfl))
  obtain ⟨rfl, span, rfl⟩ := h
  have hsame : (s.activity.alloc .empty p (span.inUnit S.unit)).2.setKind s.activity.stmts.size
      .empty = (s.activity.alloc .empty p (span.inUnit S.unit)).2 := by
    have hstmts : (s.activity.alloc .empty p (span.inUnit S.unit)).2.stmts.modify
        s.activity.stmts.size (fun st => { st with kind := .empty }) =
          (s.activity.alloc .empty p (span.inUnit S.unit)).2.stmts := by
      refine Array.ext_getElem? fun i => ?_
      rw [Array.getElem?_modify]
      split
      case isTrue heq =>
        subst heq
        rw [getElem?_alloc_self]
        rfl
      case isFalse => rfl
    rw [Activity.setKind, Activity.modifyStmt, hstmts]
  have hparts : Parts S p [.empty] s { s with activity :=
      (s.activity.alloc .empty p (span.inUnit S.unit)).2.setKind s.activity.stmts.size .empty } _ :=
    (hset.ok () _ rfl).2
  rw [hsame] at hparts
  exact hparts.standing rfl

/-! ### Stores -/

theorem ok_marker (hr : Ready S p s) :
    Ok S marker s fun m t => t.activity = s.activity ∧ Added S p s t [] (0, {m}, 0) := by
  refine .of_run rfl ⟨Nat.le_succ _, Nat.le_refl _⟩ ⟨rfl, ?_⟩
  refine (Added.of_issued hr (Nat.le_refl _) (Nat.le_succ _)).cast ?_
  rw [Finset.Ioc_self, Nat.Ioc_succ_singleton]
  rfl

/-- A declared store is new: no parameter, not redirected, and without a first value. -/
theorem ok_declare (hr : Ready S p s) {host : StoreHost} {name : String}
    (hh : ∀ i, host = .statement i →
      i < s.activity.stmts.size ∧ (s.activity.tag i).isStoreHost = true)
    (ty : TypeName) (kind : StoreKind) (span : Span) :
    Ok S (declare host name ty kind (span.inUnit S.unit)) s fun k t => Grown S p s t [] [] [] ∧
      k ∉ t.activity.parameters ∧ ∃ m, t.activity.stores[k]? = some
        { name := name, ty := ty, kind := kind, marker := m, host := host
          span := span.inUnit S.unit } := by
  refine (ok_marker hr).bind fun m t ⟨hsame, ht⟩ => ?_
  refine .bind_activity (.bind_check (fun e he => ⟨checked_declare _ _ e he, ?_⟩)
    fun ⟨k, b⟩ hd => ?_)
  · unfold Activity.declare at he
    split at he <;> cases he
    exact .inl rfl
  obtain ⟨hfree, rfl, rfl⟩ := Activity.declare_eq_ok hd
  refine .bind_modifyActivity (.pure ⟨.of_added ?_, ?_, m, ?_⟩)
  · have hsound := ht.intact.sound.addStore hfree (hsame ▸ hh) rfl rfl
    refine .of_kinds_eq (ht.intact.addStore hsound rfl) ?_ ?_ (fun i => ?_) (fun i => ?_)
      (fun i => ?_) (ht.stores.trans (.addStore _ _)) (fun i hi => ?_) ?_
    · rw [Activity.header_addStore, hsame]
    · rw [Activity.size_addStore, hsame]
    · rw [Activity.parent_addStore, hsame]
    · rw [Activity.tag_addStore, hsame]
    · rw [Activity.kind_addStore, hsame]
    · rw [Activity.serviceOperations_addStore, hsame] at hi
      exact .inl hi
    · have hbalance := ht.balance
      rw [BuildState.issued, BuildState.issued] at hbalance ⊢
      rw [Activity.initialized_addStore _ rfl, Activity.tokens_addStore, add_zero, ← hbalance]
      abel
  · rw [Activity.parameters_addStore]
    intro hmem
    obtain ⟨st, hst, -⟩ := ht.intact.sound.parameters _ hmem
    exact Nat.lt_irrefl _ (Array.getElem?_eq_some_iff.1 hst).1
  · rw [Activity.stores_addStore]
    exact Array.getElem?_push_size

theorem added_modifyStore (hr : Ready S p s) {k : StoreId} {st : Store} {g : Store → Store}
    (hk : s.activity.stores[k]? = some st) (hold : st.initialized = false)
    (hext : st.Extends (g st)) (hredirect : (g st).redirect = none ∨
      (g st).redirect = some (.ident (argumentName (g st).name)))
    (hfirst : (g st).initialized = true → st.kind = .var ∧ (g st).redirect = none) :
    Added S p s { s with activity := s.activity.modifyStore k g } []
      (0, 0, if (g st).initialized = true then {k} else 0) := by
  refine .of_kinds_eq (hr.intact.modifyStore
    (hr.intact.sound.modifyStore hk hext hredirect hfirst) hk hext.span) rfl rfl (fun _ => rfl)
    (fun _ => rfl) (fun _ => rfl) (.modifyStore hk hext) (fun _ => .inl) ?_
  simp only [tokens_modifyStore _ hk hext.marker, BuildState.issued, add_assoc,
    initialized_modifyStore _ hk hold, Prod.mk_add_mk, add_zero]

theorem ok_redirectTo (hr : Ready S p s) {k : StoreId} {st : Store}
    (hk : s.activity.stores[k]? = some st) (hold : st.initialized = false)
    (hnone : st.redirect = none) :
    Ok S (redirectTo k (.ident (argumentName st.name))) s fun _ t => Grown S p s t [] [] [] ∧
      ∃ st', t.activity.stores[k]? = some st' ∧ st'.host = st.host ∧ st'.redirect.isSome = true := by
  have hredirect : st.redirectTo (.ident (argumentName st.name)) =
      .ok { st with redirect := some (.ident (argumentName st.name)) } := by
    rw [Store.redirectTo, hnone]
    rfl
  refine .bind_activity ?_
  rw [hk]
  dsimp only
  rw [hredirect]
  refine .bind_check (by rintro _ ⟨⟩) fun st' h => ?_
  cases h
  refine .modifyActivity ⟨.of_added ?_, ?_⟩
  · refine (added_modifyStore hr hk hold
      ⟨rfl, rfl, rfl, rfl, rfl, fun e he => ?_⟩ (.inr rfl) (fun hinit => ?_)).cast ?_
    · rw [hnone] at he
      cases he
    · rw [hold] at hinit
      cases hinit
    · simp [hold]
  · refine ⟨{ st with redirect := some (.ident (argumentName st.name)) }, ?_, rfl, rfl⟩
    simp only [modifyStore, Array.getElem?_modify, hk]
    rfl

/-! ### Fragments -/

theorem ok_prepare (hr : Ready S p s) (e : Expr) :
    Ok S (prepare S.unit e) s fun e' t => Added S p s t [] (exprIds e'.nodes, 0, 0) ∧
      Consecutive e'.nodes ∧ ∀ n ∈ e'.nodes, n.span.unit = S.unit := by
  obtain ⟨hids, hle⟩ := exprIds_number s.ids.exprs S.unit e
  refine .of_run rfl ⟨Nat.le_refl _, hle⟩ ⟨?_, .number _ _ _,
    unit_of_origins (Expr.origins_inUnit S.unit _)⟩
  refine (Added.of_issued hr hle (Nat.le_refl _)).cast ?_
  rw [Finset.Ioc_self, ← hids]
  rfl

theorem ok_prepareBody (hr : Ready S p s) (body : List CodeStmt) :
    Ok S (prepareBody S.unit body) s fun body' t =>
      body' = inUnitList S.unit (numberList s.ids.exprs body).1 ∧
        Added S p s t [] (exprIds (nodesList body'), 0, 0) := by
  obtain ⟨hids, hle⟩ := exprIds_numberList s.ids.exprs S.unit body
  refine .of_run rfl ⟨Nat.le_refl _, hle⟩ ⟨rfl, ?_⟩
  refine (Added.of_issued hr hle (Nat.le_refl _)).cast ?_
  rw [Finset.Ioc_self, ← hids]
  rfl

theorem ok_fragmentOf (holder : ParseNode) (hr : Ready S p s) (e : Expr) :
    Ok S (fragmentOf S.unit holder e) s fun f t => Grown S p s t [] [] [f] := by
  refine (ok_prepare hr e).bind fun e' t ⟨ht, hnumbered, hunit⟩ => ?_
  refine (ok_marker (ht.ready hr)).bind fun m u hu => .pure ?_
  refine ⟨(ht.trans hu.2).cast (by simp [Fragment.tokens]), fun _ hid => (by cases hid),
    fun _ hm => (by cases hm), fun f hf => ?_⟩
  obtain rfl := mem_singleton.1 hf
  exact ⟨⟨rfl, hunit⟩, hnumbered⟩

theorem ok_fragment (hn : node.Below S d) (hr : Ready S p s) (member : String) :
    Ok S (fragment S.unit node member) s fun f t => Grown S p s t [] [] [f] :=
  .bind_expr hn fun ⟨holder, e⟩ => ok_fragmentOf holder hr e

theorem ok_optionalFragment (hn : node.Below S d) (hr : Ready S p s) (member : String) :
    Ok S (optionalFragment S.unit node member) s fun f t => Grown S p s t [] [] f.toList := by
  refine .bind_optionalExpr hn fun o => ?_
  rcases o with _ | ⟨holder, e⟩
  · exact .pure (.refl hr)
  · exact (ok_fragmentOf holder hr e).bind fun f t ht => .pure ht

theorem ok_codeKind (hr : Ready S p s) (body : List CodeStmt) (span : Span)
    (init : Option StoreId) : Ok S (codeKind S.unit body span init) s fun k t => ∃ m body',
      body' = inUnitList S.unit (numberList s.ids.exprs body).1 ∧
      k = .code { marker := m, span := span, body := body' } none init ∧
      Added S p s t [] (exprIds (nodesList body'), {m}, 0) := by
  refine (ok_prepareBody hr body).bind fun body' t ⟨hbody, ht⟩ => ?_
  refine (ok_marker (ht.ready hr)).bind fun m u hu => ?_
  exact .pure ⟨m, body', hbody, rfl, (ht.trans hu.2).cast (by simp)⟩

theorem ok_nodeRef (hn : node.Below S (d + 1)) (member : String) :
    Ok S (nodeRef S.unit node member) s fun r t =>
      t = s ∧ ∀ r' ∈ r.toList, r'.span.unit = S.unit := by
  unfold nodeRef
  split
  · exact .pure ⟨rfl, by simp⟩
  · next hm =>
    refine .bind_text (hn.member hm) fun _ => .pure ⟨rfl, fun r' hr' => ?_⟩
    obtain rfl := mem_singleton.1 hr'
    rfl

/-! ### Lists -/

section Lists

variable {γ : Type} {xs : List γ}

theorem ok_mapM {g : γ → Build β} {ids inner : β → List StmtId} {fs : β → List Fragment}
    {P : β → Prop} (h : ∀ x ∈ xs, ∀ s, Ready S p s →
      Ok S (g x) s fun b t => Grown S p s t (ids b) (inner b) (fs b) ∧ P b) (hr : Ready S p s) :
    Ok S (xs.mapM g) s fun bs t =>
      Grown S p s t (bs.flatMap ids) (bs.flatMap inner) (bs.flatMap fs) ∧ ∀ b ∈ bs, P b := by
  induction xs generalizing s with
  | nil => exact .pure ⟨.refl hr, fun _ hb => by cases hb⟩
  | cons x xs ih =>
    rw [mapM_cons]
    refine (h x mem_cons_self s hr).bind fun b t ⟨ht, hb⟩ => ?_
    refine (ih (fun y hy => h y (mem_cons_of_mem _ hy)) (ht.ready hr)).bind
      fun bs u ⟨hu, hbs⟩ => ?_
    exact .pure ⟨ht.trans hu, forall_mem_cons.2 ⟨hb, hbs⟩⟩

theorem ok_mapM_parts {g : γ → Build StmtId} {tags : List StmtTag}
    (h : ∀ x ∈ xs, ∀ s, Ready S p s → Ok S (g x) s fun id t => Parts S p tags s t [id])
    (hr : Ready S p s) : Ok S (xs.mapM g) s fun ids t => Parts S p tags s t ids := by
  induction xs generalizing s with
  | nil => exact .pure (.nil hr)
  | cons x xs ih =>
    rw [mapM_cons]
    refine (h x mem_cons_self s hr).bind fun id t ht => ?_
    refine (ih (fun y hy => h y (mem_cons_of_mem _ hy)) (ht.ready hr)).bind fun ids u hu => ?_
    exact .pure (ht.append hu)

theorem ok_forM {g : γ → Build Unit} (h : ∀ x ∈ xs, ∀ t, Grown S p s t [] [] [] →
      Ok S (g x) t fun _ u => Grown S p t u [] [] []) (hr : Ready S p s) :
    Ok S (xs.forM g) s fun _ t => Grown S p s t [] [] [] := by
  induction xs generalizing s with
  | nil => exact .pure (.refl hr)
  | cons x xs ih =>
    refine (h x mem_cons_self s (.refl hr)).bind fun _ t ht => ?_
    refine (ih (fun y hy u hu => ?_) (ht.ready hr)).mono fun _ u hu => ht.trans hu
    exact h y (mem_cons_of_mem _ hy) u (ht.trans hu)

theorem ok_filterMapM {g : γ → Build (Option StmtId)} (h : ∀ x ∈ xs, ∀ s, Ready S p s →
      Ok S (g x) s fun o t => Grown S p s t o.toList o.toList []) (hr : Ready S p s) :
    Ok S (xs.filterMapM g) s fun ids t => Grown S p s t ids ids [] := by
  induction xs generalizing s with
  | nil => exact .pure (.refl hr)
  | cons x xs ih =>
    rw [filterMapM_cons]
    refine (h x mem_cons_self s hr).bind fun o t ht => ?_
    have ih := ih (fun y hy => h y (mem_cons_of_mem _ hy)) (ht.ready hr)
    cases o with
    | none => exact ih.mono fun _ u hu => ht.trans hu
    | some id => exact ih.bind fun ids u hu => .pure (ht.trans hu)

end Lists

end Steps

end Build

end Workflow
