import Workflow.Proofs.Build.Growth

/-!
# What the builders of control structures add

The builder of a construct adds the statements directly inside it in the order in which its parts
list them, and expressions that its parts hold.
-/

namespace Workflow

open Activity StmtKind List CodeStmt

theorem Activity.isStoreHost_of_storeHost {a : Activity} (ha : a.ParentsFirst) {i j : Nat}
    (hi : i < a.stmts.size) (h : a.storeHost i = .statement j) :
    j < a.stmts.size ∧ (a.tag j).isStoreHost = true := by
  have hs := sees_storeHost ha i
  rw [h] at hs
  refine ⟨Nat.lt_of_le_of_lt (Within.le ha hs) hi, ?_⟩
  unfold storeHost at h
  split at h
  case h_1 s hfind =>
    cases h
    exact find?_some (p := fun s => (a.tag s).isStoreHost) hfind
  case h_2 => cases h

namespace Build

variable {s t u : BuildState} {S : Source} {p : Option StmtId} {id parent : StmtId} {d : Nat}
  {node : ParseNode} {build : Inner}

/-- The builder adds the statement that it yields, if any. A receive yields an operation. -/
def Builds (S : Source) (d : Nat) (build : Inner) : Prop :=
  ∀ node parent s, node.Below S d → Ready S (some parent) s →
    Ok S (build node parent) s fun r t => Grown S (some parent) s t r.toList r.toList [] ∧
      (node.label = "receive" → ∃ m, r = some m ∧ t.activity.tag m = .service ∧
        (t.activity.kind m).isReceive = true)

/-- The builder of the parts of a statement that comes after all operations adds what they list. -/
def Fits (S : Source) (parent id : StmtId) (tag : StmtTag) (x : Build StmtKind) : Prop :=
  ∀ s, Ready S (some id) s → s.activity.tag id = tag →
    (∀ i ∈ s.activity.serviceOperations, i < id) ∧ s.activity.parent id = some parent →
    Ok S x s fun k t => Fitted S id s t k

/-- A statement around another one, or the other one itself, is nearest if it has the tag. -/
theorem nearestWithTag_isSome {a : Activity} (ha : a.ParentsFirst) {tag : StmtTag} :
    (a.nearestWithTag parent [tag]).isSome = true ↔ ∃ j, a.Within parent j ∧ a.tag j = tag := by
  simp [nearestWithTag, find?_isSome, mem_selfAndAncestors ha]

/-! ### Declarations -/

theorem ok_declareVar (hn : node.Below S d) (hr : Ready S p s) {host : StoreHost}
    (hh : ∀ i, host = .statement i →
      i < s.activity.stmts.size ∧ (s.activity.tag i).isStoreHost = true) :
    Ok S (declareVar S.unit node host) s fun k t => Grown S p s t [] [] [] ∧
      ∃ st, t.activity.stores[k]? = some st ∧ st.host = host ∧ st.kind = .var ∧
        st.redirect = none ∧ st.initialized = false := by
  refine .bind_text hn fun name => ?_
  dsimp only
  split
  · exact .bind_fail rfl
  · refine (ok_declare hr hh _ _ _).mono fun k t ⟨ht, _, m, hst⟩ => ?_
    exact ⟨ht, _, hst, rfl, rfl, rfl, rfl⟩

theorem Ready.hosts (hr : Ready S (some id) s) (htag : (s.activity.tag id).isStoreHost = true) :
    ∀ i, StoreHost.statement id = .statement i →
      i < s.activity.stmts.size ∧ (s.activity.tag i).isStoreHost = true := by
  intro i hi
  cases hi
  exact ⟨hr.inside _ rfl, htag⟩

theorem ok_hostVariables (hn : node.Below S (d + 1)) (hr : Ready S (some id) s)
    (htag : (s.activity.tag id).isStoreHost = true) :
    Ok S (hostVariables S.unit node id) s fun _ t => Grown S (some id) s t [] [] [] := by
  unfold hostVariables
  split
  · exact .pure (.refl hr)
  next vars hvars =>
  refine ok_forM (fun var hvar t ht => ?_) hr
  have hbelow := (hn.member hvars).succ.item hvar
  unfold hostVariable
  split
  · exact .bind_invalid
  · refine (ok_declareVar hbelow (ht.ready hr) ((ht.ready hr).hosts ?_)).bind
      fun _ u hu => .pure hu.1
    rw [ht.tag id (hr.inside id rfl)]
    exact htag

/-- The code that gives a variable its first value is a single assignment. -/
theorem assignedValue_number (last unit : Nat) (o : Origin) (op : AssignOp) (target value : Expr) :
    (Emit.assignedValue (inUnitList unit
      (numberList last [.eval (.assign o op target value)]).1)).isSome = true := by
  simp [numberList, inUnitList, mapOriginsList, mapOrigins,
    Expr.mapOrigins, Emit.assignedValue]

theorem ok_varStatement (hn : node.Below S d) (hr : Ready S (some parent) s) :
    Ok S (varStatement S.unit node parent) s fun r t =>
      Grown S (some parent) s t r.toList r.toList [] := by
  have hin := hr.inside parent rfl
  have hfirsts := hr.intact.sound.parentsFirst
  refine .bind_activity ?_
  refine (ok_declareVar hn hr fun i hi => isStoreHost_of_storeHost hfirsts hin hi).bind ?_
  rintro k t ⟨ht, st, hst, hhost, hvar, hredirect, hold⟩
  refine .bind_optionalExpr hn fun o => ?_
  rcases o with _ | ⟨_, init⟩
  · exact .pure ht
  have hsees : t.activity.Sees (.statement parent) st.host := by
    have hsees := sees_storeHost hfirsts parent
    rw [hhost]
    cases hstore : s.activity.storeHost parent with
    | activity => trivial
    | statement j =>
      rw [hstore] at hsees
      exact (Within.congr hfirsts ht.parent hin).2 hsees
  have hr := ht.ready hr
  refine .bind_modifyActivity ((ok_alloc .code (some parent) _).bind ?_)
  rintro id _ ⟨rfl, span, rfl⟩
  -- the first value counts for the statement, as if the store were marked after it was opened
  have hopened : Opened S (some parent) .code t
      { t with activity := (t.activity.alloc .code (some parent) (span.inUnit S.unit)).2 }
      t.activity.stmts.size := ⟨rfl, span, rfl⟩
  have hu := added_modifyStore (hopened.ready hr) (g := fun s => { s with initialized := true })
    hst hold ⟨rfl, rfl, rfl, rfl, rfl, fun _ h => h⟩ (.inl hredirect) fun _ => ⟨hvar, hredirect⟩
  refine (ok_codeKind (hu.ready (hopened.ready hr)) _ _ _).bind ?_
  rintro _ w ⟨m, body, hbody, rfl, hw⟩
  have hassigned := assignedValue_number t.ids.exprs S.unit { span := node.span.inUnit S.unit }
    .assign (.name { span := node.span.inUnit S.unit } (node.text.getD "")) init
  rw [show inUnitList S.unit (numberList t.ids.exprs _).1 = body from hbody.symm]
    at hassigned
  obtain ⟨value, hvalue⟩ := Option.isSome_iff_exists.1 hassigned
  have hall := hu.trans hw
  obtain ⟨st', hst', hext⟩ := hall.stores k st hst
  refine (hopened.close ((hall.cast ?_).fitted_code hopened.tag_eq (hbody ▸ .numberList _ _ _)
    (hbody ▸ unit_of_origins (origins_inUnitList _ _)) (fun j hj => ?_)
    fun j hj => ?_)).bind fun _ x hx => .pure (ht.trans (hx.standing rfl))
  · simp [StmtKind.tokens, StmtKind.codeTokens, StmtKind.declares, StmtKind.slots, hvalue]
  · cases hj
    exact (Array.getElem?_eq_some_iff.1 hst').1
  · obtain ⟨-, -, hjk⟩ := Option.bind_eq_some_iff.1 hj
    cases hjk
    exact ⟨st', hst', hext.host ▸ hopened.sees hall hr hsees⟩

/-! ### Slots for statements -/

theorem ok_stmtOrEmpty (hb : Builds S d build) (hn : node.Below S d)
    (hr : Ready S (some parent) s) : Ok S (stmtOrEmpty S.unit build node parent) s fun r t =>
      Grown S (some parent) s t [r] [r] [] ∧ (node.label = "receive" → t.activity.tag r = .service ∧
          (t.activity.kind r).isReceive = true) := by
  refine (hb node parent s hn hr).bind fun r t ⟨ht, hreceive⟩ => ?_
  cases r with
  | some id =>
    refine .pure ⟨ht, fun hlabel => ?_⟩
    obtain ⟨_, ⟨⟩, hservice⟩ := hreceive hlabel
    exact hservice
  | none =>
    refine (ok_alloc .empty (some parent) _).mono fun id u hu => ⟨?_, fun hlabel => ?_⟩
    · exact ht.trans (hu.grown (ht.ready hr))
    · obtain ⟨_, ⟨⟩, -⟩ := hreceive hlabel

theorem ok_requiredStmt (hb : Builds S d build) (hn : node.Below S (d + 1))
    (hr : Ready S (some parent) s) (member : String) :
    Ok S (requiredStmt S.unit build node member parent) s fun r t =>
      Grown S (some parent) s t [r] [r] [] :=
  .bind_require hn fun _ hm => (ok_stmtOrEmpty hb hm hr).mono fun _ _ h => h.1

theorem ok_optionalStmt (hb : Builds S d build) (hn : node.Below S (d + 1))
    (hr : Ready S (some parent) s) (member : String) :
    Ok S (optionalStmt S.unit build node member parent) s fun r t =>
      Grown S (some parent) s t r.toList r.toList [] := by
  unfold optionalStmt
  split
  · exact .pure (.refl hr)
  · next hm => exact (ok_stmtOrEmpty hb (hn.member hm) hr).bind fun r t ht => .pure ht.1

/-! ### Sequences -/

/-- Chaining changes the code statements among the members, and of them only the links. -/
theorem sameShape_chainCode (a : Activity) (ids : List StmtId) : a.SameShape (chainCode a ids) := by
  fun_induction chainCode a ids with
  | case1 a first second rest a' ih =>
    refine SameShape.trans ?_ ih
    dsimp only [a']
    split
    · split
      · exact sameShape_setKind _ _ _
      · exact .refl _
    · exact .refl _
  | case2 => exact .refl _

/-- Chaining changes nothing but the arena. -/
theorem chainCode_eq (a : Activity) (ids : List StmtId) :
    ∃ stmts, chainCode a ids = { a with stmts := stmts } := by
  fun_induction chainCode a ids with
  | case1 a first second rest a' ih =>
    obtain ⟨stmts, h⟩ := ih
    rw [h]
    dsimp only [a']
    split
    · split <;> exact ⟨stmts, rfl⟩
    · exact ⟨stmts, rfl⟩
  | case2 => exact ⟨_, rfl⟩

theorem kind_chainCode (a : Activity) (ids : List StmtId) (i : StmtId) :
    ((chainCode a ids).kind i = a.kind i) ∨ (i ∈ ids ∧ ∃ fragment next next' init,
      a.kind i = .code fragment next init ∧
        (chainCode a ids).kind i = .code fragment next' init) := by
  fun_induction chainCode a ids with
  | case1 a first second rest a' ih =>
    have hstep : (a'.kind i = a.kind i) ∨ (i = first ∧ ∃ fragment next next' init,
        a.kind i = .code fragment next init ∧ a'.kind i = .code fragment next' init) := by
      dsimp only [a']
      split
      case isFalse => exact .inl rfl
      split
      case h_2 => exact .inl rfl
      case h_1 fragment next init hk =>
        by_cases hi : i = first
        · subst hi
          exact .inr ⟨rfl, fragment, next, some second, init, hk,
            kind_setKind_self _ _ _ (lt_size_of_kind hk rfl)⟩
        · exact .inl (kind_setKind_of_ne _ _ _ hi)
    rcases ih with ih | ⟨hmem, fragment, next, next', init, hk, hk'⟩
    · rw [ih]
      rcases hstep with h | ⟨rfl, h⟩
      · exact .inl h
      · exact .inr ⟨mem_cons_self, h⟩
    · refine .inr ⟨mem_cons_of_mem _ hmem, ?_⟩
      rcases hstep with h | ⟨rfl, fragment', m, m', init', h, h'⟩
      · exact ⟨fragment, next, next', init, h ▸ hk, hk'⟩
      · obtain ⟨rfl, -, rfl⟩ := code.inj (h'.symm.trans hk)
        exact ⟨fragment', m, next', init', h, hk'⟩
  | case2 => exact .inl rfl

theorem Grown.chain (h : Grown S p s t xs is fs) :
    Added S p s { t with activity := chainCode t.activity xs } xs (fs.map Fragment.tokens).sum := by
  have hs := sameShape_chainCode t.activity xs
  obtain ⟨stmts, heq⟩ := chainCode_eq t.activity xs
  have hold : ∀ i, i ∉ xs → (chainCode t.activity xs).kind i = t.activity.kind i := fun i hi => by
    rcases kind_chainCode t.activity xs i with h' | ⟨hmem, -⟩
    · exact h'
    · exact absurd hmem hi
  have htokens : ∀ i, ((chainCode t.activity xs).kind i).tokens = (t.activity.kind i).tokens :=
    fun i => by
      rcases kind_chainCode t.activity xs i with h' | ⟨-, fragment, next, next', init, hk, hk'⟩
      · rw [h']
      · rw [hk', hk]
        rfl
  constructor
  case intact =>
    refine h.intact.congr (hs.sound h.intact.sound) hs.size hs.tag hs.span (fun i => ?_)
      (by rw [heq]) (by rw [hs.stores]) (by rw [heq]; exact h.intact.result)
      (hs.stores ▸ h.intact.stores)
    rcases kind_chainCode t.activity xs i with h' | ⟨-, fragment, next, next', init, hk, hk'⟩
    · rw [h']
      exact h.intact.suits i
    · rw [hk']
      exact (hk ▸ h.intact.suits i).rechain
  case header =>
    rw [← h.header, heq]
    rfl
  case size =>
    rw [hs.size]
    exact h.size
  case parent => exact fun i hi => (hs.parent i).trans (h.parent i hi)
  case tag => exact fun i hi => (hs.tag i).trans (h.tag i hi)
  case kind =>
    exact fun i hi =>
      (hold i fun hmem => Nat.not_le_of_lt hi (h.fills.mem_le hmem)).trans (h.kind i hi)
  case stores => exact h.stores.trans (.of_eq hs.stores)
  case operations =>
    rw [heq]
    exact h.operations
  case fills =>
    rw [hs.size]
    refine h.fills.relink (fun i _ _ => ⟨hs.parent i, hs.tag i, ?_⟩) (fun i _ _ => hold i)
      (.of_eq hs.stores)
    rcases kind_chainCode t.activity xs i with h' | ⟨-, fragment, next, next', init, hk, hk'⟩
    · rw [h']
      exact ⟨rfl, rfl, rfl, rfl, rfl⟩
    · rw [hk', hk]
      exact ⟨rfl, rfl, rfl, rfl, rfl⟩
  case first =>
    intro i hi hlt
    rw [hs.size] at hlt
    have hdeclares := declares_congr (htokens i)
    have hfirst := (h.first i hi hlt).1.stay h.intact.sound.parentsFirst (fun m _ => hs.parent m)
      hlt (.of_eq hs.stores)
    unfold SeesFirst at hfirst ⊢
    rw [hdeclares]
    refine ⟨hfirst, ?_⟩
    rcases kind_chainCode t.activity xs i with h' | ⟨-, fragment, next, next', init, -, hk'⟩
    · rw [h']
      exact (h.first i hi hlt).2.stay h.intact.sound.parentsFirst (fun m _ => hs.parent m)
        (fun m _ => hs.tag m) hlt
    · rw [hk']
      exact sheltered_of_tag rfl
  case balance =>
    have hheld : (chainCode t.activity xs).tokens = t.activity.tokens :=
      tokens_congr hs.size (fun i _ => htokens i)
        (by rw [storeMarkers, storeMarkers, hs.stores])
    rw [hheld, BuildState.issued, BuildState.issued, initialized, initialized,
      hs.stores]
    exact h.balance

/-- After chaining, each member is chained to the one after it exactly if both are code. -/
theorem chains_chainCode (a : Activity) (ids : List StmtId) (hasc : ids.Pairwise (· < ·))
    (hun : ∀ m ∈ ids, (a.kind m).chained = none) (htag : ∀ m ∈ ids, a.tag m = (a.kind m).tag) :
    (chainCode a ids).chainsForward ids = true ∧
      ∀ m n, [m, n] <:+: ids → (a.kind m).tag = .code → (a.kind n).tag = .code →
        ((chainCode a ids).kind m).chained = some n := by
  fun_induction chainCode a ids with
  | case2 ids a hshort =>
    rcases ids with _ | ⟨m, _ | ⟨next, rest⟩⟩
    · exact ⟨rfl, fun m n hmn => absurd hmn.length_le (by simp)⟩
    · rw [chainsForward, isUnchained, chainedTo_eq,
        hun m mem_cons_self, Option.isNone_none]
      exact ⟨rfl, fun m n hmn => absurd hmn.length_le (by simp)⟩
    · exact (hshort m next rest rfl).elim
  | case1 a first second rest a' ih =>
    obtain ⟨hlt, hasc'⟩ := pairwise_cons.1 hasc
    have hne : ∀ m ∈ second :: rest, m ≠ first := fun m hm => Nat.ne_of_gt (hlt m hm)
    have hmem : second ∈ first :: second :: rest := mem_cons_of_mem _ mem_cons_self
    -- only the first member is changed, and it is chained to the second one if both are code
    have hstep : (∀ m, m ≠ first → a'.kind m = a.kind m) ∧ (∀ m, a'.tag m = a.tag m) ∧
        ((a'.kind first).chained = none ∧ ¬((a.kind first).tag = .code ∧ a.tag second = .code) ∨
          (a'.kind first).chained = some second ∧ a.tag second = .code) := by
      have hfirst := hun first mem_cons_self
      dsimp only [a']
      split
      case isFalse hcode =>
        exact ⟨fun _ _ => rfl, fun _ => rfl, .inl ⟨hfirst, fun h => hcode (by simp [h.2])⟩⟩
      case isTrue hcode =>
        split
        case h_2 hother =>
          refine ⟨fun _ _ => rfl, fun _ => rfl, .inl ⟨hfirst, fun h => ?_⟩⟩
          cases hk : a.kind first <;> rw [hk] at h <;> cases h.1
          exact hother _ _ _ hk
        case h_1 fragment next init hk =>
          refine ⟨fun m hm => kind_setKind_of_ne _ _ _ hm, tag_setKind _ _ _,
            .inr ⟨?_, by simpa using hcode⟩⟩
          rw [kind_setKind_self _ _ _ (lt_size_of_kind hk rfl)]
          rfl
    obtain ⟨hsame, htag', hchained⟩ := hstep
    obtain ⟨hrest, hfollows⟩ := ih hasc'
      (fun m hm => by rw [hsame m (hne m hm)]; exact hun m (mem_cons_of_mem _ hm))
      (fun m hm => by rw [htag', hsame m (hne m hm)]; exact htag m (mem_cons_of_mem _ hm))
    have hkeep : (chainCode a' (second :: rest)).kind first = a'.kind first := by
      rcases kind_chainCode a' (second :: rest) first with h | ⟨hmem, -⟩
      · exact h
      · exact absurd rfl (hne first hmem)
    rw [htag second hmem] at hchained
    constructor
    · rw [chainsForward, hrest, chainedTo_eq, hkeep, Bool.and_true]
      rcases hchained with ⟨h, -⟩ | ⟨h, hcode⟩
      · rw [h, Option.all_none]
      · have hsecond : ((chainCode a' (second :: rest)).kind second).tag = .code := by
          rcases kind_chainCode a' (second :: rest) second with h' | ⟨-, f, n, n', i, -, h'⟩
          · rw [h', hsame second (hne second mem_cons_self), hcode]
          · rw [h']
            rfl
        rw [h, Option.all_some, hsecond]
        simp
    · intro m n hmn hm hn
      rcases infix_cons_iff.1 hmn with hmn | hmn
      · obtain ⟨rfl, hnext⟩ := cons_prefix_cons.1 hmn
        obtain ⟨rfl, -⟩ := cons_prefix_cons.1 hnext
        rw [hkeep]
        exact hchained.elim (fun h => absurd ⟨hm, hn⟩ h.2) (·.1)
      · have hin : ∀ i ∈ [m, n], i ≠ first := fun i hi => hne i (hmn.subset hi)
        refine hfollows m n hmn ?_ ?_
        · rw [hsame m (hin m (by simp)), hm]
        · rw [hsame n (hin n (by simp)), hn]

/-- The members of a sequence are chained once all of them are there. -/
theorem Grown.fitted_sequence
    (h : Grown S (some id) s t members members []) (htag : s.activity.tag id = .sequence) :
    Fitted S id s { t with activity := chainCode t.activity members } (.sequence members) := by
  have hs := sameShape_chainCode t.activity members
  obtain ⟨hforward, hfollows⟩ := chains_chainCode t.activity members h.fills.pairwise
    (fun m hm => (chainedTo_eq _ _).symm.trans (h.unchained m hm))
    fun m hm => h.fills.tag_eq hm
  have hcode : ∀ m, ((chainCode t.activity members).kind m).tag = (t.activity.kind m).tag := by
    intro m
    rcases kind_chainCode t.activity members m with h' | ⟨-, fragment, next, next', init, hk, hk'⟩
    · rw [h']
    · rw [hk', hk]
      rfl
  refine ⟨h.chain, htag, ⟨(if_pos rfl).mpr hforward, fun _ m n hmn hm hn => ?_,
    fun _ hm => (by cases hm), fun _ hi => (by cases hi), ruled_of_face rfl rfl rfl⟩,
    seesFirst_of_none rfl, sheltered_of_tag rfl,
    ⟨.of_inner (fun m hm => ?_) rfl rfl, ⟨⟨.nil, fun _ hf => by cases hf⟩,
      fun _ hi => by cases hi⟩, ⟨fun _ he => (by cases he), fun _ hf => (by cases hf),
      fun _ hr => by cases hr⟩⟩, rfl⟩
  · exact hfollows m n hmn ((hcode m).symm.trans hm) ((hcode n).symm.trans hn)
  · obtain ⟨hlt, hpart⟩ := h.alone m hm
    exact ⟨hs.size ▸ hlt, (hs.tag m) ▸ hpart⟩

theorem ok_sequence (hb : Builds S d build) (hn : node.Below S (d + 1)) (hr : Ready S p s) :
    Ok S (sequence S.unit build node p) s fun id t => Grown S p s t [id] [id] [] := by
  refine (ok_alloc .sequence p _).bind fun id t ho => ?_
  have hr := ho.ready hr
  refine (ok_hostVariables hn hr (by rw [ho.tag_eq]; rfl)).bind fun _ u hu => ?_
  refine (ok_filterMapM (fun item hitem s hr => (hb item id s (hn.item hitem) hr).mono
    fun _ _ h => h.1) (hu.ready hr)).bind fun members v hv => .bind_modifyActivity ?_
  exact (ho.close ((hu.trans hv).fitted_sequence ho.tag_eq)).bind fun _ x hx =>
    .pure (hx.standing rfl)

/-! ### Parts -/

section Parts

variable (hn : node.Below S (d + 1))

include hn

theorem fits_raise : Fits S parent id .raise (raise S.unit node parent) := by
  intro s hr htag ⟨_, hparent⟩
  refine (ok_optionalFragment hn hr "exception").bind fun exception t ht => ?_
  refine .bind_activity ?_
  split
  · exact .bind_fail rfl
  next hinside =>
  refine .pure (ht.fitted htag (.of_ruled rfl (fun _ hm => by cases hm) (fun _ hi => by cases hi)
    (fun _ hr => by cases hr) (ruled_of_face rfl rfl rfl) ⟨?_, fun hk => by cases hk⟩))
  rintro ⟨⟩
  obtain ⟨j, hj, hhandler⟩ := (nearestWithTag_isSome ht.intact.sound.parentsFirst).1
    (by simpa [Option.isSome_iff_ne_none] using hinside)
  rw [← ht.parent id (hr.inside id rfl)] at hparent
  exact ⟨j, within_iff.2 (.inr ⟨parent, hparent, hj⟩), hhandler⟩

theorem fits_terminate : Fits S parent id .terminate (terminate S.unit node) := by
  intro s hr htag _
  refine (ok_optionalFragment hn hr "reason").bind fun reason t ht => ?_
  refine (ok_optionalFragment hn (ht.ready hr) "exception").bind fun exception u hu => ?_
  exact .pure ((ht.trans hu).fitted htag (.plain rfl rfl rfl rfl))

variable (hb : Builds S d build)

include hb

theorem fits_conditional : Fits S parent id .conditional (conditional S.unit build node id) := by
  intro s hr htag _
  refine (ok_fragment hn hr "condition").bind fun c t ht => ?_
  refine (ok_requiredStmt hb hn (ht.ready hr) "then").bind fun yes u hu => ?_
  refine (ok_optionalStmt hb hn (hu.ready (ht.ready hr)) "else").bind fun no v hv => ?_
  exact .pure (((ht.trans hu).trans hv).fitted htag (.plain rfl rfl rfl rfl))

theorem fits_loop : Fits S parent id .loop (loop S.unit build node id) := by
  intro s hr htag _
  refine (ok_fragment hn hr "condition").bind fun c t ht => ?_
  refine (ok_requiredStmt hb hn (ht.ready hr) "body").bind fun body u hu => ?_
  exact .pure ((ht.trans hu).fitted htag (.plain rfl rfl rfl rfl))

theorem fits_switch : Fits S parent id .switch (switch S.unit build node id) := by
  intro s hr htag _
  have hcase : ∀ case ∈ node.items, ∀ s, Ready S (some id) s →
      Ok S (switchCase S.unit build id case) s fun c t =>
        Grown S (some id) s t [c.body] [c.body] [c.key] ∧ True := by
    intro case hmem s hr
    have hn := (hn.item hmem).succ
    unfold switchCase
    split
    · exact .bind_invalid
    refine (ok_fragment hn hr "key").bind fun key t ht => ?_
    refine (ok_requiredStmt hb hn (ht.ready hr) "body").bind fun body u hu => ?_
    exact .pure ⟨ht.trans hu, trivial⟩
  refine (ok_fragment hn hr "value").bind fun v t ht => ?_
  have hr := ht.ready hr
  refine (ok_mapM hcase hr).bind fun cases u ⟨hu, _⟩ => ?_
  refine (ok_optionalStmt hb hn (hu.ready hr) "default").bind fun fallback w hw => ?_
  refine .pure ((((ht.trans hu).trans hw).cast ?_ ?_ ?_).fitted htag (.plain rfl rfl rfl rfl)) <;>
    simp [children, StmtKind.inner, slots, map_eq_flatMap]

theorem ok_handler (hr : Ready S (some id) s) :
    Ok S (handler S.unit build id node) s fun h t => Parts S (some id) [.handler] s t [h] := by
  refine .ite (fun _ => .bind_invalid) fun _ => ?_
  refine (ok_alloc .handler (some id) _).bind fun catchId t ho => ?_
  have hr := ho.ready hr
  have hcaught : ∀ ty (span : Span) name, Ok S (caughtStore catchId ty (span.inUnit S.unit) name) t
      fun caught u => Grown S (some catchId) t u [] [] [] ∧
        ∀ k ∈ caught.toList, k < u.activity.stores.size := by
    intro ty span name
    cases name with
    | none => exact .pure ⟨.refl hr, fun _ hk => by cases hk⟩
    | some name =>
      refine (ok_declare hr (hr.hosts (by rw [ho.tag_eq]; rfl)) _ _ _).bind ?_
      rintro k u ⟨hu, -, m, hst⟩
      refine (ok_redirectTo (hu.ready hr) hst rfl rfl).bind ?_
      rintro _ v ⟨hv, st, hst', -⟩
      refine .pure ⟨hu.trans hv, fun j hj => ?_⟩
      rw [mem_singleton.1 hj]
      exact (Array.getElem?_eq_some_iff.1 hst').1
  refine (hcaught _ _ _).bind fun caught u ⟨hu, hk⟩ => ?_
  refine (ok_requiredStmt hb hn (hu.ready hr) "body").bind fun body v hv => ?_
  exact (ho.close (k := .handler _ caught body) ((hu.trans hv).fitted ho.tag_eq (.of_simple rfl
    (fun _ hm => by cases hm) (fun i hi => hv.lt_stores (hk i hi)) fun _ hr => by cases hr))).bind
    fun _ w hw => .pure hw

theorem fits_guarded : Fits S parent id .guarded (guarded S.unit build node id) := by
  intro s hr htag _
  refine (ok_requiredStmt hb hn hr "body").bind fun body t ht => ?_
  have hr := ht.ready hr
  refine (ok_mapM_parts (fun clause hmem s hr => ok_handler (hn.item hmem).succ hb hr) hr).bind
    fun handlers u hu => ?_
  refine (ok_optionalStmt hb hn (hu.ready hr) "finally").bind fun final v hv => ?_
  refine .ite (fun _ => .bind_invalid) fun hsome => ?_
  refine .pure (((ht.trans hu.toGrown).trans hv).fitted htag (.of_ruled rfl (hu.stay hv.toAdded)
    (fun _ hi => by cases hi) (fun _ hr => by cases hr)
    (ruled_of_face ?_ rfl rfl) (sheltered_of_tag rfl)))
  cases final
  · simpa [isComplete] using hsome
  · exact Bool.or_true _

theorem fits_forEach : Fits S parent id .forEach (forEach S.unit build node id) := by
  intro s hr htag _
  have hin := hr.inside id rfl
  refine .bind_text hn fun name => ?_
  refine (ok_fragment hn hr "values").bind fun values t ht => ?_
  have hr := ht.ready hr
  refine (ok_optionalFragment hn hr "until").bind fun completion u hu => ?_
  have hr := hu.ready hr
  refine .ite (fun _ => .bind_invalid) fun _ => ?_
  have htag' : (u.activity.tag id).isStoreHost = true := by
    rw [(ht.trans hu).tag id hin, htag]
    rfl
  refine (ok_declare hr (hr.hosts htag') _ _ _).bind ?_
  rintro item v ⟨hv, -, m, hst⟩
  have hr := hv.ready hr
  refine (ok_redirectTo hr hst rfl rfl).bind ?_
  rintro _ w ⟨hw, st, hst', hhost, hredirect⟩
  refine (ok_requiredStmt hb hn (hw.ready hr) "body").bind fun body x hx => ?_
  refine .pure ((((ht.trans hu).trans ((hv.trans hw).trans hx)).cast rfl rfl ?_).fitted htag
    ⟨rfl, fun _ hm => (by cases hm), fun i hi => ?_, fun _ hm => (by cases hm),
      fun _ hop => (by cases hop), fun i hi => ?_, fun _ hr => (by cases hr),
      ruled_of_face rfl rfl rfl, sheltered_of_tag rfl⟩)
  · simp [slots]
  · cases hi
    exact IsItem.stay ⟨st, hst', hhost, hredirect⟩ hx.stores
  · rw [mem_singleton.1 hi]
    exact hx.lt_stores (Array.getElem?_eq_some_iff.1 hst').1

theorem fits_parallel : Fits S parent id .parallel (parallel S.unit build node id) := by
  intro s hr htag _
  refine (ok_mapM (fun item hmem s hr => (ok_stmtOrEmpty hb (hn.item hmem)
    hr).mono fun _ _ h => ⟨h.1, trivial⟩) hr).bind fun branches t ⟨ht, _⟩ => ?_
  refine (ok_optionalFragment hn (ht.ready hr) "until").bind fun completion u hu => ?_
  refine .pure (((ht.trans hu).cast ?_ ?_ ?_).fitted htag (.plain rfl rfl rfl rfl)) <;>
    simp [children, StmtKind.inner, slots]

theorem ok_pickBranch (hr : Ready S (some id) s) :
    Ok S (pickBranch S.unit build id node) s fun b t =>
      Parts S (some id) [.pickBranch] s t [b] := by
  refine .ite (fun _ => .bind_invalid) fun _ => ?_
  refine (ok_alloc .pickBranch (some id) _).bind fun branchId t ho => ?_
  have hr := ho.ready hr
  refine (ok_hostVariables hn hr (by rw [ho.tag_eq]; rfl)).bind fun _ u hu => ?_
  have hr := hu.ready hr
  refine (ok_requiredStmt hb hn hr "trigger").bind fun trigger v hv => ?_
  refine (ok_optionalStmt hb hn (hv.ready hr) "action").bind fun action w hw => ?_
  exact (ho.close (k := .pickBranch trigger action) ((hu.trans (hv.trans hw)).fitted ho.tag_eq
    (.plain rfl rfl rfl rfl))).bind fun _ x hx => .pure hx

theorem fits_pick : Fits S parent id .pick (pick S.unit build node id) := by
  intro s hr htag _
  refine (ok_mapM_parts (fun branch hmem s hr => ok_pickBranch (hn.item hmem).succ hb hr)
    hr).bind fun branches t ht => ?_
  exact .pure (ht.toGrown.fitted htag (.of_simple rfl ht.tags (fun _ hi => by cases hi)
    fun _ hr => by cases hr))

theorem fits_transacted : Fits S parent id .transacted (transacted S.unit build node id) := by
  intro s hr htag _
  refine (ok_requiredStmt hb hn hr "body").bind fun body t ht => ?_
  refine (ok_optionalFragment hn (ht.ready hr) "timeout").bind fun timeout u hu => ?_
  exact .pure ((ht.trans hu).fitted htag (.plain rfl rfl rfl rfl))

theorem fits_cancellable : Fits S parent id .cancellable (cancellable S.unit build node id) := by
  intro s hr htag _
  refine (ok_requiredStmt hb hn hr "body").bind fun body t ht => ?_
  refine (ok_optionalStmt hb hn (ht.ready hr) "handler").bind fun onCancel u hu => ?_
  exact .pure ((ht.trans hu).fitted htag (.plain rfl rfl rfl rfl))

/-- The token of a compensable scope is declared around it. -/
theorem fits_compensable (hin : parent < id) :
    Fits S parent id .compensable (compensable S.unit build node id parent) := by
  intro s hr htag _
  have hrest : ∀ token t, (Grown S (some id) s t [] [] [] ∧
      ∀ k ∈ token.toList, k < t.activity.stores.size) → Ok S (do
      let body ← requiredStmt S.unit build node "body" id
      let compensation ← optionalStmt S.unit build node "compensation" id
      let confirmation ← optionalStmt S.unit build node "confirmation" id
      let cancellation ← optionalStmt S.unit build node "cancellation" id
      return StmtKind.compensable body token compensation confirmation cancellation) t
      fun k u => Fitted S id s u k := by
    rintro token t ⟨ht, htoken⟩
    have hr := ht.ready hr
    refine (ok_requiredStmt hb hn hr "body").bind fun body u hu => ?_
    have hr := hu.ready hr
    refine (ok_optionalStmt hb hn hr "compensation").bind fun compensation v hv => ?_
    have hr := hv.ready hr
    refine (ok_optionalStmt hb hn hr "confirmation").bind fun confirmation w hw => ?_
    refine (ok_optionalStmt hb hn (hw.ready hr) "cancellation").bind fun cancellation x hx => ?_
    have hall := ((hu.trans hv).trans hw).trans hx
    exact .pure ((ht.trans hall).fitted htag (.of_simple rfl (fun _ hm => by cases hm)
      (fun i hi => hall.lt_stores (htoken i hi)) fun _ hr => by cases hr))
  unfold compensable
  split
  · exact hrest none s ⟨.refl hr, fun _ hk => by cases hk⟩
  · refine .bind_activity ?_
    refine (Ok.map ?_).bind hrest
    refine (ok_declare hr (fun i hi => isStoreHost_of_storeHost
      hr.intact.sound.parentsFirst (Nat.lt_trans hin (hr.inside id rfl)) hi) _ _ _).mono ?_
    rintro k t ⟨ht, -, m, hst⟩
    refine ⟨ht, fun j hj => ?_⟩
    rw [mem_singleton.1 hj]
    exact (Array.getElem?_eq_some_iff.1 hst).1

end Parts

theorem fits_code : Fits S parent id .code (code S.unit node) := by
  intro s hr htag _
  unfold code
  split
  · exact .invalid _ _
  · refine (ok_codeKind hr _ _ none).mono ?_
    rintro _ t ⟨m, body, hbody, rfl, ht⟩
    have hnone : (StmtKind.code { marker := m, span := node.span.inUnit S.unit, body := body }
        none none).declares = none := by simp [declares]
    refine (ht.cast ?_).fitted_code htag (hbody ▸ .numberList _ _ _)
      (hbody ▸ unit_of_origins (origins_inUnitList _ _)) (fun _ hk => by cases hk)
      (seesFirst_of_none hnone)
    simp [StmtKind.tokens, StmtKind.codeTokens, StmtKind.slots, hnone]

theorem fits_persist : Fits S parent id .persist (persist S.unit node parent) := by
  intro s hr htag ⟨_, hparent⟩
  refine .bind_activity ?_
  split
  · exact .bind_fail rfl
  next hinside =>
  rw [nearestWithTag_isSome hr.intact.sound.parentsFirst] at hinside
  refine .pure ((Grown.refl hr).fitted htag (.of_ruled rfl (fun _ hm => by cases hm)
    (fun _ hi => by cases hi) (fun _ hr => by cases hr) (ruled_of_face rfl rfl rfl)
    ⟨fun hk => (by cases hk), fun _ j hj hno => ?_⟩))
  rcases within_iff.1 hj with rfl | ⟨p, hp, hj⟩
  · rw [htag] at hno
    cases hno
  · cases hparent.symm.trans hp
    exact hinside ⟨j, hj, hno⟩

end Build

end Workflow
