import Workflow.Proofs.Arena.Layout
import Workflow.Proofs.Build.Numbering

/-!
# Where the statements of an activity stand

Handlers, branches of a pick, states, transitions with their bodies and the nodes of a flowchart are
built as parts of the construct that lists them. Everywhere else stands a statement that can be run
by itself. The operations are registered in the order in which they come.
-/

namespace Workflow

/-- Statements of this kind stand only among the parts of a construct. -/
def StmtTag.isPart : StmtTag → Bool
  | .handler | .pickBranch | .state | .transition | .transitionBody | .flowStep | .flowIf
  | .flowSwitch => true
  | _ => false

def ServiceOperation.IsUnlinked (op : ServiceOperation) : Prop :=
  op.request = none ∧ op.reply = none ∧ op.correlationStore = none

def Activity.StandsAlone (a : Activity) (id : StmtId) : Prop :=
  id < a.stmts.size ∧ (a.tag id).isPart = false

namespace StmtKind

def inner : StmtKind → List StmtId
  | .guarded body _ final => body :: final.toList
  | .pick _ => []
  | .stateMachine .. => []
  | .state _ _ entry exit _ => entry.toList ++ exit.toList
  | .transition trigger _ => trigger.toList
  | .flow .. => []
  | k => k.children

theorem inner_subset (k : StmtKind) : ∀ m ∈ k.inner, m ∈ k.children := by
  cases k <;> simp +contextual [inner, children, or_imp]

/-- What the parts of a statement refer to is of the right kind, and an operation is registered. -/
structure Formed (a : Activity) (id : StmtId) (k : StmtKind) : Prop where
  inner : ∀ m ∈ k.inner, a.StandsAlone m
  request : ∀ m ∈ k.request, a.tag m = .service
  registered : ∀ op, k = .service op → id ∈ a.serviceOperations ∧ op.IsUnlinked

variable {a b : Activity} {id : StmtId} {k : StmtKind} {unit : Nat}

theorem Formed.of_inner (h : ∀ m ∈ k.inner, a.StandsAlone m) (hrequest : k.request = none)
    (hservice : (k.tag == .service) = false) : k.Formed a id where
  inner := h
  request m hm := by
    rw [hrequest] at hm
    cases hm
  registered op hk := by
    rw [hk] at hservice
    cases hservice

theorem Formed.mono (h : k.Formed a id) (hsize : a.stmts.size ≤ b.stmts.size)
    (htag : ∀ i < a.stmts.size, b.tag i = a.tag i)
    (hops : ∀ i ∈ a.serviceOperations, i ∈ b.serviceOperations) : k.Formed b id where
  inner m hm := by
    obtain ⟨hlt, hpart⟩ := h.inner m hm
    exact ⟨Nat.lt_of_lt_of_le hlt hsize, htag m hlt ▸ hpart⟩
  request m hm := by
    have hservice := h.request m hm
    have hlt : m < a.stmts.size := by
      refine Nat.lt_of_not_le fun hle => ?_
      rw [Activity.tag, Array.getElem?_eq_none hle] at hservice
      cases hservice
    rw [htag m hlt, hservice]
  registered op hk := ⟨hops id (h.registered op hk).1, (h.registered op hk).2⟩

/-- The parts are what they may be at a statement of an activity of a unit. -/
structure Suits (unit : Nat) (a : Activity) (id : StmtId) (k : StmtKind) : Prop where
  formed : k.Formed a id
  filled : k.IsFilled a.stores.size
  placed : k.Placed (·.unit = unit)

theorem Suits.empty : Suits unit a id .empty where
  formed := .of_inner (fun _ hm => by cases hm) rfl rfl
  filled := ⟨⟨.nil, fun _ hf => by cases hf⟩, fun _ hi => by cases hi⟩
  placed := ⟨fun _ he => (by cases he), fun _ hf => (by cases hf), fun _ hr => by cases hr⟩

theorem Suits.mono (h : k.Suits unit a id) (hsize : a.stmts.size ≤ b.stmts.size)
    (htag : ∀ i < a.stmts.size, b.tag i = a.tag i)
    (hops : ∀ i ∈ a.serviceOperations, i ∈ b.serviceOperations)
    (hstores : a.stores.size ≤ b.stores.size) : k.Suits unit b id where
  formed := h.formed.mono hsize htag hops
  filled := ⟨h.filled.toIsNumbered, fun i hi => Nat.lt_of_lt_of_le (h.filled.stores i hi) hstores⟩
  placed := h.placed

theorem Suits.rechain (h : Suits unit a id (.code fragment next init)) :
    Suits unit a id (.code fragment next' init) where
  formed := .of_inner (fun _ hm => by cases hm) rfl rfl
  filled := ⟨⟨h.filled.body, h.filled.slots⟩, h.filled.stores⟩
  placed := ⟨h.placed.body, h.placed.slots, h.placed.refs⟩

end StmtKind

/-- Every statement stands where it may, and the messaging operations are registered in order. -/
structure Activity.Formed (a : Activity) : Prop where
  kind : ∀ i, (a.kind i).Formed a i
  sorted : a.serviceOperations.Pairwise (· < ·)
  service : ∀ i ∈ a.serviceOperations, i < a.stmts.size ∧ a.tag i = .service

/-- The arena fits together, and all its statements are what they may be in a unit. -/
structure Activity.Intact (unit : Nat) (a : Activity) : Prop where
  sound : a.Sound
  suits : ∀ i, (a.kind i).Suits unit a i
  sorted : a.serviceOperations.Pairwise (· < ·)
  service : ∀ i ∈ a.serviceOperations, i < a.stmts.size ∧ a.tag i = .service
  result : ∀ k ∈ a.result, k < a.stores.size
  stmts : ∀ i < a.stmts.size, (a.stmtSpan i).unit = unit
  stores : ∀ (k : StoreId) st, a.stores[k]? = some st → st.span.unit = unit

namespace Activity.Intact

variable {a b : Activity} {unit : Nat} {id : StmtId} {k : StmtKind}

theorem formed (h : a.Intact unit) : a.Formed := ⟨fun i => (h.suits i).formed, h.sorted, h.service⟩

theorem isFilled (h : a.Intact unit) : a.IsFilled := ⟨fun i => (h.suits i).filled, h.result⟩

theorem placed (h : a.Intact unit) : a.Placed (·.unit = unit) :=
  ⟨h.stmts, fun i => (h.suits i).placed, h.stores⟩

theorem of_start (unit : Nat) (name : String) (span : Span) :
    Intact unit { name := name, span := span } where
  sound := sound_empty name span
  suits _ := .empty
  sorted := .nil
  service _ hi := by cases hi
  result _ hk := by cases hk
  stmts _ hi := by cases hi
  stores k st hst := by simp at hst

theorem congr (h : a.Intact unit) (hsound : b.Sound) (hsize : b.stmts.size = a.stmts.size)
    (htag : ∀ i, b.tag i = a.tag i) (hspan : ∀ i, b.stmtSpan i = a.stmtSpan i)
    (hkind : ∀ i, (b.kind i).Suits unit a i) (hops : b.serviceOperations = a.serviceOperations)
    (hsizes : a.stores.size ≤ b.stores.size) (hresult : ∀ k ∈ b.result, k < b.stores.size)
    (hstores : ∀ (k : StoreId) st, b.stores[k]? = some st → st.span.unit = unit) :
    b.Intact unit where
  sound := hsound
  suits i := (hkind i).mono (Nat.le_of_eq hsize.symm) (fun i _ => htag i) (fun i hi => hops ▸ hi)
    hsizes
  sorted := hops ▸ h.sorted
  service i hi := by
    rw [hsize, htag]
    exact h.service i (hops ▸ hi)
  result := hresult
  stmts i hi := by
    rw [hspan]
    exact h.stmts i (hsize ▸ hi)
  stores := hstores

theorem of_arena (h : a.Intact unit) (hsound : b.Sound) (hstmts : b.stmts = a.stmts)
    (hstores : b.stores = a.stores) (hops : b.serviceOperations = a.serviceOperations)
    (hresult : ∀ k ∈ b.result, k < a.stores.size) : b.Intact unit := by
  refine h.congr hsound (by rw [hstmts]) (fun i => ?_) (fun i => ?_) (fun i => ?_) hops
    (by rw [hstores]) (hstores ▸ hresult) (hstores ▸ h.stores)
  · rw [tag, tag, hstmts]
  · rw [stmtSpan, stmtSpan, hstmts]
  · rw [kind, hstmts]
    exact h.suits i

theorem alloc (h : a.Intact unit) (tag : StmtTag) (span : Span)
    (hp : ∀ i ∈ p, i < a.stmts.size) : (a.alloc tag p (span.inUnit unit)).2.Intact unit := by
  have hsize : a.stmts.size ≤ (a.alloc tag p (span.inUnit unit)).2.stmts.size := by simp
  have htag : ∀ i < a.stmts.size,
      (a.alloc tag p (span.inUnit unit)).2.tag i = a.tag i := fun i hi => by
    rw [Activity.tag, getElem?_alloc_of_lt _ _ _ _ hi, Activity.tag]
  constructor
  case sound => exact h.sound.alloc tag _ hp
  case suits =>
    intro i
    rcases Nat.lt_trichotomy i a.stmts.size with hi | rfl | hi
    · rw [Activity.kind, getElem?_alloc_of_lt _ _ _ _ hi]
      exact (h.suits i).mono hsize htag (fun _ hi => hi) (Nat.le_refl _)
    · rw [Activity.kind, getElem?_alloc_self]
      exact .empty
    · rw [kind_eq_empty (by simpa using hi)]
      exact .empty
  case sorted => exact h.sorted
  case service =>
    intro i hi
    obtain ⟨hlt, hservice⟩ := h.service i hi
    exact ⟨Nat.lt_of_lt_of_le hlt hsize, (htag i hlt).trans hservice⟩
  case result => exact h.result
  case stmts =>
    intro i hi
    rw [size_alloc] at hi
    rcases Nat.eq_or_lt_of_le (Nat.le_of_lt_succ hi) with rfl | hi
    · rw [stmtSpan, getElem?_alloc_self]
      rfl
    · rw [stmtSpan, getElem?_alloc_of_lt _ _ _ _ hi]
      exact h.stmts i hi
  case stores => exact h.stores

theorem setKind (h : a.Intact unit) (hk : k.Suits unit a id) : (a.setKind id k).Intact unit := by
  refine h.congr ((sameShape_setKind a id k).sound h.sound) (size_setKind _ _ _)
    (tag_setKind _ _ _) (stmtSpan_setKind _ _ _) (fun i => ?_) rfl (Nat.le_refl _) h.result h.stores
  by_cases hi : i = id
  · subst hi
    by_cases hlt : i < a.stmts.size
    · rw [kind_setKind_self _ _ _ hlt]
      exact hk
    · rw [kind_eq_empty (by rw [size_setKind]; exact Nat.le_of_not_lt hlt)]
      exact .empty
  · rw [kind_setKind_of_ne _ _ _ hi]
    exact h.suits i

theorem addStore (h : a.Intact unit) {store : Store} (hsound : (a.addStore store).Sound)
    (hspan : store.span.unit = unit) : (a.addStore store).Intact unit := by
  have hle : a.stores.size ≤ (a.addStore store).stores.size := by simp
  refine h.congr hsound (size_addStore _ _) (tag_addStore _ _) (stmtSpan_addStore _ _)
    (fun i => ?_) (serviceOperations_addStore _ _) hle (fun k hk => ?_) fun k st hst => ?_
  · rw [kind_addStore]
    exact h.suits i
  · rw [result_addStore] at hk
    exact Nat.lt_of_lt_of_le (h.result k hk) hle
  · rw [stores_addStore, Array.getElem?_push] at hst
    split at hst
    · cases hst
      exact hspan
    · exact h.stores k st hst

theorem modifyStore (h : a.Intact unit) {f : Store → Store}
    (hsound : (a.modifyStore j f).Sound) (hst : a.stores[j]? = some st)
    (hspan : (f st).span = st.span) : (a.modifyStore j f).Intact unit := by
  have hsize : (a.modifyStore j f).stores.size = a.stores.size := by simp [Activity.modifyStore]
  refine h.congr hsound rfl (fun _ => rfl) (fun _ => rfl) h.suits rfl (Nat.le_of_eq hsize.symm)
    (fun k hk => hsize ▸ h.result k hk) fun k st' hst' => ?_
  rw [Activity.modifyStore, Array.getElem?_modify] at hst'
  split at hst'
  · next heq =>
    subst heq
    rw [hst] at hst'
    cases hst'
    rw [hspan]
    exact h.stores j st hst
  · exact h.stores k st' hst'

theorem register (h : a.Intact unit) (hlt : id < a.stmts.size) (htag : a.tag id = .service)
    (hlast : ∀ i ∈ a.serviceOperations, i < id) :
    Intact unit { a with serviceOperations := a.serviceOperations ++ [id] } where
  sound := h.sound.of_arena rfl rfl rfl rfl
  suits i := (h.suits i).mono (Nat.le_refl _) (fun _ _ => rfl)
    (fun i hi => List.mem_append_left _ hi) (Nat.le_refl _)
  sorted := List.pairwise_append.2 ⟨h.sorted, List.pairwise_singleton _ _, fun i hi j hj => by
    rw [List.mem_singleton.1 hj]
    exact hlast i hi⟩
  service i hi := by
    rcases List.mem_append.1 hi with hi | hi
    · exact h.service i hi
    · rw [List.mem_singleton.1 hi]
      exact ⟨hlt, htag⟩
  result := h.result
  stmts := h.stmts
  stores := h.stores

end Activity.Intact

end Workflow
