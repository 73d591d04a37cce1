import Workflow.Proofs.Lower.Reads

/-!
# Tallies

A tally says what nodes have to do with the slots and the statements that they are made from. It is
kept where slots and statements are put together, and where a node is made from the nodes inside it.
So if it holds of each kind of statement by itself, then it holds of every statement with all that
is inside it.
-/

namespace Workflow

open List

def StmtTag.isJump : StmtTag → Bool
  | .flow | .stateMachine => true
  | _ => false

def StmtTag.isLandmark : StmtTag → Bool
  | .flow | .stateMachine | .service => true
  | _ => false

def StmtTag.isOrdinary : StmtTag → Bool
  | .flow | .stateMachine | .service | .code => false
  | _ => true

def NodeKind.isOrdinary : NodeKind → Bool
  | .code .. | .invoke .. => false
  | kind => !kind.isLandmark

/-- The slots of a statement as often as they are lowered: the condition of a loop that tests first
counts twice. -/
def StmtKind.slotUses : StmtKind → List Fragment
  | .loop condition _ false => [condition, condition]
  | kind => kind.slots

def CaseNode.slots : CaseNode → List Expr
  | .mk key _ => [key.expr]

def PickBranchNode.slots : PickBranchNode → List Expr
  | .mk vars _ _ => VariableDecl.slots vars

def TransitionNode.slots : TransitionNode → List Expr
  | .mk _ condition _ _ => condition.toList.map (·.expr)

/-- A statement is lowered together with the code that it is chained to. -/
structure Activity.Starts (a : Activity) (m : StmtId) (rest : List StmtId) : Prop where
  run : a.chainFragments (m :: rest) ∈ a.runs
  forward : a.chainsForward (m :: rest) = true
  ascending : (m :: rest).Pairwise (· < ·)

theorem Activity.Alone.starts {a : Activity} (h : a.Alone m) : a.Starts m [] :=
  ⟨h.run, isUnchained_of_chainedTo h.unchained, pairwise_singleton ..⟩

namespace Lower

variable {c : LowerContext} {i : StmtId} {k : StmtKind}

theorem inside (ha : c.activity.Ordered) (hk : c.activity.kind i = k) (htag : k.tag ≠ .sequence) :
    ∀ m ∈ k.children, i < m ∧ c.activity.Alone m := by
  subst hk
  intro m hmem
  have hchained := (ha.linked i).chained
  unfold Activity.Chained at hchained
  rw [if_neg htag] at hchained
  exact ⟨ha.after i m hmem, Activity.alone_of_unchained hchained m hmem⟩

theorem part (ha : c.activity.Ordered) (hk : c.activity.kind i = k) :
    ∀ m ∈ k.parts.1, i < m ∧ (c.activity.kind m).tag ∈ k.parts.2 := by
  subst hk
  intro m hmem
  exact ⟨ha.after i m (StmtKind.parts_subset _ m hmem), ha.tag m ▸ (ha.linked i).parts m hmem⟩

end Lower

namespace LowerContext.View

open Lower

variable {c : LowerContext}

/-- What nodes have to do with the slots and the statements they are made from, what may stand in
them, and how landmarks are drawn. -/
structure Tally (W : c.View) where
  holds : List Fragment → List StmtId → List Node → Prop
  fine : Expr → Prop
  binds : String → Prop
  draws : StmtId → NodeKind → Prop
  nil : holds [] [] []
  append : ∀ {fs fs' ids ids' ns ns'}, holds fs ids ns → holds fs' ids' ns' →
    holds (fs ++ fs') (ids ++ ids') (ns ++ ns')
  perm : ∀ {fs ids ids' ns ns'}, holds fs ids ns → ids.Perm ids' → ns.Perm ns' → holds fs ids' ns'
  stmt : ∀ {id fs ids ns}, (c.activity.kind id).tag.isOrdinary = true →
    holds ((c.activity.kind id).slotUses ++ fs) ((c.activity.kind id).children ++ ids) ns →
    holds fs (id :: ids) ns
  node : ∀ {k : NodeKind} {fs ids}, k.isOrdinary = true → (∀ x ∈ k.binders, binds x) →
    (∀ e ∈ k.slots, fine e) → holds fs ids k.children → holds fs ids [.ofKind k]
  landmark : ∀ {id name kind}, (c.activity.kind id).tag.isLandmark = true →
    kind.isLandmark = true → draws id kind → (∀ x ∈ kind.binders, binds x) →
    (∀ e ∈ kind.slots, fine e) →
    holds (c.activity.kind id).slotUses (c.activity.kind id).children kind.children →
    holds [] [id] [.mk name kind]
  value : ∀ {id f} ty, f ∈ (c.activity.kind id).emitted → W.Gives (value c f ty) fun r =>
    fine r.1.expr ∧ (∀ x ∈ VariableDecl.names r.2.vars, binds x) ∧
      (∀ e ∈ VariableDecl.slots r.2.vars, fine e) ∧ holds [f] [] r.2.nodes
  restricted : ∀ {id f} ty slot, f ∈ (c.activity.kind id).emitted →
    W.Gives (restricted c f ty slot) fun v => fine v.expr ∧ holds [f] [] []
  inbound : ∀ {id f}, f ∈ (c.activity.kind id).emitted →
    (W.strict → (c.namedStore? f.expr).isSome = true) → holds [f] [] []
  /-- The endpoint of an operation that does not send is not lowered. -/
  unsent : ∀ {id op f}, c.activity.kind id = .service op → op.kind ≠ .send → f ∈ op.endpoint →
    holds [f] [] []
  null : ¬ W.strict → fine .null
  handle : ∀ st ∈ c.activity.stores, fine st.handle
  name : ∀ st ∈ c.activity.stores, binds st.name
  delegate : ∀ st ∈ c.activity.stores, binds (delegateArgument st.handle)
  temp : ∀ {x}, IsHolder x → binds x ∧ fine (.storeGet (.ident x))
  write : ∀ {x e}, IsHolder x → fine e → holds [] [] [.code [.eval (.storeSet (.ident x) e)]]
  code : ∀ {id rest}, c.activity.Starts id rest → (c.activity.kind id).tag = .code →
    W.Gives (codeRun c id) fun r => ∀ ns, holds [] (c.activity.afterChain (id :: rest)) ns →
      holds [] (id :: rest) (r.toList ++ ns)
  flow : ∀ {id nodes start} n, c.activity.kind id = .flow nodes start →
    c.activity.stmts.size - id ≤ n + 1 →
    W.Gives (flowchart c (Lower.stmt c n) id nodes start) (draws id)
  machine : ∀ {id states start first} n, c.activity.kind id = .stateMachine states start first →
    c.activity.stmts.size - id ≤ n + 1 →
    W.Gives (stateMachine c (Lower.stmt c n) id states first) (draws id)
  service : ∀ {id op}, c.activity.kind id = .service op →
    W.Gives (messaging c id op) fun n => draws id n.kind

def Tally.trivial (W : c.View) : W.Tally where
  holds _ _ _ := True
  fine _ := True
  binds _ := True
  draws _ _ := True
  nil := .intro
  append _ _ := .intro
  perm _ _ _ := .intro
  stmt _ _ := .intro
  node _ _ _ _ := .intro
  landmark _ _ _ _ _ _ := .intro
  value _ _ _ _ := ⟨.intro, fun _ _ => .intro, fun _ _ => .intro, .intro⟩
  restricted _ _ _ _ _ := ⟨.intro, .intro⟩
  inbound _ _ := .intro
  unsent _ _ _ := .intro
  null _ := .intro
  handle _ _ := .intro
  name _ _ := .intro
  delegate _ _ := .intro
  temp _ := ⟨.intro, .intro⟩
  write _ _ := .intro
  code _ _ _ _ _ _ := .intro
  flow _ _ _ _ _ := .intro
  machine _ _ _ _ _ := .intro
  service _ _ _ := .intro

namespace Tally

variable {W : c.View} (T : W.Tally)

/-- A node or a part of one: the names that it binds, its expressions, and the nodes inside. -/
structure Part (fs : List Fragment) (ids : List StmtId) (binders : List String)
    (slots : List Expr) (children : List Node) : Prop where
  binds : ∀ x ∈ binders, T.binds x
  fine : ∀ e ∈ slots, T.fine e
  holds : T.holds fs ids children

def Parts {α : Type} (b : α → List String) (s : α → List Expr) (t : α → List Node)
    (fs : List Fragment) (ids : List StmtId) (ps : List α) : Prop :=
  T.Part fs ids (ps.flatMap b) (ps.flatMap s) (ps.flatMap t)

/-- The names of variables and their first values are fine. -/
structure Vars (vars : List VariableDecl) : Prop where
  names : ∀ x ∈ VariableDecl.names vars, T.binds x
  slots : ∀ e ∈ VariableDecl.slots vars, T.fine e

/-- Steps that run before a node come from slots. -/
structure Lifts (fs : List Fragment) (h : Hoisted) : Prop where
  vars : T.Vars h.vars
  holds : T.holds fs [] h.nodes

/-- Nodes stand for a statement and the code that it is chained to, if others stand for what comes
after. -/
def Begins (m : StmtId) (rest : List StmtId) (r : Option Node) : Prop :=
  ∀ ns, T.holds [] (c.activity.afterChain (m :: rest)) ns →
    T.holds [] (m :: rest) (r.toList ++ ns)

/-- Internal errors are allowed, but for those about missing answers, and what is lost by them does
not count. -/
structure Loose : Prop where
  allows : ∀ text span, W.place span → text.toList.take 2 ≠ ['f', 'r'] →
    W.allows ((Cause.internal text).error span)
  holds : ¬ W.strict → ∀ fs ids, T.holds fs ids []

/-- Lowering finds what it expects, or what it does not find does not count. -/
structure Ready : Prop extends W.Sees where
  routed : T.Loose ∨ (¬ W.strict ∧ c.activity.Routed)

/-- A statement of the activity that is no part of another one, unless this does not count. -/
structure Stands (m : StmtId) : Prop where
  lt_size : m < c.activity.stmts.size
  alone : T.Loose ∨ (c.activity.tag m).isPart = false

/-- The statements after a place are lowered here and in the other context, and operations to
nodes. -/
structure Inside (lower lower' : Inner) (lo : StmtId) : Prop where
  runs : ∀ m rest, lo < m → T.Stands m → c.activity.Starts m rest →
    W.Runs (lower m) (lower' m) (T.Begins m rest)
  service : ∀ m, lo < m → c.activity.tag m = .service → ∀ l, ((lower m).run l).1.isSome = true

variable {T}

section Algebra

variable {fs fs' : List Fragment} {ids ids' : List StmtId} {ns : List Node} {id : StmtId}
variable {k : StmtKind} {kind : NodeKind} {h h' : Hoisted}

theorem Part.append (hp : T.Part fs ids b s t) (hp' : T.Part fs' ids' b' s' t') :
    T.Part (fs ++ fs') (ids ++ ids') (b ++ b') (s ++ s') (t ++ t') :=
  ⟨forall_mem_append.2 ⟨hp.binds, hp'.binds⟩, forall_mem_append.2 ⟨hp.fine, hp'.fine⟩,
    T.append hp.holds hp'.holds⟩

theorem foldIn (hk : c.activity.kind id = k) (htag : k.tag.isOrdinary = true)
    (hin : T.holds (k.slotUses ++ fs) (k.children ++ ids) ns) : T.holds fs (id :: ids) ns := by
  subst hk
  exact T.stmt htag hin

theorem fold (hk : c.activity.kind id = k) (htag : k.tag.isOrdinary = true)
    (hin : T.holds k.slotUses k.children ns) : T.holds [] [id] ns :=
  foldIn hk htag (by rwa [append_nil, append_nil])

theorem beside (hf : T.holds fs [] []) (hi : T.holds [] ids ns) : T.holds fs ids ns := by
  have hboth := T.append hf hi
  rwa [append_nil] at hboth

theorem Part.node (hp : T.Part fs ids kind.binders kind.slots kind.children)
    (hkind : kind.isOrdinary = true) : T.holds fs ids [.ofKind kind] :=
  T.node hkind hp.binds hp.fine hp.holds

theorem Vars.nil : T.Vars [] := ⟨fun _ hx => (by cases hx), fun _ he => by cases he⟩

theorem Vars.append (hv : T.Vars vars) (hv' : T.Vars vars') : T.Vars (vars ++ vars') where
  names := by
    rw [VariableDecl.names, map_append]
    exact forall_mem_append.2 ⟨hv.names, hv'.names⟩
  slots := by
    rw [VariableDecl.slots, flatMap_append]
    exact forall_mem_append.2 ⟨hv.slots, hv'.slots⟩

theorem Vars.sequence (hv : T.Vars vars) (hn : T.holds fs ids ns) :
    T.holds fs ids [.sequence vars ns] :=
  T.node rfl hv.names hv.slots hn

theorem Lifts.append (hh : T.Lifts fs h) (hh' : T.Lifts fs' h') : T.Lifts (fs ++ fs') (h ++ h') :=
  ⟨hh.vars.append hh'.vars, T.append hh.holds hh'.holds⟩

theorem Lifts.of_isEmpty (hh : T.Lifts fs h) (hempty : h.isEmpty = true) : T.holds fs [] [] := by
  have hnil : h.nodes = [] := by simpa using (Bool.and_eq_true_iff.1 hempty).2
  exact hnil ▸ hh.holds

theorem Lifts.wrap (hh : T.Lifts fs h) (hp : T.Part fs' ids kind.binders kind.slots kind.children)
    (hkind : kind.isOrdinary = true) (hgs : gs = fs ++ fs') :
    T.holds gs ids [h.wrap (.ofKind kind)] := by
  subst hgs
  unfold Hoisted.wrap
  split
  · next hempty => exact T.append (hh.of_isEmpty hempty) (hp.node hkind)
  · exact hh.vars.sequence (T.append hh.holds (hp.node hkind))

end Algebra

/-! ### Lists -/

section Lists

variable {α β : Type} {b : β → List String} {s : β → List Expr} {t : β → List Node}
variable {F : α → List Fragment} {I : α → List StmtId} {l : List α}

theorem flatMap_nil (l : List α) : (l.flatMap fun _ => ([] : List β)) = [] :=
  flatMap_eq_nil_iff.2 fun _ _ => rfl

theorem Parts.nil : T.Parts b s t [] [] [] :=
  ⟨fun _ hx => (by cases hx), fun _ he => (by cases he), T.nil⟩

theorem Part.single {p : β} (hp : T.Part fs ids (b p) (s p) (t p)) : T.Parts b s t fs ids [p] := by
  simpa only [Parts, flatMap_singleton] using hp

theorem Parts.append {ps ps' : List β}
    (hp : T.Parts b s t fs ids ps) (hp' : T.Parts b s t fs' ids' ps') :
    T.Parts b s t (fs ++ fs') (ids ++ ids') (ps ++ ps') := by
  have hboth := Part.append hp hp'
  simpa only [Parts, flatMap_append] using hboth

theorem runs_mapM {f g : α → Lower β}
    (h : ∀ a ∈ l, W.Runs (f a) (g a) fun p => T.Parts b s t (F a) (I a) [p]) :
    W.Runs (l.mapM f) (l.mapM g) (T.Parts b s t (l.flatMap F) (l.flatMap I)) := by
  induction l with
  | nil => exact .pure .nil
  | cons a l ih =>
    rw [mapM_cons, mapM_cons]
    refine (h a mem_cons_self).bind fun p => ?_
    refine (ih fun a ha => h a (mem_cons_of_mem _ ha)).bind fun ps => ?_
    exact .pure fun hps hp => hp.append hps

theorem runs_filterMapM {f g : α → Lower (Option β)}
    (h : ∀ a ∈ l, W.Runs (f a) (g a) fun o => T.Parts b s t (F a) (I a) o.toList) :
    W.Runs (l.filterMapM f) (l.filterMapM g) (T.Parts b s t (l.flatMap F) (l.flatMap I)) := by
  induction l with
  | nil => exact .pure .nil
  | cons a l ih =>
    have ih := ih fun a ha => h a (mem_cons_of_mem _ ha)
    rw [filterMapM_cons, filterMapM_cons]
    refine (h a mem_cons_self).bind fun o => ?_
    cases o with
    | none => exact ih.mono fun ps hps hp => hp.append hps
    | some p => exact ih.bind fun ps => .pure fun hps hp => hp.append hps

theorem runs_slots {q : α → Fragment} {f g : α → Lower β}
    (h : ∀ a ∈ l, W.Runs (f a) (g a) fun p => (∀ e ∈ s p, T.fine e) ∧ T.holds [q a] [] []) :
    W.Runs (l.mapM f) (l.mapM g) fun ps =>
      (∀ e ∈ ps.flatMap s, T.fine e) ∧ T.holds (l.map q) [] [] := by
  have hall := runs_mapM (T := T) (b := fun _ => []) (s := s) (t := fun _ => [])
    (F := fun a => [q a]) (I := fun _ => []) fun a ha => (h a ha).mono fun p hp =>
      .single ⟨fun _ hx => (by cases hx), hp.1, hp.2⟩
  refine hall.mono fun ps hps => ⟨hps.fine, ?_⟩
  have hholds := hps.holds
  rwa [flatMap_nil, flatMap_nil, ← map_eq_flatMap] at hholds

theorem runs_parts {f g : StmtId → Lower (Option β)}
    (h : ∀ m ∈ xs, W.Runs (f m) (g m) fun o => T.Parts b s t [] [m] o.toList) :
    W.Runs (xs.filterMapM f) (xs.filterMapM g) (T.Parts b s t [] xs) := by
  have hall := runs_filterMapM (F := fun _ => []) (I := fun m => [m]) h
  rwa [flatMap_nil, flatMap_singleton'] at hall

end Lists

end Tally

end LowerContext.View

end Workflow
