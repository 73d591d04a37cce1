import Workflow.Model.External
import Workflow.Proofs.Arena.Fragments

/-!
# Invariants of the emission

A property of statements of model programs, which may depend on the host whose stores are visible,
holds of all that is emitted if it holds of each piece and is kept where pieces are put together.
The stores of a statement are in scope only in the block or iteration that stands for it.
-/

namespace Workflow

/-- The value slots of a statement that a model program shows: the endpoint of an operation only if
it sends. -/
def StmtKind.emitted : StmtKind → List Fragment
  | .service op => op.content.toList.flatMap Content.fragments ++ op.correlatesWith.toList ++
      if op.kind == .send then op.endpoint.toList else []
  | kind => kind.slots

def Activity.outer (a : Activity) (id : StmtId) : StoreHost :=
  match a.parent id with
  | some p => .statement p
  | none => .activity

def Store.declaration (st : Store) (init : Option ModelExpr) : ModelStmt :=
  .declare (some st.marker) st.name st.ty none init

def Fragment.shown (f : Fragment) : ModelExpr := .ofFragment f.marker f.expr

namespace Emit

section Post

variable {α β : Type}

def Post (x : Emit α) (Q : α → Prop) : Prop := ∀ s, Q (x.run s).1

theorem Post.pure {a : α} {Q : α → Prop} (h : Q a) : Post (Pure.pure a) Q := fun _ => h

theorem Post.bind {x : Emit α} {f : α → Emit β} {Q : α → Prop} {R : β → Prop} (hx : Post x Q)
    (hf : ∀ a, Q a → Post (f a) R) : Post (x >>= f) R :=
  fun s => hf _ (hx s) _

theorem Post.skip {x : Emit α} {f : α → Emit β} {R : β → Prop} (hf : ∀ a, Post (f a) R) :
    Post (x >>= f) R :=
  fun _ => hf _ _

theorem Post.mapM {f : α → Emit β} {xs : List α} {Q : β → Prop} (h : ∀ a ∈ xs, Post (f a) Q) :
    Post (xs.mapM f) fun ys => ∀ y ∈ ys, Q y := by
  induction xs with
  | nil => exact .pure (by simp)
  | cons a xs ih =>
    rw [List.mapM_cons]
    refine (h a List.mem_cons_self).bind fun b hb => ?_
    refine (ih fun a ha => h a (List.mem_cons_of_mem _ ha)).bind fun bs hbs => .pure ?_
    exact List.forall_mem_cons.2 ⟨hb, hbs⟩

end Post

/-- A property of statements that is kept by the emission of an activity. -/
structure Invariant (a : Activity) (Q : StoreHost → List ModelStmt → Prop) : Prop where
  nil : ∀ {h}, Q h []
  append : ∀ {h ss ts}, Q h ss → Q h ts → Q h (ss ++ ts)
  nest : ∀ {h ss}, Q h ss → Q h [.block ss]
  /-- A statement stands in its own scope inside of a block. -/
  enter : ∀ {id ss}, Q (.statement id) ss → Q (a.outer id) [.block ss]
  /-- A statement that hosts no stores has no scope of its own. -/
  pass : ∀ {id ss}, (a.kind id).tag.isStoreHost = false → Q (.statement id) ss → Q (a.outer id) ss
  child : ∀ {id m ss}, m ∈ (a.kind id).children → Q (a.outer m) ss → Q (.statement id) ss
  root : ∀ {ss}, Q (a.outer a.root) ss → Q .activity ss
  stores : ∀ {h k st}, k ∈ a.storesAt h → a.stores[k]? = some st → Q h [st.declaration none]
  temp : ∀ {id f}, f ∈ (a.kind id).emitted → ∀ name ty like,
    Q (a.outer id) [.declare none name ty like (some f.shown)]
  target : ∀ {id f}, f ∈ (a.kind id).emitted → Q (a.outer id) [.eval f.shown]
  access : ∀ {h} name ty operation, Q h [.declare none name ty none none,
    .eval { expr := .member {} (.ident name) operation }]
  /-- Code that gives a store its first value. -/
  first : ∀ {id f next k st o op target value}, a.kind id = .code f next (some k) →
    f.body = [.eval (.assign o op target value)] → a.stores[k]? = some st →
      Q (a.outer id) [st.declaration (some (.ofFragment f.marker value))]
  plain : ∀ {id f next initializes}, a.kind id = .code f next initializes →
    (initializes = none ∨ assignedValue f.body = none) → Q (a.outer id) [.fragment f.marker f.body]
  iterate : ∀ {id item values body isParallel completion st ss},
    a.kind id = .forEach item values body isParallel completion → a.stores[item]? = some st →
      Q (.statement id) ss →
        Q (a.outer id) [.forEach st.marker st.name st.ty values.shown ss]

theorem body_of_assignedValue (h : assignedValue body = some value) :
    ∃ o op target, body = [.eval (.assign o op target value)] := by
  unfold assignedValue at h
  split at h
  · cases h
    exact ⟨_, _, _, rfl⟩
  · cases h

end Emit

end Workflow
