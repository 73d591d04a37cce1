import Workflow.Proofs.EscapingLocals
import Workflow.Proofs.Linearization

/-!
# Locals that keep to their code node

The statements of a run may use the locals that the run declares before, but a scheduled call in
between puts them into another code node. The check after each statement refuses exactly that. So
once a code node declares a name, no node after it uses the name.
-/

namespace Workflow

open CodeStmt

namespace Stage

variable {site : Site} {s t : StageState} {u : Unit}

theorem body_append (before after : List CodeStmt) :
    body site (before ++ after) = body site before >>= fun _ => body site after := by
  induction before with
  | nil => exact (pure_bind ..).symm
  | cons stmt rest ih => rw [List.cons_append, body, ih, body, bind_assoc]; simp only [bind_assoc]

theorem fragments_eq_body (bodies : List (List CodeStmt)) :
    fragments site (bodies.map (·, none)) = body site bodies.flatten := by
  induction bodies with
  | nil => rfl
  | cons first rest ih =>
    rw [List.flatten_cons, body_append, ← ih]
    rfl

/-- What follows `steps` is the code `code`, with more statements and more steps after it. -/
def Follows (steps : List Step) (code : List CodeStmt) (l : StepList) : Prop :=
  ∃ more, (l.steps = steps ∧ l.pending = code ++ more) ∨
    ∃ rest, l.steps = steps ++ .node (.code (code ++ more)) :: rest

variable {steps : List Step} {code : List CodeStmt} {l : StepList}

theorem Follows.flush (h : Follows steps code l) (hcode : code ≠ []) :
    ∃ more rest, l.flush.steps = steps ++ .node (.code (code ++ more)) :: rest := by
  obtain ⟨more, ⟨hsteps, hpending⟩ | ⟨rest, hsteps⟩⟩ := h
  · refine ⟨more, [], ?_⟩
    rw [StepList.steps_flush, hpending, if_neg (by simp [hcode]), hsteps]
  · rw [StepList.steps_flush]
    split
    · exact ⟨more, rest, hsteps⟩
    · exact ⟨more, rest ++ [.node (.code l.pending)], by rw [hsteps]; simp⟩

theorem Follows.emits {a : List Step} (h : Follows steps code s.steps) (hcode : code ≠ [])
    (hem : Emits s t a) : Follows steps code t.steps := by
  by_cases ha : a = []
  · obtain ⟨hsteps, hpending⟩ := hem.same ha
    rwa [Follows, hsteps, hpending]
  · obtain ⟨more, rest, hflush⟩ := h.flush hcode
    exact ⟨more, .inr ⟨rest ++ a, by rw [(hem.append ha).1, hflush]; simp⟩⟩

theorem Follows.pushed (h : Follows steps code s.steps) (stmt : CodeStmt) :
    Follows steps code (s.pushed stmt).steps := by
  obtain ⟨more, ⟨hsteps, hpending⟩ | ⟨rest, hsteps⟩⟩ := h
  · have hpushed : (s.pushed stmt).steps.pending = s.steps.pending ++ [stmt] := rfl
    exact ⟨more ++ [stmt], .inl ⟨hsteps, by rw [hpushed, hpending, List.append_assoc]⟩⟩
  · exact ⟨more, .inr ⟨rest, hsteps⟩⟩

theorem Follows.body {stmts : List CodeStmt} (h : Follows steps code s.steps) (hcode : code ≠ [])
    (hrun : Stage.body site stmts s = .ok u t) : Follows steps code t.steps := by
  induction stmts generalizing s with
  | nil =>
    cases hrun
    exact h
  | cons stmt rest ih =>
    obtain ⟨s₁, hstmt, -, hrest⟩ := body_cons hrun
    have hfirst : Follows steps code s₁.steps := by
      rcases stmt_ok hstmt with ⟨e, -, hsends⟩ | ⟨_, stmt', a, s₂, -, hstaging, rfl⟩
      · cases hsends with
        | discard _ hsend | into _ _ _ hsend => exact h.emits hcode hsend.emits
      · exact (h.emits hcode hstaging.emits).pushed stmt'
    exact ih (by exact hfirst) hrest

theorem declare_ok {name : String} {ty : TypeName} {init : Option Expr} {span : Span}
    (h : Stage.stmt site (.declare name ty init span) s = .ok u t) :
    ∃ before init', t.steps.pending = before ++ [.declare name ty init' span] := by
  rcases stmt_ok h with ⟨e, he, -⟩ | ⟨_, stmt', a, s₁, -, hstmt, rfl⟩
  · cases he
  · cases hstmt with
    | declare => exact ⟨_, _, rfl⟩

/-- The declaration of a run comes right after what is made of the code up to it. -/
theorem body_declare {pre post : List CodeStmt} {name : String} {ty : TypeName}
    {init : Option Expr} {span : Span}
    (h : body site (pre ++ .declare name ty init span :: post) s = .ok u t) :
    ∃ s₁ before init' after rest,
      body site (pre ++ [.declare name ty init span]) s = .ok () s₁ ∧
      s₁.steps.pending = before ++ [.declare name ty init' span] ∧
      t.steps.flush.steps =
        s₁.steps.steps ++ .node (.code (s₁.steps.pending ++ after)) :: rest := by
  rw [List.append_cons, body_append] at h
  obtain ⟨_, s₁, hpre, hpost⟩ := bind_eq_ok.1 h
  obtain ⟨before, init', hpending⟩ :
      ∃ before init', s₁.steps.pending = before ++ [.declare name ty init' span] := by
    have hdeclare := hpre
    rw [body_append] at hdeclare
    obtain ⟨_, s₂, -, hdeclare⟩ := bind_eq_ok.1 hdeclare
    obtain ⟨s₃, hstmt, -, hnil⟩ := body_cons hdeclare
    cases hnil
    obtain ⟨before, init', hpending⟩ := declare_ok hstmt
    exact ⟨before, init', hpending⟩
  have hcode : s₁.steps.pending ≠ [] := by simp [hpending]
  have hstart : Follows s₁.steps.steps s₁.steps.pending s₁.steps :=
    ⟨[], .inl ⟨rfl, (List.append_nil _).symm⟩⟩
  obtain ⟨after, rest, hflush⟩ := (hstart.body hcode hpost).flush hcode
  exact ⟨s₁, before, init', after, rest, hpre, hpending, hflush⟩

end Stage

section Nodes

variable {x : SemanticIndex}

/-- The statements are the code of the node, alone or at a position only. -/
def Node.RunsCode (node : Node) (body : List CodeStmt) : Prop :=
  node = .code body ∨ ∃ index position,
    node = StepList.guardedCode index position (body ++ [StepList.advance index 1])

/-- The node runs the code of the step and uses the same names outside. -/
structure Step.RunBy (x : SemanticIndex) (step : Step) (node : Node) : Prop where
  locals : ∀ n, n ∈ node.locals x → n ∈ step.locals x
  code : ∀ body, step = .node (.code body) → node.RunsCode body

theorem Step.runBy_indexed (index : String) (position : Nat) (step : Step) :
    step.RunBy x (StepList.indexed index position step) where
  locals n hn := by
    by_contra hnot
    refine (weight_ofLocal _).1 ?_ hn
    rw [StepList.weight_indexed lawful_ofLocal]
    exact (step_weight_ofLocal step).2 hnot
  code body hstep := by
    subst hstep
    exact .inr ⟨index, position, rfl⟩

theorem StepList.forall₂_nodes {l : StepList} (hl : l.Generated) :
    List.Forall₂ (Step.RunBy x) l.flush.steps l.nodes := by
  unfold nodes
  split
  case h_2 index _ =>
    generalize l.flush.steps = steps
    suffices h : ∀ i, List.Forall₂ (Step.RunBy x) steps (indexedFrom index i steps) from h 0
    induction steps with
    | nil => exact fun _ => .nil
    | cons step steps ih => exact fun i => .cons (step.runBy_indexed index i) (ih (i + 1))
  case h_1 hnone =>
    have hplain := hl.flush.plain hnone
    generalize l.flush.steps = steps at hplain
    induction steps with
    | nil => exact .nil
    | cons step steps ih =>
      obtain ⟨n, rfl⟩ := hplain step List.mem_cons_self
      refine .cons ⟨fun _ hn => hn, fun body hbody => .inl ?_⟩
        (ih fun step hs => hplain step (List.mem_cons_of_mem _ hs))
      exact Step.node.inj hbody

end Nodes

/-- The fragments of a run that are all staged keep their locals to the code node that declares
them. The nodes run the steps one by one, and what they use outside their own declarations is used
in the run before a declaration, if there is one. A declaration of the run stands in the code of a
node, after all that is made of the code before it and before all that is made of the code after it;
and if the code of a node declares a name, then no node after it uses the name outside its own
declarations. Whatever names that do not stand for stores are taken as uses, be it a single one, `x`
marks them. -/
theorem fragments_keep_locals {c : LowerContext} (hh : c.PlainHandles) {x : SemanticIndex}
    (hx : ∀ e store, c.storeFor? e = some store → x.isLocal e.id = false) {span : Span}
    {bodies : List (List CodeStmt)} {l : LowerState} {t : StageState}
    (h : Stage.fragments { context := c, span := span } (bodies.map (·, none)) { lower := l } =
      .ok () t) :
    (∀ root ∈ t.steps.finish,
      (t.steps.nodes = [root] ∨ root = .sequence t.steps.vars t.steps.nodes) ∧
      root.locals x ⊆ localsList (c.reading x) bodies.flatten) ∧
    (∀ pre n ty init place post, bodies.flatten = pre ++ .declare n ty init place :: post →
      ∃ s before init' after rest node,
        Stage.body { context := c, span := span } (pre ++ [.declare n ty init place])
          { lower := l } = .ok () s ∧
        s.steps.pending = before ++ [.declare n ty init' place] ∧
        t.steps.flush.steps =
          s.steps.steps ++ .node (.code (s.steps.pending ++ after)) :: rest ∧
        t.steps.nodes[s.steps.length]? = some node ∧
        node.RunsCode (s.steps.pending ++ after)) ∧
    ∀ (i j : Nat) (body : List CodeStmt) (node : Node),
      t.steps.flush.steps[i]? = some (.node (.code body)) → t.steps.nodes[j]? = some node → i < j →
      ∀ n ∈ unionMap CodeStmt.declared body, n ∉ node.locals x := by
  rw [Stage.fragments_eq_body] at h
  -- The run is followed with one name at a time, which is free in it or not.
  have hrun : ∀ n, LowerContext.Holds x (n ∉ localsList (c.reading x) bodies.flatten) n t :=
    fun n => (LowerContext.passes_body (hh.unmarked hx) rfl rfl h (.init l)
      (fun hin hnot => absurd hin hnot) fun hn : n ∈ (∅ : Finset String) => by simp at hn).holds
  have hnodes : List.Forall₂ (Step.RunBy x) _ _ := StepList.forall₂_nodes (hrun "").generated
  refine ⟨fun root hroot => ⟨?_, fun n hn => ?_⟩, fun pre n ty init place post hsplit => ?_,
    fun i j body node hi hj hij n hn hlocal => ?_⟩
  · unfold StepList.finish at hroot
    split at hroot
    · cases hroot
    · next hn =>
      cases hroot
      exact .inl hn
    · cases hroot
      exact .inr rfl
  · by_contra hfree
    have hweight :=
      StepList.weights_finish (lawful_ofLocal : (Weighing.ofLocal x n).Lawful) (hrun n).generated
    rw [(hrun n).weights hfree, Option.mem_def.1 hroot, Option.toList_some, Node.weights_cons,
      Node.weights_nil, add_zero] at hweight
    exact (weight_ofLocal root).1 hweight hn
  · rw [hsplit] at h
    obtain ⟨s, before, init', after, rest, hpre, hpending, hflush⟩ := Stage.body_declare h
    have hi : s.steps.length < t.steps.flush.steps.length := by
      rw [hflush, List.length_append]
      simp [StepList.length]
    have hlength := hnodes.length_eq
    refine ⟨s, before, init', after, rest, t.steps.nodes[s.steps.length], hpre, hpending, hflush,
      List.getElem?_eq_getElem _, (hnodes.get hi (hlength ▸ hi)).code _ ?_⟩
    simp [hflush, StepList.length]
  · obtain ⟨hj', rfl⟩ := List.getElem?_eq_some_iff.1 hj
    obtain ⟨hi', hbody⟩ := List.getElem?_eq_some_iff.1 hi
    have hlt : j < t.steps.flush.steps.length := hnodes.length_eq ▸ hj'
    refine List.pairwise_iff_getElem.1 (hrun n).flush.1 i j hi' hlt hij ?_
      ((hnodes.get hlt hj').locals n hlocal)
    rw [hbody]
    exact hn

section Sample

open Linearization

/-- `var n = s; n++` and then, in the next fragment, `s = n; A(s); var n = s; x = n`. -/
def redeclaring : List (List CodeStmt) :=
  [[.declare "n" .int (some readS) {},
      .eval (.unary {} .postIncrement (.name { id := some 4 } "n"))],
    [.eval (.assign {} .assign readS (.name { id := some 5 } "n")), .eval (callA readS),
      .declare "n" .int (some readS) {},
      .eval (.assign {} .assign readX (.name { id := some 6 } "n"))]]

def declaringContext : LowerContext :=
  { sample with
    semantics := { exprs := sample.semantics.exprs ++ [
      { expr := 4, symbol := some .localVar }, { expr := 5, symbol := some .localVar },
      { expr := 6, symbol := some .localVar }] } }

theorem fragments_keep_locals_redeclaring :
    ∃ t root, Stage.fragments { context := declaringContext, span := {} }
        (redeclaring.map (·, none)) {} = .ok () t ∧ t.steps.finish = some root ∧
      t.steps.length = 2 ∧ localsList (declaringContext.reading declaringContext.semantics)
        redeclaring.flatten = ∅ ∧
      root.locals declaringContext.semantics = ∅ := by
  have hstage : ∃ t, Stage.fragments { context := declaringContext, span := {} }
      (redeclaring.map (·, none)) {} = .ok () t ∧
      decide (t.steps.length = 2 ∧ t.steps.finish.isSome = true) = true :=
    ok_of_outcome? (by decide +kernel)
  obtain ⟨t, ht, htest⟩ := hstage
  obtain ⟨hlength, hroot⟩ := of_decide_eq_true htest
  obtain ⟨root, hroot⟩ := Option.isSome_iff_exists.1 hroot
  have hhandles : declaringContext.PlainHandles := by
    intro st hst
    rcases List.mem_pair.1 (Array.mem_toList_iff.2 hst) with rfl | rfl <;> exact ⟨_, rfl⟩
  have hbound : localsList (declaringContext.reading declaringContext.semantics)
      redeclaring.flatten = ∅ := by
    decide +kernel
  refine ⟨t, root, ht, hroot, hlength, hbound, Finset.subset_empty.1 (hbound ▸ ?_)⟩
  exact ((fragments_keep_locals hhandles (fun _ _ => LowerContext.isLocal_of_storeFor?) ht).1
    root hroot).2

end Sample

end Workflow
