import Workflow.Proofs.Run.World
import Workflow.Activity.Store

/-!
# Footprints

What code reads, what it writes, and whether it schedules calls. Code is local to a footprint if
nothing else has an influence on it and it changes nothing else. Two pieces of code whose footprints
are apart may change places.
-/

namespace Workflow

/-- The stores that code may read or write, and whether it may schedule calls. -/
structure Footprint where
  reads : List StoreId := []
  writes : List StoreId := []
  calls : Bool := false
deriving DecidableEq, Repr, Inhabited

namespace Footprint

def union (F G : Footprint) : Footprint where
  reads := F.reads ++ G.reads
  writes := F.writes ++ G.writes
  calls := F.calls || G.calls

instance : Union Footprint := ⟨union⟩

@[simp]
theorem reads_union (F G : Footprint) : (F ∪ G).reads = F.reads ++ G.reads := rfl

@[simp]
theorem writes_union (F G : Footprint) : (F ∪ G).writes = F.writes ++ G.writes := rfl

@[simp]
theorem calls_union (F G : Footprint) : (F ∪ G).calls = (F.calls || G.calls) := rfl

@[simp]
theorem union_empty (F : Footprint) : F ∪ {} = F := by
  change F.union {} = F
  simp [union]

@[simp]
theorem empty_union (F : Footprint) : {} ∪ F = F := by
  change union {} F = F
  simp [union]

/-- Neither piece of code writes what the other one reads or writes, and at most one of them
schedules calls. -/
def apart (F G : Footprint) : Bool :=
  F.writes.all (fun i => !G.reads.contains i && !G.writes.contains i) &&
    G.writes.all (fun i => !F.reads.contains i) && !(F.calls && G.calls)

/-- One footprint lies in another. -/
structure Le (F G : Footprint) : Prop where
  reads : ∀ i ∈ F.reads, i ∈ G.reads ∨ i ∈ G.writes
  writes : ∀ i ∈ F.writes, i ∈ G.writes
  calls : F.calls = true → G.calls = true

theorem le_union_left (F G : Footprint) : F.Le (F ∪ G) where
  reads i h := .inl (by simp [h])
  writes i h := by simp [h]
  calls h := by simp [h]

theorem le_union_right (F G : Footprint) : G.Le (F ∪ G) where
  reads i h := .inl (by simp [h])
  writes i h := by simp [h]
  calls h := by simp [h]

variable {F G : Footprint}

theorem not_mem_of_apart_left (h : F.apart G = true) (hi : i ∈ F.writes) :
    i ∉ G.reads ∧ i ∉ G.writes := by
  simp only [apart, Bool.and_eq_true, List.all_eq_true, Bool.not_eq_eq_eq_not, Bool.not_true,
    List.contains_eq_mem, decide_eq_false_iff_not] at h
  exact h.1.1 i hi

theorem not_mem_of_apart_right (h : F.apart G = true) (hi : i ∈ G.writes) :
    i ∉ F.reads ∧ i ∉ F.writes := by
  refine ⟨?_, fun hF => (not_mem_of_apart_left h hF).2 hi⟩
  simp only [apart, Bool.and_eq_true, List.all_eq_true, Bool.not_eq_eq_eq_not, Bool.not_true,
    List.contains_eq_mem, decide_eq_false_iff_not] at h
  exact h.1.2 i hi

theorem calls_of_apart (h : F.apart G = true) : F.calls = false ∨ G.calls = false := by
  simp only [apart, Bool.and_eq_true, Bool.not_eq_eq_eq_not, Bool.not_true] at h
  cases hF : F.calls <;> simp_all

end Footprint

namespace World

/-- Two worlds do not differ in anything that code with a footprint may depend on. -/
def Alike (F : Footprint) (u x : World StoreId) : Prop :=
  (∀ i, i ∈ F.reads ∨ i ∈ F.writes → x.vars i = u.vars i) ∧
    (F.calls = true → x.trace = u.trace)

/-- The world with everything that code with a footprint may change taken from another one. -/
def patch (F : Footprint) (x u : World StoreId) : World StoreId where
  vars i := if i ∈ F.writes then u.vars i else x.vars i
  trace := if F.calls then u.trace else x.trace

theorem Alike.refl (F : Footprint) (u : World StoreId) : Alike F u u :=
  ⟨fun _ _ => rfl, fun _ => rfl⟩

variable {F : Footprint} {x u : World StoreId} {i : StoreId}

theorem vars_patch_of_mem (h : i ∈ F.writes) : (x.patch F u).vars i = u.vars i := if_pos h

theorem vars_patch_of_not_mem (h : i ∉ F.writes) : (x.patch F u).vars i = x.vars i := if_neg h

theorem trace_patch_of_calls (h : F.calls = true) : (x.patch F u).trace = u.trace := if_pos h

theorem trace_patch_of_not_calls (h : F.calls = false) : (x.patch F u).trace = x.trace :=
  if_neg (by simp [h])

end World

open World

/-- Code that depends on nothing but its footprint and changes nothing else. -/
def Local {α : Type} (F : Footprint) (f : World StoreId → Option (α × World StoreId)) : Prop :=
  ∀ u a u', f u = some (a, u') → ∀ x, Alike F u x → f x = some (a, x.patch F u')

namespace Local

variable {α β : Type} {F G : Footprint} {f : World StoreId → Option (α × World StoreId)}

theorem eq_patch (h : Local F f) {a : α} (hf : f u = some (a, u')) : u' = u.patch F u' := by
  have := h u a u' hf u (.refl F u)
  rw [hf] at this
  exact congrArg Prod.snd (Option.some.inj this)

theorem vars_of_not_mem (h : Local F f) {a : α} (hf : f u = some (a, u'))
    (hi : i ∉ F.writes) : u'.vars i = u.vars i := by
  rw [h.eq_patch hf]
  exact vars_patch_of_not_mem hi

theorem trace_of_not_calls (h : Local F f) {a : α}
    (hf : f u = some (a, u')) (hc : F.calls = false) : u'.trace = u.trace := by
  rw [h.eq_patch hf]
  exact trace_patch_of_not_calls hc

theorem mono (h : Local F f) (hle : F.Le G) : Local G f := by
  intro u a u' hf x hx
  have hx' : Alike F u x :=
    ⟨fun i hi => hx.1 i (hi.elim (hle.reads i) fun hw => .inr (hle.writes i hw)),
      fun hc => hx.2 (hle.calls hc)⟩
  rw [h u a u' hf x hx']
  refine congrArg (fun y => some (a, y)) (World.ext (funext fun i => ?_) ?_)
  · by_cases hF : i ∈ F.writes
    · rw [vars_patch_of_mem hF, vars_patch_of_mem (hle.writes i hF)]
    · rw [vars_patch_of_not_mem hF]
      by_cases hG : i ∈ G.writes
      · rw [vars_patch_of_mem hG, h.vars_of_not_mem hf hF]
        exact hx.1 i (.inr hG)
      · rw [vars_patch_of_not_mem hG]
  · cases hF : F.calls with
    | true => rw [trace_patch_of_calls hF, trace_patch_of_calls (hle.calls hF)]
    | false =>
      rw [trace_patch_of_not_calls hF]
      cases hG : G.calls with
      | true =>
        rw [trace_patch_of_calls hG, h.trace_of_not_calls hf hF]
        exact hx.2 hG
      | false => rw [trace_patch_of_not_calls hG]

theorem bind {g : α → World StoreId → Option (β × World StoreId)} (h : Local F f)
    (h' : ∀ u a u', f u = some (a, u') → Local G (g a)) :
    Local (F ∪ G) (fun u => (f u).bind fun r => g r.1 r.2) := by
  intro u b u₂ hu x hx
  obtain ⟨⟨a, u₁⟩, hf, hg⟩ := Option.bind_eq_some_iff.1 hu
  have hG : Local G (g a) := h' u a u₁ hf
  have hxF : Alike F u x :=
    ⟨fun i hi => hx.1 i (by simpa using hi.imp .inl .inl), fun hc => hx.2 (by simp [hc])⟩
  -- The world after the first part is alike for the second one.
  have hxG : Alike G u₁ (x.patch F u₁) := by
    refine ⟨fun i hi => ?_, fun hc => ?_⟩
    · by_cases hF : i ∈ F.writes
      · exact vars_patch_of_mem hF
      · rw [vars_patch_of_not_mem hF, h.vars_of_not_mem hf hF]
        exact hx.1 i (by simpa using hi.imp .inr .inr)
    · cases hF : F.calls with
      | true => exact trace_patch_of_calls hF
      | false =>
        rw [trace_patch_of_not_calls hF, h.trace_of_not_calls hf hF]
        exact hx.2 (by simp [hc])
  refine Option.bind_eq_some_iff.2 ⟨_, h u a u₁ hf x hxF, (hG u₁ b u₂ hg _ hxG).trans ?_⟩
  refine congrArg (fun y => some (b, y)) (World.ext (funext fun i => ?_) ?_)
  · by_cases hGw : i ∈ G.writes
    · rw [vars_patch_of_mem hGw, vars_patch_of_mem (by simp [hGw])]
    · rw [vars_patch_of_not_mem hGw]
      by_cases hFw : i ∈ F.writes
      · rw [vars_patch_of_mem hFw, vars_patch_of_mem (by simp [hFw]),
          hG.vars_of_not_mem hg hGw]
      · rw [vars_patch_of_not_mem hFw, vars_patch_of_not_mem (by simp [hFw, hGw])]
  · cases hGc : G.calls with
    | true => rw [trace_patch_of_calls hGc, trace_patch_of_calls (by simp [hGc])]
    | false =>
      rw [trace_patch_of_not_calls hGc]
      cases hFc : F.calls with
      | true =>
        rw [trace_patch_of_calls hFc, trace_patch_of_calls (by simp [hFc]),
          hG.trace_of_not_calls hg hGc]
      | false => rw [trace_patch_of_not_calls hFc, trace_patch_of_not_calls (by simp [hFc, hGc])]

theorem pure (F : Footprint) (a : α) : Local F (fun u => some (a, u)) := by
  have h : Local {} (fun u => some (a, u)) := by
    intro u b u' hu x _
    cases hu
    rfl
  exact h.mono ⟨by simp, by simp, by simp⟩

theorem none (F : Footprint) : Local F (fun _ => (Option.none : Option (α × World StoreId))) := by
  intro u a u' hu
  cases hu

theorem filterMap (h : Local F f) (g : α → Option β) :
    Local F (fun u => (f u).bind fun r => (g r.1).bind fun b => some (b, r.2)) := by
  have hg : ∀ a, Local {} (fun u => (g a).bind fun b => some (b, u)) := fun a => by
    cases g a with
    | none => exact .none {}
    | some b => exact .pure {} b
  have hbind := h.bind fun _ a _ _ => hg a
  rwa [Footprint.union_empty] at hbind

theorem map (h : Local F f) (g : α → β) : Local F (fun u => (f u).bind fun r => some (g r.1, r.2)) :=
  h.filterMap fun a => some (g a)

/-- Two pieces of code whose footprints are apart may change places. -/
theorem swap {g : World StoreId → Option (β × World StoreId)} (hf : Local F f) (hg : Local G g)
    (hapart : F.apart G = true) {a : α} {b : β}
    (hu₁ : f u = some (a, u₁)) (hu₂ : g u₁ = some (b, u₂)) :
    ∃ x, g u = some (b, x) ∧ f x = some (a, u₂) := by
  have hG : Alike G u₁ u := by
    refine ⟨fun i hi => ?_, fun hc => ?_⟩
    · have hF : i ∉ F.writes := fun hF =>
        hi.elim (Footprint.not_mem_of_apart_left hapart hF).1
          (Footprint.not_mem_of_apart_left hapart hF).2
      exact (hf.vars_of_not_mem hu₁ hF).symm
    · have hF := (Footprint.calls_of_apart hapart).resolve_right (by simp [hc])
      exact (hf.trace_of_not_calls hu₁ hF).symm
  have hF : Alike F u (u.patch G u₂) := by
    refine ⟨fun i hi => ?_, fun hc => ?_⟩
    · exact vars_patch_of_not_mem fun hw => hi.elim
        (Footprint.not_mem_of_apart_right hapart hw).1
        (Footprint.not_mem_of_apart_right hapart hw).2
    · exact trace_patch_of_not_calls
        ((Footprint.calls_of_apart hapart).resolve_left (by simp [hc]))
  refine ⟨u.patch G u₂, hg u₁ b u₂ hu₂ u hG, (hf u a u₁ hu₁ _ hF).trans ?_⟩
  refine congrArg (fun y => some (a, y)) (World.ext (funext fun i => ?_) ?_)
  · by_cases hFw : i ∈ F.writes
    · have hGw := (Footprint.not_mem_of_apart_left hapart hFw).2
      rw [vars_patch_of_mem hFw, hg.vars_of_not_mem hu₂ hGw]
    · rw [vars_patch_of_not_mem hFw]
      by_cases hGw : i ∈ G.writes
      · exact vars_patch_of_mem hGw
      · rw [vars_patch_of_not_mem hGw, hg.vars_of_not_mem hu₂ hGw, hf.vars_of_not_mem hu₁ hFw]
  · cases hFc : F.calls with
    | true =>
      have hGc := (Footprint.calls_of_apart hapart).resolve_left (by simp [hFc])
      rw [trace_patch_of_calls hFc, hg.trace_of_not_calls hu₂ hGc]
    | false =>
      rw [trace_patch_of_not_calls hFc]
      cases hGc : G.calls with
      | true => exact trace_patch_of_calls hGc
      | false =>
        rw [trace_patch_of_not_calls hGc, hg.trace_of_not_calls hu₂ hGc,
          hf.trace_of_not_calls hu₁ hFc]

end Local

end Workflow
