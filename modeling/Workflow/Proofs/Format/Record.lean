import Mathlib.Algebra.Group.Int.Defs
import Mathlib.Algebra.Group.Nat.Defs
import Workflow.Code.Format

/-!
# Reading back records

What the readers of JSON values make of the fields that are written, and what can be said of all
that they read. Fields can be left out, so that a record is looked at by the values that it has for
a name.
-/

namespace Workflow

open Option

variable {α : Type} {n : Nat} {j : Json} {fields : List (String × Json)}
variable {a : α} {read : Json → Option α}

namespace Json

def InWord (bits n : Nat) : Prop := n < 2 ^ bits

instance (bits n : Nat) : Decidable (InWord bits n) := inferInstanceAs (Decidable (n < 2 ^ bits))

/-! ### Values of a name -/

theorem values_nil (key : String) : values key [] = [] := rfl

theorem values_cons (key name : String) (j : Json) (fs : List (String × Json)) :
    values key ((name, j) :: fs) = if name = key then j :: values key fs else values key fs := by
  by_cases h : name = key <;> simp [values, h]

theorem values_append (key : String) (fs gs : List (String × Json)) :
    values key (fs ++ gs) = values key fs ++ values key gs := by
  simp [values]

theorem values_fieldOpt (key name : String) (write : α → Json) (o : Option α) :
    values key (fieldOpt name write o) = if name = key then (o.map write).toList else [] := by
  cases o <;> by_cases h : name = key <;> simp [values, fieldOpt, h]

theorem values_ite (key name : String) (p : Prop) [Decidable p] (j : Json) :
    values key (if p then [] else [(name, j)]) =
      if name = key then if p then [] else [j] else [] := by
  by_cases hp : p <;> by_cases h : name = key <;> simp [values, hp, h]

theorem values_fieldList (key name : String) (write : α → Json) (items : List α) :
    values key (fieldList name write items) =
      if name = key then if items.isEmpty then [] else [.arr (items.map write)] else [] :=
  values_ite key name (items.isEmpty = true) _

/-! ### What was written -/

theorem bind_of {β : Type} {x : Option α} {f : α → Option β} {b : β} (h : x = some a)
    (hf : f a = some b) : x >>= f = some b :=
  bind_eq_some_iff.2 ⟨a, h, hf⟩

theorem word?_nat (h : InWord bits n) : word? bits (nat n) = some n := by
  have hn : (n : Int) < (Nat.pow 2 bits : Nat) := Int.ofNat_lt.2 h
  simp only [word?, nat, hn]
  simp

theorem nullable?_of_some (hnull : read .null = none) (h : read j = some a) :
    nullable? read j = some (some a) := by
  cases j
  case null => simp [hnull] at h
  all_goals simp [nullable?, h]

theorem nullable?_orNull {β : Type} {write : β → Json} {f : β → α} {o : Option β}
    (hnull : read .null = none) (h : ∀ b ∈ o, read (write b) = some (f b)) :
    nullable? read (orNull write o) = some (o.map f) := by
  cases o with
  | none => rfl
  | some b => exact nullable?_of_some hnull (h b rfl)

theorem nullable?_word? (h : InWord bits n) : nullable? (word? bits) (nat n) = some (some n) :=
  nullable?_of_some rfl (word?_nat h)

theorem depth_le_of_mem_fields : {fields : List (String × Json)} →
    (k, j) ∈ fields → j.depth ≤ depthFields fields
  | (_, _) :: _, .head _ => Nat.le_max_left ..
  | (_, _) :: _, .tail _ h => Nat.le_trans (depth_le_of_mem_fields h) (Nat.le_max_right ..)

theorem depth_lt_of_values (h : values key fields = [j]) : j.depth < (obj fields).depth := by
  have hj : j ∈ values key fields := by rw [h]; exact .head _
  simp only [values, List.mem_map, List.mem_filter] at hj
  obtain ⟨⟨k, j⟩, ⟨hmem, -⟩, rfl⟩ := hj
  exact Nat.lt_succ_of_le (depth_le_of_mem_fields hmem)

theorem depth_le_of_mem_items : {items : List Json} → j ∈ items → j.depth ≤ depthItems items
  | _ :: _, .head _ => Nat.le_max_left ..
  | _ :: _, .tail _ h => Nat.le_trans (depth_le_of_mem_items h) (Nat.le_max_right ..)

theorem of_depth_obj (h : (obj fields).depth ≤ n) :
    ∃ m, n = m + 1 ∧ ∀ k j, (k, j) ∈ fields → j.depth ≤ m := by
  rw [depth] at h
  refine ⟨n - 1, by omega, fun k j hj => ?_⟩
  have := depth_le_of_mem_fields hj
  omega

theorem of_depth_arr (h : (arr items).depth ≤ n) : ∀ j ∈ items, j.depth ≤ n := by
  rw [depth] at h
  intro j hj
  have := depth_le_of_mem_items hj
  omega

theorem list?_cons {as : List α} (h : read j = some a)
    (hs : list? read (.arr js) = some as) : list? read (.arr (j :: js)) = some (a :: as) := by
  rw [list?] at hs ⊢
  rw [List.mapM_cons, h, hs]
  rfl

theorem list?_map {α β : Type} {read : Json → Option α} {write : β → Json} {f : β → α} :
    {l : List β} → (∀ b ∈ l, read (write b) = some (f b)) →
    list? read (.arr (l.map write)) = some (l.map f)
  | [], _ => rfl
  | b :: l, h => by
    rw [List.forall_mem_cons] at h
    exact list?_cons h.1 (list?_map h.2)

theorem list?_strings (ss : List String) : list? str? (strings ss) = some ss := by
  have h : list? str? (strings ss) = some (ss.map id) := list?_map fun _ _ => rfl
  rwa [List.map_id] at h

theorem Variant.ofJson?_obj {place : Place} {name tag : String} {tags : List String}
    (h : values name fields = []) :
    Variant.ofJson? place name tags (.obj ((name, .str tag) :: fields)) =
      some ⟨tag, .obj ((name, .str tag) :: fields)⟩ := by
  have h : values name ((name, .str tag) :: fields) = [.str tag] := by
    rw [values] at h ⊢
    simp [h]
  rw [Variant.ofJson?, h]
  rfl

namespace Record

variable {α β : Type} {read : Json → Option α} {r : Record} {name : String}

theorem required_of {a : α} (hv : values name r.fields = [j]) (h : read j = some a) :
    r.required name read = some a := by
  rw [required, hv, ← h]

theorem optional_of {a : Option α} (hv : values name r.fields = [j])
    (h : nullable? read j = some a) : r.optional name read = some a := by
  rw [optional, hv, ← h]

theorem omissible_of {w : β → Json} {o : Option β} {f : β → α}
    (hv : values name r.fields = (o.map w).toList) (hnull : read .null = none)
    (h : ∀ b ∈ o, read (w b) = some (f b)) : r.omissible name read = some (o.map f) := by
  rw [omissible, hv]
  cases o with
  | none => rfl
  | some b => exact nullable?_of_some hnull (h b rfl)

theorem omissible_self {w : α → Json} {o : Option α}
    (hv : values name r.fields = (o.map w).toList) (hnull : read .null = none)
    (h : ∀ a ∈ o, read (w a) = some a) : r.omissible name read = some o := by
  rw [omissible_of (f := id) hv hnull h, map_id]
  rfl

theorem required_str? (hv : values name r.fields = [.str s]) : r.required name str? = some s :=
  required_of hv rfl

theorem required_bool? (hv : values name r.fields = [.bool b]) : r.required name bool? = some b :=
  required_of hv rfl

theorem omissible_str? (hv : values name r.fields = (s.map .str).toList) :
    r.omissible name str? = some s :=
  omissible_self hv rfl fun _ _ => rfl

theorem defaulted_of {p : Prop} [Decidable p] {d a : α}
    (hv : values name r.fields = if p then [] else [j]) (hd : p → d = a)
    (h : ¬p → read j = some a) : r.defaulted name d read = some a := by
  rw [defaulted, hv]
  by_cases hp : p
  · rw [if_pos hp, hd hp]
  · rw [if_neg hp, ← h hp]

end Record

/-- A reader gives back what is kept of all values that fit and stand inside a JSON value. -/
structure Reader {α : Type} (write : α → Json) (fits : α → Prop) (kept : α → α)
    (read : Json → Option α) (j : Json) : Prop where
  null : read .null = none
  read : ∀ a, fits a → (write a).depth < j.depth → read (write a) = some (kept a)

namespace Reader

open Record

variable {α β : Type} {write : α → Json} {fits : α → Prop} {kept : α → α} {read : Json → Option α}
variable {j : Json} {js : List Json} {r : Record} {name : String}

theorem mono (h : Reader write fits kept read k) (hjk : j.depth ≤ k.depth) :
    Reader write fits kept read j where
  null := h.null
  read a ha hj := h.read a ha (Nat.lt_of_lt_of_le hj hjk)

theorem head (h : Reader write fits kept read (.arr (j :: js))) : Reader write fits kept read j :=
  h.mono (by rw [depth, depthItems]; omega)

theorem tail (h : Reader write fits kept read (.arr (j :: js))) :
    Reader write fits kept read (.arr js) :=
  h.mono (by rw [depth, depth, depthItems]; omega)

theorem read_head {a : α} (h : Reader write fits kept read (.arr (write a :: js))) (ha : fits a) :
    read (write a) = some (kept a) :=
  h.read a ha (by rw [depth, depthItems]; omega)

variable (h : Reader write fits kept read (.obj r.fields))

include h

theorem field (hv : values name r.fields = [j]) : Reader write fits kept read j :=
  h.mono (Nat.le_of_lt (depth_lt_of_values hv))

theorem required_of {read' : Json → Option β} {b : β} (hv : values name r.fields = [j])
    (hread : Reader write fits kept read j → read' j = some b) : r.required name read' = some b :=
  Record.required_of hv (hread (h.field hv))

theorem defaulted_of {read' : Json → Option (List β)} {bs : List β} {p : Prop} [Decidable p]
    (hv : values name r.fields = if p then [] else [j]) (hbs : p → bs = [])
    (hread : Reader write fits kept read j → read' j = some bs) :
    r.defaulted name [] read' = some bs :=
  Record.defaulted_of hv (fun hp => (hbs hp).symm) fun hp => hread (h.field (by rw [hv, if_neg hp]))

theorem required {a : α} (ha : fits a) (hv : values name r.fields = [write a]) :
    r.required name read = some (kept a) :=
  Record.required_of hv (h.read a ha (depth_lt_of_values hv))

end Reader

/-! ### Whatever is read -/

section Readers

variable {α : Type} {read : Json → Option α} {r : Record} {name : String}

@[grind →]
theorem Record.of_required {a : α} (h : r.required name read = some a) : ∃ j, read j = some a := by
  unfold required at h
  split at h
  case h_1 => exact ⟨_, h⟩
  case h_2 => nomatch h

@[grind →]
theorem Record.of_defaulted {d a : α} (h : r.defaulted name d read = some a) :
    a = d ∨ ∃ j, read j = some a := by
  unfold defaulted at h
  split at h
  case h_1 => exact .inl (some.inj h).symm
  case h_2 => exact .inr ⟨_, h⟩
  case h_3 => nomatch h

@[grind →]
theorem Record.of_omissible {a : α} (h : r.omissible name read = some (some a)) :
    ∃ j, read j = some a := by
  unfold omissible at h
  split at h
  case h_1 => nomatch h
  case h_2 j _ =>
    cases j
    case null => nomatch h
    all_goals exact ⟨_, by simpa [nullable?] using h⟩
  case h_3 => nomatch h

theorem of_mapM {js : List Json} {as : List α} (h : js.mapM read = some as) :
    ∀ a ∈ as, ∃ j, read j = some a := by
  induction js generalizing as with
  | nil =>
    obtain rfl : [] = _ := by simpa using h
    exact nofun
  | cons j js ih =>
    simp only [List.mapM_cons, bind_eq_bind, bind_eq_some_iff, pure_def,
      some.injEq] at h
    obtain ⟨a, ha, as, has, rfl⟩ := h
    exact List.forall_mem_cons.2 ⟨⟨j, ha⟩, ih has⟩

@[grind →]
theorem of_list? {as : List α} (h : list? read j = some as) : ∀ a ∈ as, ∃ j, read j = some a := by
  cases j
  case arr => exact of_mapM h
  all_goals nomatch h

@[grind →]
theorem inWord_of_word? (h : word? bits j = some n) : InWord bits n := by
  cases j
  case int i =>
    simp only [word?, ite_none_right_eq_some, Bool.and_eq_true, decide_eq_true_eq] at h
    obtain ⟨⟨hpos, hlt⟩, h⟩ := h
    obtain rfl : i.toNat = n := by simpa using h
    rw [InWord, ← Nat.pow_eq]
    omega
  all_goals nomatch h

@[simp, grind .]
theorem inWord_zero (bits : Nat) : InWord bits 0 := Nat.two_pow_pos bits

end Readers

end Json

end Workflow
