import Workflow.Proofs.Format.Code
import Workflow.Tree.Format

/-!
# Reading back programs

What is written of a program can be read again, up to what the format keeps of its code. The numbers
have to fit into the words of the format. All that is read does, so that a program that was read
from any value stays the same when it is written and read once more.
-/

namespace Workflow

open CodeStmt Option

variable {members : List (String × ParseNode)}

namespace ParseNode

mutual
def kept : ParseNode → ParseNode
  | ⟨label, span, members, items, text, code, expr⟩ =>
    ⟨label, span, keptMembers members, keptItems items, text, code.map keptList,
      expr.map Expr.kept⟩

def keptMembers : List (String × ParseNode) → List (String × ParseNode)
  | [] => []
  | (k, n) :: rest => (k, n.kept) :: keptMembers rest

def keptItems : List ParseNode → List ParseNode
  | [] => []
  | n :: rest => n.kept :: keptItems rest
end

mutual
def InRange : ParseNode → Prop
  | ⟨_, span, members, items, _, code, expr⟩ =>
    span.InRange ∧ MembersInRange members ∧ ItemsInRange items ∧
      (∀ body ∈ code, AllInRange body) ∧ ∀ e ∈ expr, e.InRange

def MembersInRange : List (String × ParseNode) → Prop
  | [] => True
  | (_, n) :: rest => n.InRange ∧ MembersInRange rest

def ItemsInRange : List ParseNode → Prop
  | [] => True
  | n :: rest => n.InRange ∧ ItemsInRange rest
end

/-! ### Writing again -/

theorem isEmpty_keptMembers (members : List (String × ParseNode)) :
    (keptMembers members).isEmpty = members.isEmpty := by
  cases members <;> rfl

theorem isEmpty_keptItems (items : List ParseNode) : (keptItems items).isEmpty = items.isEmpty := by
  cases items <;> rfl

mutual
theorem toJson_kept : (n : ParseNode) → n.kept.toJson = n.toJson
  | ⟨_, _, members, items, _, code, expr⟩ => by
    have hcode : Json.fieldOpt "code" (fun body => .arr (toJsonList body))
        (code.map keptList) =
          Json.fieldOpt "code" (fun body => .arr (toJsonList body)) code := by
      cases code <;> simp [Json.fieldOpt, toJsonList_kept]
    have hexpr : Json.fieldOpt "expr" Expr.toJson (expr.map Expr.kept) =
        Json.fieldOpt "expr" Expr.toJson expr := by
      cases expr <;> simp [Json.fieldOpt, Expr.toJson_kept]
    rw [kept, toJson, toJson, isEmpty_keptMembers, isEmpty_keptItems, membersToJson_kept members,
      itemsToJson_kept items, hcode, hexpr]

theorem membersToJson_kept : (members : List (String × ParseNode)) →
    membersToJson (keptMembers members) = membersToJson members
  | [] => rfl
  | (_, n) :: rest => by
    rw [keptMembers, membersToJson, membersToJson, n.toJson_kept, membersToJson_kept rest]

theorem itemsToJson_kept : (items : List ParseNode) →
    itemsToJson (keptItems items) = itemsToJson items
  | [] => rfl
  | n :: rest => by
    rw [keptItems, itemsToJson, itemsToJson, n.toJson_kept, itemsToJson_kept rest]
end

/-! ### Reading what was written -/

section Reading

open Json Json.Record

/-- A reader of nodes gives back what is kept of all nodes that stand inside a value. -/
abbrev Reader := Json.Reader toJson InRange kept

variable {read : Json → Option ParseNode}

theorem readMembers?_membersToJson : {members : List (String × ParseNode)} →
    MembersInRange members → Reader read (.obj (membersToJson members)) →
    readMembers? read (.obj (membersToJson members)) = some (keptMembers members)
  | [], _, _ => rfl
  | (k, n) :: rest, h, R => by
    have hn := R.read n h.1 (Nat.lt_succ_of_le (Nat.le_max_left ..))
    have hrest := readMembers?_membersToJson h.2
      (R.mono (Nat.succ_le_succ (Nat.le_max_right ..)))
    rw [readMembers?] at hrest ⊢
    simp [membersToJson, keptMembers, hn, hrest]

theorem list?_itemsToJson : {items : List ParseNode} → ItemsInRange items →
    Reader read (.arr (itemsToJson items)) →
    list? read (.arr (itemsToJson items)) = some (keptItems items)
  | [], _, _ => rfl
  | _ :: _, h, R => list?_cons (R.read_head h.1) (list?_itemsToJson h.2 R.tail)

attribute [local simp] values_nil values_cons values_append values_fieldOpt values_ite

theorem read?_toJson {p : ParseNode} (h : p.InRange) (hn : p.toJson.depth ≤ n) :
    read? n p.toJson = some p.kept := by
  induction n generalizing p with
  | zero =>
    cases p
    rw [toJson] at hn
    exact absurd hn (Nat.not_succ_le_zero _)
  | succ n ih =>
    obtain ⟨label, span, members, items, text, code, expr⟩ := p
    obtain ⟨hspan, hmembers, hitems, hcode, hexpr⟩ := h
    have hnoMembers : members.isEmpty = true → keptMembers members = [] := by
      simp +contextual [keptMembers]
    have hnoItems : items.isEmpty = true → keptItems items = [] := by
      simp +contextual [keptItems]
    have hspan : ¬False → Span.ofJson? span.toJson = some span :=
      fun _ => Span.ofJson?_toJson hspan
    have hcode : ∀ b ∈ code, list? CodeStmt.ofJson? (.arr (CodeStmt.toJsonList b)) =
        some (CodeStmt.keptList b) :=
      fun b hb => CodeStmt.list?_toJsonList .outside (hcode b hb)
    have hexpr : ∀ e ∈ expr, Expr.ofJson? e.toJson = some e.kept :=
      fun e he => Expr.ofJsonAt?_toJson .outside (hexpr e he)
    rw [toJson] at hn ⊢
    have R : Reader (read? n) (.obj _) :=
      ⟨by cases n <;> rfl, fun p hp hlt => ih hp (Nat.le_of_lt_succ (Nat.lt_of_lt_of_le hlt hn))⟩
    exact bind_of rfl <| bind_of (required_str? (by simp)) <|
      bind_of (defaulted_of (by simp) False.elim hspan) <|
      bind_of (R.defaulted_of (by simp) hnoMembers (readMembers?_membersToJson hmembers)) <|
      bind_of (R.defaulted_of (by simp) hnoItems (list?_itemsToJson hitems)) <|
      bind_of (omissible_str? (by simp)) <| bind_of (omissible_of (by simp) rfl hcode) <|
      bind_of (omissible_of (by simp) rfl hexpr) rfl

end Reading

/-! ### What is read is in range -/

theorem membersInRange_iff : MembersInRange members ↔ ∀ m ∈ members, m.2.InRange := by
  induction members with
  | nil => simp [MembersInRange]
  | cons m rest ih => simp [MembersInRange, ih]

theorem itemsInRange_iff {items : List ParseNode} : ItemsInRange items ↔ ∀ n ∈ items, n.InRange := by
  induction items with
  | nil => simp [ItemsInRange]
  | cons n rest ih => simp [ItemsInRange, ih]

theorem of_readMembers? {read : Json → Option ParseNode}
    (h : readMembers? read j = some members) : ∀ m ∈ members, ∃ j, read j = some m.2 := by
  cases j
  case obj fields =>
    rw [readMembers?] at h
    induction fields generalizing members with
    | nil =>
      obtain rfl : [] = _ := by simpa using h
      exact nofun
    | cons f fields ih =>
      simp only [List.mapM_cons, bind_eq_bind, bind_eq_some_iff, pure_def,
        some.injEq, map_eq_some_iff] at h
      obtain ⟨_, ⟨n, hn, rfl⟩, rest, hrest, rfl⟩ := h
      exact List.forall_mem_cons.2 ⟨⟨f.2, hn⟩, ih hrest⟩
  all_goals cases h

theorem inRange_of_read? (n : Nat) : ∀ j p, read? n j = some p → p.InRange := by
  induction n with
  | zero => exact nofun
  | succ n ih =>
    intro j p h
    simp only [read?, bind_eq_bind, bind_eq_some_iff, pure_def, some.injEq] at h
    obtain ⟨r, -, label, -, span, hspan, members, hmembers, items, hitems, text, -, code, hcode,
      expr, hexpr, rfl⟩ := h
    refine ⟨?_, membersInRange_iff.2 ?_, itemsInRange_iff.2 ?_, ?_, ?_⟩
    · grind [Span.inRange_of_ofJson?, Span.inRange_default]
    · grind [of_readMembers?]
    · grind
    · rintro body rfl
      grind [CodeStmt.ofJson?, CodeStmt.ofJsonAt?, CodeStmt.inRange_of_read?,
        allInRange_iff]
    · rintro e rfl
      grind [Expr.ofJson?, Expr.ofJsonAt?, Expr.inRange_of_read?]

end ParseNode

namespace ParseUnit

def kept (u : ParseUnit) : ParseUnit := { u with activities := u.activities.map ParseNode.kept }

def InRange (u : ParseUnit) : Prop := ∀ n ∈ u.activities, n.InRange

theorem toJson_kept (u : ParseUnit) : u.kept.toJson = u.toJson := by
  simp [toJson, kept, Function.comp_def, ParseNode.toJson_kept]

theorem ofJson?_toJson {u : ParseUnit} (h : u.InRange) : ofJson? u.toJson = some u.kept := by
  have himports := Json.list?_strings u.imports
  have hactivities : Json.list? ParseNode.ofJson? (.arr (u.activities.map ParseNode.toJson)) =
      some (u.activities.map ParseNode.kept) :=
    Json.list?_map fun n hn => ParseNode.read?_toJson (h n hn) (Nat.le_succ _)
  obtain ⟨path, ns, imports, activities⟩ := u
  cases path <;> cases ns
  all_goals
    simp [ofJson?, toJson, kept, Json.fieldOpt, Json.Record.ofJson?, Json.Record.omissible,
      Json.Record.defaulted, Json.values, Json.nullable?, Json.str?, himports, hactivities]

theorem inRange_of_ofJson? (h : ofJson? j = some u) : u.InRange := by
  simp only [ofJson?, bind_eq_bind, bind_eq_some_iff, pure_def, some.injEq] at h
  obtain ⟨r, -, path, -, ns, -, imports, -, activities, hactivities, rfl⟩ := h
  intro n hn
  grind [ParseNode.ofJson?, ParseNode.inRange_of_read?]

end ParseUnit

namespace ParseProgram

/-- The program as it is read again: a span that points nowhere is that of generated code. -/
def kept (p : ParseProgram) : ParseProgram := { units := p.units.map ParseUnit.kept }

def InRange (p : ParseProgram) : Prop := ∀ u ∈ p.units, u.InRange

theorem toJson_kept (p : ParseProgram) : p.kept.toJson = p.toJson := by
  simp [toJson, kept, Function.comp_def, ParseUnit.toJson_kept]

theorem read?_toJson {p : ParseProgram} (h : p.InRange) : read? p.toJson = some p.kept := by
  have hunits : Json.list? ParseUnit.ofJson? (.arr (p.units.map ParseUnit.toJson)) =
      some (p.units.map ParseUnit.kept) :=
    Json.list?_map fun u hu => ParseUnit.ofJson?_toJson (h u hu)
  simp [read?, toJson, kept, Json.Record.ofJson?, Json.Record.required, Json.values, hunits]

theorem inRange_of_ofJson (h : ofJson j = .ok p) : p.InRange := by
  have h : read? j = some p := by
    unfold ofJson at h
    split at h
    case h_1 hp => rw [hp, Except.ok.inj h]
    case h_2 => nomatch h
  simp only [read?, bind_eq_bind, bind_eq_some_iff, pure_def, some.injEq] at h
  obtain ⟨r, -, units, hunits, rfl⟩ := h
  intro u hu
  grind [ParseUnit.inRange_of_ofJson?]

/-- What is written of a program is read as the program, and so is what is written of a program
that was read from any value; to write and read it once more changes nothing. -/
theorem ofJson_roundtrip : (∀ p : ParseProgram, p.InRange → ofJson p.toJson = .ok p.kept) ∧
    ∀ j p, ofJson j = .ok p →
      ofJson p.toJson = .ok p.kept ∧ p.kept.toJson = p.toJson ∧ p.kept.kept = p.kept := by
  have hread : ∀ p : ParseProgram, p.InRange → ofJson p.toJson = .ok p.kept := by
    intro p h
    rw [ofJson, read?_toJson h]
  refine ⟨hread, fun j p h => ?_⟩
  have hp := hread p (inRange_of_ofJson h)
  have hkept := hread p.kept (inRange_of_ofJson hp)
  rw [toJson_kept, hp] at hkept
  exact ⟨hp, p.toJson_kept, (Except.ok.inj hkept).symm⟩

/-- A program with one name, whose span names a unit and no line. -/
def strayProgram (span : Span) : ParseProgram where
  units := [{ activities := [{ label := "activity", expr := some (.name { span := span } "x") }] }]

/-- The program as a value with fields that nobody reads, and without those that may be missing. -/
def strayProgram.loose : Json :=
  .obj [("units", .arr [.obj [("path", .null), ("activities", .arr [.obj [
    ("label", .str "activity"), ("note", .bool true),
    ("expr", .obj [("span", Span.toJson { unit := 3 }),
      ("kind", .obj [("expr", .str "name"), ("name", .str "x")])])]])]])]

theorem ofJson_roundtrip_strayProgram :
    ofJson (strayProgram { unit := 3 }).toJson = .ok (strayProgram {}) ∧
    ofJson strayProgram.loose = .ok (strayProgram { unit := 3 }) ∧
    (strayProgram {}).toJson = (strayProgram { unit := 3 }).toJson := by
  have hloose : ofJson strayProgram.loose = .ok (strayProgram { unit := 3 }) := rfl
  exact ⟨ofJson_roundtrip.1 _ (inRange_of_ofJson hloose), hloose,
    (ofJson_roundtrip.2 _ _ hloose).2.1⟩

end ParseProgram
end Workflow
