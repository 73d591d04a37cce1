import Workflow.Proofs.Format.Record

/-!
# Reading back embedded code

What is written of embedded code can be read again. Nothing gets lost, except what is left of spans
that point nowhere: they come back as the span of expressions that the compiler makes. The numbers
of the code have to fit into the words of the format, and all that is read does.
-/

namespace Workflow

open Json CodeStmt Argument Variant Option

/-! ### What the format keeps -/

/-- The span as it is read again: one that points nowhere is not written. -/
def Span.kept (s : Span) : Span := if s.isUnknown then {} else s

def Origin.kept (o : Origin) : Origin := { o with span := o.span.kept }

mutual
def Expr.kept : Expr → Expr
  | .literal o v => .literal o.kept v
  | .name o n => .name o.kept n
  | .member o t n => .member o.kept t.kept n
  | .call o c args => .call o.kept c.kept (Argument.keptList args)
  | .create o ty args => .create o.kept ty (Argument.keptList args)
  | .unary o op e => .unary o.kept op e.kept
  | .binary o op l r => .binary o.kept op l.kept r.kept
  | .conditional o c y n => .conditional o.kept c.kept y.kept n.kept
  | .assign o op t v => .assign o.kept op t.kept v.kept
  | .lambda o ps b => .lambda o.kept ps b.kept
  | .cast o ty e => .cast o.kept ty e.kept
  | .index o t i => .index o.kept t.kept i.kept
  | .block o b v => .block o.kept (CodeStmt.keptList b) (Expr.keptOpt v)

def Argument.keptList : List Argument → List Argument
  | [] => []
  | .mk d e :: rest => .mk d e.kept :: Argument.keptList rest

def CodeStmt.kept : CodeStmt → CodeStmt
  | .eval e => .eval e.kept
  | .declare name ty init span => .declare name ty (Expr.keptOpt init) span.kept
  | .block b => .block (CodeStmt.keptList b)
  | .branch c y n => .branch c.kept y.kept (CodeStmt.keptOpt n)
  | .loop c b => .loop c.kept b.kept

def CodeStmt.keptList : List CodeStmt → List CodeStmt
  | [] => []
  | s :: rest => s.kept :: CodeStmt.keptList rest

def Expr.keptOpt : Option Expr → Option Expr
  | none => none
  | some e => some e.kept

def CodeStmt.keptOpt : Option CodeStmt → Option CodeStmt
  | none => none
  | some s => some s.kept
end

/-! ### Numbers in range -/

/-- All numbers fit into 32 bits. -/
structure Span.InRange (s : Span) : Prop where
  unit : InWord 32 s.unit
  line : InWord 32 s.line
  column : InWord 32 s.column
  endLine : InWord 32 s.endLine
  endColumn : InWord 32 s.endColumn

/-- The identity and the span fit into 32 bits. -/
structure Origin.InRange (o : Origin) : Prop where
  id : ∀ id ∈ o.id, InWord 32 id
  span : o.span.InRange

def Literal.InRange : Literal → Prop
  | .int n => -2 ^ 63 ≤ n ∧ n < 2 ^ 63
  | _ => True

mutual
def Expr.InRange : Expr → Prop
  | .literal o v => o.InRange ∧ v.InRange
  | .name o _ => o.InRange
  | .member o t _ => o.InRange ∧ t.InRange
  | .call o c args => o.InRange ∧ c.InRange ∧ Argument.AllInRange args
  | .create o _ args => o.InRange ∧ Argument.AllInRange args
  | .unary o _ e => o.InRange ∧ e.InRange
  | .binary o _ l r => o.InRange ∧ l.InRange ∧ r.InRange
  | .conditional o c y n => o.InRange ∧ c.InRange ∧ y.InRange ∧ n.InRange
  | .assign o _ t v => o.InRange ∧ t.InRange ∧ v.InRange
  | .lambda o _ b => o.InRange ∧ b.InRange
  | .cast o _ e => o.InRange ∧ e.InRange
  | .index o t i => o.InRange ∧ t.InRange ∧ i.InRange
  | .block o b v => o.InRange ∧ CodeStmt.AllInRange b ∧ Expr.OptInRange v

def Argument.AllInRange : List Argument → Prop
  | [] => True
  | .mk _ e :: rest => e.InRange ∧ Argument.AllInRange rest

def CodeStmt.InRange : CodeStmt → Prop
  | .eval e => e.InRange
  | .declare _ _ init span => Expr.OptInRange init ∧ span.InRange
  | .block b => CodeStmt.AllInRange b
  | .branch c y n => c.InRange ∧ y.InRange ∧ CodeStmt.OptInRange n
  | .loop c b => c.InRange ∧ b.InRange

def CodeStmt.AllInRange : List CodeStmt → Prop
  | [] => True
  | s :: rest => s.InRange ∧ CodeStmt.AllInRange rest

def Expr.OptInRange : Option Expr → Prop
  | none => True
  | some e => e.InRange

def CodeStmt.OptInRange : Option CodeStmt → Prop
  | none => True
  | some s => s.InRange
end

/-! ### Writing again -/

@[simp]
theorem Span.isUnknown_kept (s : Span) : s.kept.isUnknown = s.isUnknown := by
  unfold kept
  split
  case isTrue h => exact h.symm
  case isFalse => rfl

theorem Span.kept_of_known {s : Span} (h : s.isUnknown = false) : s.kept = s := by
  simp [kept, h]

theorem Span.field_kept (s : Span) : (if s.isUnknown then [] else [("span", s.kept.toJson)]) =
      if s.isUnknown then [] else [("span", s.toJson)] := by
  cases h : s.isUnknown <;> simp [h, kept_of_known]

@[simp]
theorem Origin.wrap_kept (o : Origin) (kind : List (String × Json)) :
    o.kept.wrap kind = o.wrap kind := by
  simp [wrap, kept, Span.field_kept]

mutual
theorem Expr.toJson_kept (e : Expr) : e.kept.toJson = e.toJson := by
  cases e <;>
    simp [Expr.kept, Expr.toJson, Expr.toJson_kept, Argument.toJsonList_kept,
      CodeStmt.toJsonList_kept, Expr.toJsonField_kept]

theorem Argument.toJsonList_kept : (args : List Argument) →
    toJsonList (keptList args) = toJsonList args
  | [] => rfl
  | .mk _ e :: rest => by
    simp [Argument.keptList, Argument.toJsonList, e.toJson_kept, Argument.toJsonList_kept rest]

theorem CodeStmt.toJson_kept (s : CodeStmt) : s.kept.toJson = s.toJson := by
  cases s <;>
    simp [CodeStmt.kept, CodeStmt.toJson, Expr.toJson_kept, CodeStmt.toJson_kept,
      CodeStmt.toJsonList_kept, Expr.toJsonField_kept, CodeStmt.toJsonField_kept, Span.field_kept]

theorem CodeStmt.toJsonList_kept : (b : List CodeStmt) →
    CodeStmt.toJsonList (CodeStmt.keptList b) = CodeStmt.toJsonList b
  | [] => rfl
  | s :: rest => by
    simp [CodeStmt.keptList, CodeStmt.toJsonList, s.toJson_kept, CodeStmt.toJsonList_kept rest]

theorem Expr.toJsonField_kept : (e : Option Expr) →
    Expr.toJsonField name (Expr.keptOpt e) = Expr.toJsonField name e
  | none => rfl
  | some e => by simp [Expr.keptOpt, Expr.toJsonField, e.toJson_kept]

theorem CodeStmt.toJsonField_kept : (s : Option CodeStmt) →
    toJsonField name (keptOpt s) = toJsonField name s
  | none => rfl
  | some s => by simp [keptOpt, toJsonField, s.toJson_kept]
end

/-! ### Reading what was written -/

-- the tag is decided before the branches are looked at
attribute [local simp ↓] bind_eq_bind bind_some

attribute [local simp] values record?
  Record.ofJson? Record.required Record.defaulted Record.omissible str?
  list? Expr.toJsonField toJsonField Expr.kept kept Expr.keptOpt
  keptOpt

theorem Span.ofJson?_toJson (h : s.InRange) : ofJson? s.toJson = some s := by
  -- the steps are explicit, so that no word is computed when they are checked
  simp -implicitDefEqProofs [ofJson?, toJson, word?_nat h.unit, word?_nat h.line,
    word?_nat h.column, word?_nat h.endLine, word?_nat h.endColumn]

theorem Literal.ofJson?_toJson (h : v.InRange) : ofJson? v.toJson = some v := by
  cases v
  case int n =>
    have hn : -(9223372036854775808 : Int) ≤ n ∧ n < 9223372036854775808 := h
    simp [ofJson?, toJson, find?, choice?, ofParts?, int64?, hn]
  all_goals simp [ofJson?, toJson, find?, choice?, ofParts?, bool?, number?]

/-- An expression is read by its origin and its kind, which have fuel for all that is in them. -/
theorem Expr.read?_wrap {o : Origin} (ho : o.InRange) (hn : (o.wrap kind).depth ≤ n)
    (h : ∀ m, (∀ k j, (k, j) ∈ kind → j.depth ≤ m) →
      Expr.readKind? (m + 1) place o.kept (.obj kind) = some e) :
    Expr.read? n place (o.wrap kind) = some e := by
  obtain ⟨m, rfl, hm⟩ := of_depth_obj hn
  obtain ⟨m, rfl, hkind⟩ := of_depth_obj (hm "kind" (.obj kind) (by simp))
  have he := h m hkind
  have hspan := Span.ofJson?_toJson ho.span
  have hid : ∀ i ∈ o.id, nullable? (word? 32) (.nat i) = some (some i) :=
    fun i hi => nullable?_word? (ho.id i hi)
  obtain ⟨id, span⟩ := o
  cases id <;> cases hknown : span.isUnknown <;>
    simp_all -implicitDefEqProofs [Expr.read?, Origin.wrap, fieldOpt, Origin.kept, Span.kept]

theorem Expr.read?_null : (n : Nat) → (place : Place) → Expr.read? n place .null = none
  | 0, _ | _ + 1, _ => rfl

theorem CodeStmt.read?_null : (n : Nat) → (place : Place) → read? n place .null = none
  | 0, _ | _ + 1, _ => rfl

mutual
theorem Expr.read?_toJson (place : Place) : (e : Expr) → e.InRange →
    e.toJson.depth ≤ n → Expr.read? n place e.toJson = some e.kept
  | .literal _ _, h, hn => by
    refine Expr.read?_wrap h.1 hn fun m _ => ?_
    refine bind_of (ofJson?_obj (by simp)) ?_
    simp [Literal.ofJson?_toJson h.2]
  | .name _ _, h, hn => by
    refine Expr.read?_wrap h hn fun m _ => ?_
    refine bind_of (ofJson?_obj (by simp)) ?_
    simp
  | .member _ t _, h, hn => by
    refine Expr.read?_wrap h.1 hn fun m hm => ?_
    have ht := t.read?_toJson .inside h.2 (hm "target" _ (by simp))
    refine bind_of (ofJson?_obj (by simp)) ?_
    simp [ht]
  | .call _ f args, h, hn => by
    refine Expr.read?_wrap h.1 hn fun m hm => ?_
    have hf := f.read?_toJson .inside h.2.1 (hm "callee" _ (by simp))
    have hargs := Argument.mapM_toJsonList args h.2.2 (of_depth_arr (hm "args" _ (by simp)))
    refine bind_of (ofJson?_obj (by simp)) ?_
    simp [hf, hargs]
  | .create _ _ args, h, hn => by
    refine Expr.read?_wrap h.1 hn fun m hm => ?_
    have hargs := Argument.mapM_toJsonList args h.2 (of_depth_arr (hm "args" _ (by simp)))
    refine bind_of (ofJson?_obj (by simp)) ?_
    simp [hargs]
  | .unary _ _ e, h, hn | .cast _ _ e, h, hn => by
    refine Expr.read?_wrap h.1 hn fun m hm => ?_
    have he := e.read?_toJson .inside h.2 (hm "operand" _ (by simp))
    refine bind_of (ofJson?_obj (by simp)) ?_
    simp [he]
  | .binary _ _ l r, h, hn => by
    refine Expr.read?_wrap h.1 hn fun m hm => ?_
    have hl := l.read?_toJson .inside h.2.1 (hm "lhs" _ (by simp))
    have hr := r.read?_toJson .inside h.2.2 (hm "rhs" _ (by simp))
    refine bind_of (ofJson?_obj (by simp)) ?_
    simp [hl, hr]
  | .conditional _ c y e, h, hn => by
    refine Expr.read?_wrap h.1 hn fun m hm => ?_
    have hc := c.read?_toJson .inside h.2.1 (hm "condition" _ (by simp))
    have hy := y.read?_toJson .inside h.2.2.1 (hm "then" _ (by simp))
    have he := e.read?_toJson .inside h.2.2.2 (hm "otherwise" _ (by simp))
    refine bind_of (ofJson?_obj (by simp)) ?_
    simp [hc, hy, he]
  | .assign _ _ t v, h, hn => by
    refine Expr.read?_wrap h.1 hn fun m hm => ?_
    have ht := t.read?_toJson .inside h.2.1 (hm "target" _ (by simp))
    have hv := v.read?_toJson .inside h.2.2 (hm "value" _ (by simp))
    refine bind_of (ofJson?_obj (by simp)) ?_
    simp [ht, hv]
  | .lambda _ ps b, h, hn => by
    refine Expr.read?_wrap h.1 hn fun m hm => ?_
    have hb := b.read?_toJson .inside h.2 (hm "body" _ (by simp))
    refine bind_of (ofJson?_obj (by simp)) ?_
    simp [-list?, hb, list?_strings]
  | .index _ t i, h, hn => by
    refine Expr.read?_wrap h.1 hn fun m hm => ?_
    have ht := t.read?_toJson .inside h.2.1 (hm "target" _ (by simp))
    have hi := i.read?_toJson .inside h.2.2 (hm "index" _ (by simp))
    refine bind_of (ofJson?_obj (by simp)) ?_
    simp [ht, hi]
  | .block _ b none, h, hn => by
    refine Expr.read?_wrap h.1 hn fun m hm => ?_
    have hb := CodeStmt.mapM_toJsonList b h.2.1 (of_depth_arr (hm "body" _ (by simp)))
    refine bind_of (ofJson?_obj (by simp)) ?_
    simp [hb]
  | .block _ b (some v), h, hn => by
    refine Expr.read?_wrap h.1 hn fun m hm => ?_
    have hb := CodeStmt.mapM_toJsonList b h.2.1 (of_depth_arr (hm "body" _ (by simp)))
    have hv := v.read?_toJson .inside h.2.2 (hm "value" _ (by simp))
    refine bind_of (ofJson?_obj (by simp)) ?_
    simp [hb, nullable?_of_some (Expr.read?_null m .inside) hv]

theorem Argument.mapM_toJsonList : (args : List Argument) → Argument.AllInRange args →
    (∀ j ∈ Argument.toJsonList args, j.depth ≤ n) →
    (Argument.toJsonList args).mapM (Argument.read? n) = some (Argument.keptList args)
  | [], _, _ => rfl
  | .mk d e :: rest, h, hn => by
    rw [Argument.toJsonList, List.forall_mem_cons] at hn
    have hrest := Argument.mapM_toJsonList rest h.2 hn.2
    obtain ⟨m, rfl, hm⟩ := of_depth_obj hn.1
    have he := e.read?_toJson .inside h.1 (hm "value" _ (by simp))
    have he : Argument.read? (m + 1) (.obj [("direction", d.toJson), ("value", e.toJson)]) =
        some (.mk d e.kept) := by simp [Argument.read?, he]
    simp [Argument.toJsonList, Argument.keptList, he, hrest]

theorem CodeStmt.read?_toJson (place : Place) : (s : CodeStmt) → s.InRange →
    s.toJson.depth ≤ n → CodeStmt.read? n place s.toJson = some s.kept
  | .eval e, h, hn => by
    obtain ⟨m, rfl, hm⟩ := of_depth_obj hn
    have he := e.read?_toJson .inside h (hm "expr" _ (by simp))
    refine bind_of (ofJson?_obj (by simp)) ?_
    simp [he]
  | .declare _ _ none span, h, hn => by
    obtain ⟨m, rfl, -⟩ := of_depth_obj hn
    have hspan := Span.ofJson?_toJson h.2
    rw [CodeStmt.toJson, CodeStmt.kept, Span.kept]
    cases span.isUnknown
    all_goals
      refine bind_of (ofJson?_obj (by simp)) ?_
      simp -implicitDefEqProofs [hspan]
  | .declare _ _ (some e) span, h, hn => by
    obtain ⟨m, rfl, hm⟩ := of_depth_obj hn
    have hspan := Span.ofJson?_toJson h.2
    have he := e.read?_toJson .inside h.1 (hm "init" _ (by simp))
    have he := nullable?_of_some (Expr.read?_null m .inside) he
    rw [CodeStmt.toJson, CodeStmt.kept, Span.kept]
    cases span.isUnknown
    all_goals
      refine bind_of (ofJson?_obj (by simp)) ?_
      simp -implicitDefEqProofs [hspan, he]
  | .block b, h, hn => by
    obtain ⟨m, rfl, hm⟩ := of_depth_obj hn
    have hb := CodeStmt.mapM_toJsonList b h (of_depth_arr (hm "body" _ (by simp)))
    refine bind_of (ofJson?_obj (by simp)) ?_
    simp [hb]
  | .branch c y none, h, hn => by
    obtain ⟨m, rfl, hm⟩ := of_depth_obj hn
    have hc := c.read?_toJson .inside h.1 (hm "condition" _ (by simp))
    have hy := y.read?_toJson .inside h.2.1 (hm "then" _ (by simp))
    refine bind_of (ofJson?_obj (by simp)) ?_
    simp [hc, hy]
  | .branch c y (some s), h, hn => by
    obtain ⟨m, rfl, hm⟩ := of_depth_obj hn
    have hc := c.read?_toJson .inside h.1 (hm "condition" _ (by simp))
    have hy := y.read?_toJson .inside h.2.1 (hm "then" _ (by simp))
    have hs := s.read?_toJson .inside h.2.2 (hm "otherwise" _ (by simp))
    refine bind_of (ofJson?_obj (by simp)) ?_
    simp [hc, hy,
      nullable?_of_some (CodeStmt.read?_null m .inside) hs]
  | .loop c b, h, hn => by
    obtain ⟨m, rfl, hm⟩ := of_depth_obj hn
    have hc := c.read?_toJson .inside h.1 (hm "condition" _ (by simp))
    have hb := b.read?_toJson .inside h.2 (hm "body" _ (by simp))
    refine bind_of (ofJson?_obj (by simp)) ?_
    simp [hc, hb]

theorem CodeStmt.mapM_toJsonList : (b : List CodeStmt) → CodeStmt.AllInRange b →
    (∀ j ∈ CodeStmt.toJsonList b, j.depth ≤ n) →
    (CodeStmt.toJsonList b).mapM (CodeStmt.read? n .inside) = some (CodeStmt.keptList b)
  | [], _, _ => rfl
  | s :: rest, h, hn => by
    rw [CodeStmt.toJsonList, List.forall_mem_cons] at hn
    have hs := s.read?_toJson .inside h.1 hn.1
    have hrest := CodeStmt.mapM_toJsonList rest h.2 hn.2
    simp [CodeStmt.toJsonList, CodeStmt.keptList, hs, hrest]
end

theorem Expr.ofJsonAt?_toJson (place : Place) {e : Expr} (h : e.InRange) :
    Expr.ofJsonAt? place e.toJson = some e.kept :=
  e.read?_toJson place h (Nat.le_succ _)

theorem CodeStmt.list?_toJsonList (place : Place) : {b : List CodeStmt} → AllInRange b →
    list? (ofJsonAt? place) (.arr (toJsonList b)) = some (keptList b)
  | [], _ => rfl
  | s :: rest, h => by
    have hs : ofJsonAt? place s.toJson = some s.kept :=
      s.read?_toJson place h.1 (Nat.le_succ _)
    exact list?_cons hs (list?_toJsonList place h.2)

/-! ### What is read is in range -/

theorem Span.inRange_of_ofJson? (h : ofJson? j = some s) : s.InRange := by
  simp only [ofJson?, bind_eq_bind, bind_eq_some_iff, pure_def, some.injEq] at h
  constructor <;> grind

theorem Span.inRange_default : Span.InRange {} := by
  constructor <;> exact inWord_zero 32

theorem Literal.inRange_of_ofParts? {type : String} {value : Option Json} {v : Literal}
    (h : ofParts? type value = some v) : v.InRange := by
  unfold ofParts? at h
  split at h
  case h_1 | h_2 => obtain rfl := some.inj h; trivial
  case h_4 j =>
    obtain ⟨n, hn, rfl⟩ := map_eq_some_iff.1 h
    cases j
    case int =>
      simp only [int64?, ite_none_right_eq_some, Bool.and_eq_true, decide_eq_true_eq,
        some.injEq] at hn
      exact hn.2 ▸ hn.1
    all_goals nomatch hn
  case h_7 => nomatch h
  all_goals obtain ⟨_, -, rfl⟩ := map_eq_some_iff.1 h; trivial

theorem Literal.inRange_of_ofJson? (h : ofJson? j = some v) : v.InRange := by
  unfold ofJson? at h
  split at h
  case h_3 => nomatch h
  all_goals
    obtain ⟨_, -, h⟩ := bind_eq_some_iff.1 h
    exact inRange_of_ofParts? h

theorem Argument.allInRange_iff : AllInRange args ↔ ∀ a ∈ args, a.value.InRange := by
  induction args with
  | nil => simp [AllInRange]
  | cons a rest ih => cases a; simp [Argument.AllInRange, ih]

theorem CodeStmt.allInRange_iff : AllInRange b ↔ ∀ s ∈ b, s.InRange := by
  induction b with
  | nil => simp [AllInRange]
  | cons s rest ih => simp [CodeStmt.AllInRange, ih]

theorem Expr.optInRange_iff : Expr.OptInRange e ↔ ∀ e', e = some e' → e'.InRange := by
  cases e <;> simp [Expr.OptInRange]

theorem CodeStmt.optInRange_iff : OptInRange s ↔ ∀ s', s = some s' → s'.InRange := by
  cases s <;> simp [OptInRange]

mutual
theorem Expr.inRange_of_read? : (n : Nat) → (place : Place) → (j : Json) → (e : Expr) →
    Expr.read? n place j = some e → e.InRange
  | 0, _, _, _, h => nomatch h
  | n + 1, place, j, e, h => by
    simp only [Expr.read?, bind_eq_bind, bind_eq_some_iff] at h
    obtain ⟨r, -, id, hid, span, hspan, h⟩ := h
    have ho : Origin.InRange ⟨id, span⟩ := by
      constructor
      · rintro i rfl
        grind
      · grind [Span.inRange_of_ofJson?, Span.inRange_default]
    obtain ⟨j', h⟩ := Record.of_required h
    exact Expr.inRange_of_readKind? n place _ e ho h

theorem Expr.inRange_of_readKind? : (n : Nat) → (place : Place) → (j : Json) →
    (e : Expr) → o.InRange → Expr.readKind? n place o j = some e → e.InRange
  | 0, _, _, _, _, h => nomatch h
  | n + 1, place, j, e, ho, h => by
    have hexpr := Expr.inRange_of_read? n .inside
    have hargs := Argument.inRange_of_read? n
    have hbody := CodeStmt.inRange_of_read? n .inside
    simp only [Expr.readKind?, bind_eq_bind, bind_eq_some_iff] at h
    obtain ⟨v, -, h⟩ := h
    split at h
    all_goals simp only [bind_eq_some_iff, some.injEq, reduceCtorEq] at h
    all_goals
      grind [Expr.InRange, Literal.inRange_of_ofJson?, Argument.allInRange_iff,
        CodeStmt.allInRange_iff, Expr.optInRange_iff]

theorem Argument.inRange_of_read? : (n : Nat) → (j : Json) → (a : Argument) →
    read? n j = some a → a.value.InRange
  | 0, _, _, h => nomatch h
  | n + 1, j, a, h => by
    have hexpr := Expr.inRange_of_read? n .inside
    simp only [Argument.read?, bind_eq_bind, bind_eq_some_iff,
      pure_def, some.injEq] at h
    grind [value]

theorem CodeStmt.inRange_of_read? : (n : Nat) → (place : Place) → (j : Json) →
    (s : CodeStmt) → CodeStmt.read? n place j = some s → s.InRange
  | 0, _, _, _, h => nomatch h
  | n + 1, place, j, s, h => by
    have hexpr := Expr.inRange_of_read? n .inside
    have hstmt := CodeStmt.inRange_of_read? n .inside
    simp only [CodeStmt.read?, bind_eq_bind, bind_eq_some_iff] at h
    obtain ⟨v, -, h⟩ := h
    split at h
    all_goals simp only [bind_eq_some_iff, pure_def, some.injEq, reduceCtorEq] at h
    all_goals
      grind [CodeStmt.InRange, CodeStmt.allInRange_iff, Expr.optInRange_iff,
        CodeStmt.optInRange_iff, Span.inRange_of_ofJson?, Span.inRange_default]
end

end Workflow
