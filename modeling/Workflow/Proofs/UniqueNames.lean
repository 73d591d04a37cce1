import Workflow.Proofs.Pipeline
import Workflow.Proofs.Scheduled

/-!
# Names of compiled activities

An activity whose name is taken in its unit is an error, so the names of the activities of a unit
are distinct, with their namespace as well as without it. Nothing compares the names of different
units: two of them that share a namespace may both have an activity of one name, and then a node
type does not say which of the two is invoked. Where the qualified names are distinct it does: the
lexical oracle finds the type of an activity under its qualified name, and all nodes of that type
are bound by the signature of the activity.
-/

namespace Workflow

open List

def NodeGraph.qualifiedName (g : NodeGraph) : String := qualify g.ns g.name

theorem qualify_injective (ns : Option String) : Function.Injective (qualify ns) := by
  intro name name' h
  unfold qualify at h
  split at h
  · split at h
    · exact h
    · exact String.append_right_inj _ |>.1 h
  · exact h

namespace CompilationUnit

theorem nodup_names_add {unit : Nat} {p : Progress} {node : ParseNode}
    (h : (p.activities.map (·.name)).Nodup) : ((p.add unit node).activities.map (·.name)).Nodup := by
  unfold Progress.add
  split
  · exact h
  · next a ids _ =>
    split
    · exact h
    · next hnew =>
      rw [map_append, nodup_append]
      refine ⟨h, nodup_singleton _, fun name hname name' hname' heq => hnew ?_⟩
      obtain ⟨b, hb, rfl⟩ := mem_map.1 hname
      exact any_eq_true.2 ⟨b, hb, by simpa [heq] using hname'⟩

theorem nodup_names_foldl (unit : Nat) (nodes : List ParseNode)
    (h : (p.activities.map (·.name)).Nodup) :
    ((nodes.foldl (Progress.add unit) p).activities.map (·.name)).Nodup := by
  induction nodes generalizing p with
  | nil => exact h
  | cons node nodes ih => exact ih (nodup_names_add h)

theorem nodup_names_buildEach {us : List ParseUnit} {ids : Ids} {index : Nat}
    {u : CompilationUnit} (h : .ok u ∈ (buildEach ids index us).1) : u.outline.2.2.Nodup := by
  induction us generalizing ids index with
  | nil => cases h
  | cons parsed us ih =>
    rcases mem_cons.1 h with hfirst | hrest
    · obtain ⟨_, -, rfl⟩ := map_eq_ok.1 hfirst.symm
      have hnames := nodup_names_foldl index parsed.activities (p := ⟨ids, [], {}⟩) .nil
      have houtline := hnames.map (Option.some_injective String)
      rwa [map_map] at houtline
    · exact ih hrest

/-- In a prepared program each unit has an index of its own, and its activities have different
names. -/
theorem names_prepare (h : prepare p = .ok units) : (units.map (·.index)).Nodup ∧
      ∀ u ∈ units, (u.activities.map (·.name)).Nodup := by
  constructor
  · have hindices := congrArg (map (·.1)) (outline_prepare h)
    rw [map_map, map_map] at hindices
    have hrange : units.map (·.index) = range' 0 p.units.length :=
      hindices.trans (zipIdx_map_snd 0 p.units)
    rw [hrange]
    exact nodup_range'
  · obtain ⟨built, ids, hbuild, rfl⟩ := prepare_eq_ok h
    obtain ⟨hgather, rfl⟩ := gather_of_buildAll hbuild
    have hbuilt := (gather_eq_ok (proper_buildEach p.units {} 0)).1 hgather
    obtain ⟨ids', hresolve⟩ := resolveAll_eq (wellBuilt_built hbuilt) (buildEach {} 0 p.units).2 {}
    intro u hu
    -- resolving keeps the outlines, and those that are built have distinct names
    have houtline : u.outline ∈ built.map outline := by
      rw [← outline_resolveEach built (buildEach {} 0 p.units).2]
      rw [hresolve] at hu
      exact mem_map_of_mem hu
    obtain ⟨v, hv, heq⟩ := mem_map.1 houtline
    have hnames : v.outline.2.2.Nodup :=
      nodup_names_buildEach (hbuilt ▸ mem_map_of_mem hv)
    rw [heq] at hnames
    refine Nodup.of_map some ?_
    rwa [map_map]

end CompilationUnit

/-! ### The type table -/

namespace TypeTable

variable {types : TypeTable} {t u : ModelType} {ts : List ModelType} {key : String}

theorem find?_cons (name : String) (t : ModelType) (types : TypeTable) (key : String) :
    find? ((name, t) :: types) key = if name = key then some t else types.find? key := by
  by_cases h : name = key <;> simp [find?, h]

/-- A qualified name takes a key over, a name does not. -/
theorem find?_add (types : TypeTable) (t : ModelType) (key : String) :
    (types.add t).find? key = if t.qualifiedName = key then some t
      else if t.name = key then types.find? key <|> some t else types.find? key := by
  unfold add
  dsimp only
  split
  all_goals
    simp only [find?_cons] at *
    cases h : types.find? key <;> grind

/-- A key that is the qualified name of one type finds it; a name finds the first type that has it.
-/
theorem find?_foldl_add (hq : ∀ t ∈ ts, t.qualifiedName = key → t = u)
    (h : types.find? key = some u ∨ (u ∈ ts ∧ u.qualifiedName = key) ∨
      (types.find? key = none ∧ ts.find? (·.name == key) = some u)) :
    (ts.foldl add types).find? key = some u := by
  induction ts generalizing types with
  | nil =>
    rcases h with h | ⟨h, -⟩ | ⟨-, h⟩
    · exact h
    · cases h
    · cases h
  | cons t ts ih =>
    refine ih (fun t' ht' => hq t' (mem_cons_of_mem t ht')) ?_
    rw [find?_add]
    by_cases ht : t.qualifiedName = key
    · rw [if_pos ht, hq t mem_cons_self ht]
      exact .inl rfl
    · rw [if_neg ht]
      rcases h with h | ⟨hu, hkey⟩ | ⟨hnone, hfirst⟩
      · rw [h]
        exact .inl (ite_self _)
      · exact .inr (.inl ⟨(mem_cons.1 hu).resolve_left fun heq => ht (heq ▸ hkey), hkey⟩)
      · by_cases hname : t.name = key
        · rw [if_pos hname, hnone]
          exact .inl (by simpa [hname] using hfirst)
        · rw [if_neg hname]
          exact .inr (.inr ⟨hnone, by simpa [hname] using hfirst⟩)

theorem mem_of_mem_foldl_add {entry : String × ModelType} (h : entry ∈ ts.foldl add types) :
    entry ∈ types ∨ entry.2 ∈ ts := by
  induction ts generalizing types with
  | nil => exact .inl h
  | cons t ts ih =>
    rcases ih h with h | h
    · unfold add at h
      grind
    · exact .inr (mem_cons_of_mem t h)

end TypeTable

/-! ### The types of activities -/

theorem forall₂_mapM {σ α β : Type} {f : α → StateM σ β} {R : α → β → Prop}
    (h : ∀ a s, R a (f a s).1) (xs : List α) (s : σ) : Forall₂ R xs (xs.mapM f s).1 := by
  induction xs generalizing s with
  | nil => exact .nil
  | cons x xs ih =>
    rw [mapM_cons]
    exact .cons (h x s) (ih _)

/-- A graph declares the parameters of an attribute and its result, whose types may be inferred. -/
structure NodeGraph.Schedules (g : NodeGraph) (attr : SchedulingAttribute) : Prop where
  nodeType : attr.nodeType = g.qualifiedName
  arguments : ∃ ds rs, g.arguments = ds ++ rs ∧
    Forall₂ (fun d p => d.name = p.name ∧ d.direction = p.direction ∧
      (p.ty.isInferred = false → d.ty = p.ty)) ds attr.parameters ∧
    Forall₂ (fun d ty => ty.isInferred = false → d.ty = ty) rs attr.result.toList

/-- A type stands for a compiled activity, and its one attribute for the signature. -/
structure CompiledActivity.Typed (a : CompiledActivity) (t : ModelType)
    (attr : SchedulingAttribute) : Prop where
  name : t.name = a.name
  qualifiedName : t.qualifiedName = a.graph.qualifiedName
  scheduling : t.methods.filterMap (·.scheduling) = [attr]
  schedules : a.graph.Schedules attr

theorem schedules_lower (a : Activity) (ns : Option String) (x : SemanticIndex) (d : Nat) :
    (a.lower ns x d).1.Schedules
      { nodeType := qualify ns a.name
        parameters := (a.parameters.filterMap fun id => a.stores[id]?).map fun s =>
          { name := s.name, ty := s.ty, direction := s.kind.direction }
        result := a.resultType } := by
  have htype : ∀ (c : LowerContext) (store : Store) s, store.ty.isInferred = false →
      (Lower.storeType c store s).1 = store.ty := by
    intro c store s hty
    rw [Lower.storeType, hty]
    rfl
  have hall : Forall₂ (fun (d : ArgumentDecl) (store : Store) => d.name = store.name ∧
      d.direction = store.kind.direction ∧ (store.ty.isInferred = false → d.ty = store.ty))
      (a.lower ns x d).1.arguments
      ((a.parameters ++ a.result.toList).filterMap fun id => a.stores[id]?) :=
    (forall₂_mapM (fun store s => ⟨rfl, rfl, htype _ store s⟩) _ _).flip
  rw [filterMap_append] at hall
  refine ⟨rfl, _, _, (take_append_drop _ _).symm,
    forall₂_map_right_iff.2 (forall₂_take_append _ _ _ hall), ?_⟩
  have hresult := (forall₂_drop_append _ _ _ hall).imp fun d store h => h.2.2
  have heq : a.resultType.toList =
      (a.result.toList.filterMap fun id => a.stores[id]?).map (·.ty) := by
    unfold Activity.resultType
    cases a.result with
    | none => rfl
    | some id => cases h : a.stores[id]? <;> simp [h]
  rw [heq]
  exact forall₂_map_right_iff.2 hresult

theorem exists_of_find?_forall₂ {α β : Type} {R : α → β → Prop} {xs : List α} {ys : List β}
    {p : α → Bool} {q : β → Bool} {a : α} (h : Forall₂ R xs ys) (hpq : ∀ a b, R a b → p a = q b)
    (hfind : xs.find? p = some a) : ∃ b, ys.find? q = some b ∧ R a b := by
  induction h with
  | nil => cases hfind
  | @cons x y xs ys hxy _ ih =>
    have heq := hpq x y hxy
    cases hp : p x with
    | true =>
      rw [find?_cons_of_pos hp] at hfind
      cases hfind
      exact ⟨y, find?_cons_of_pos (heq ▸ hp), hxy⟩
    | false =>
      rw [find?_cons_of_neg (by simp [hp])] at hfind
      rw [find?_cons_of_neg (by simp [← heq, hp])]
      exact ih hfind

section Types

variable {x : SemanticIndex} {d : Nat} {as : List CompiledActivity} {a : CompiledActivity}
  {t : ModelType} {types : List ModelType}

theorem typed_activityType (u : CompilationUnit) (a : Activity) (s : EmitState) :
    ∃ attr, (u.compiled x d a).Typed (Emit.activityType u.ns a s).1 attr :=
  ⟨_, rfl, rfl, rfl, schedules_lower a u.ns x d⟩

/-- The types of a model program are those of the compiled activities, in their order, and those from
elsewhere. -/
theorem exists_types (x : SemanticIndex) (d : Nat) (units : List CompilationUnit)
    (external : List ModelType) : ∃ types : List ModelType,
    Forall₂ (fun a t => ∃ attr, a.Typed t attr)
      (units.flatMap fun u => u.activities.map (u.compiled x d)) types ∧
    (∀ t, t ∈ (ModelProgram.emit units external).units.flatMap (·.types) →
      t ∈ types ∨ t ∈ external) ∧
    (∀ t ∈ types, t ∈ (ModelProgram.emit units external).units.flatMap (·.types)) ∧
    ∀ p : ModelType → Bool, (∀ t ∈ external, p t = false) →
      ((ModelProgram.emit units external).units.flatMap (·.types)).find? p = types.find? p := by
  have hunits := forall₂_mapM (f := Emit.unit external) (R := fun u mu => ∃ types,
    mu.types = types ++ (if u.index == 0 then external else []) ∧
      Forall₂ (fun a t => ∃ attr, (u.compiled x d a).Typed t attr) u.activities types)
    (fun u s => ⟨_, rfl, forall₂_mapM (fun a s => typed_activityType u a _) u.activities s⟩) units {}
  change Forall₂ _ units (ModelProgram.emit units external).units at hunits
  generalize (ModelProgram.emit units external).units = mus at hunits
  induction hunits with
  | nil => exact ⟨[], .nil, by simp, by simp, by simp⟩
  | @cons u mu units mus hu _ ih =>
    obtain ⟨types, htypes, hlocal, hmem, hfind⟩ := ih
    obtain ⟨own, hown, htyped⟩ := hu
    refine ⟨own ++ types, ?_, ?_, ?_, fun p hp => ?_⟩
    · exact rel_append (forall₂_map_left_iff.2 htyped) htypes
    · intro t ht
      rw [flatMap_cons, hown] at ht
      grind
    · grind
    · have hnone : (if u.index == 0 then external else []).find? p = none := by
        rw [find?_eq_none]
        intro t ht
        split at ht
        · simp [hp t ht]
        · cases ht
      rw [flatMap_cons, hown, find?_append, find?_append, find?_append, hnone, hfind p hp,
        Option.or_none]

theorem Typed.exists_of_mem (h : Forall₂ (fun a t => ∃ attr, a.Typed t attr) as types)
    (hnodup : (as.map (·.graph.qualifiedName)).Nodup) (ha : a ∈ as) :
    ∃ t ∈ types, ∃ attr, a.Typed t attr ∧
      ∀ t' ∈ types, t'.qualifiedName = a.graph.qualifiedName → t' = t := by
  have hnames : types.map (·.qualifiedName) = as.map (·.graph.qualifiedName) := by
    rw [← forall₂_eq_eq_eq, forall₂_map_left_iff, forall₂_map_right_iff]
    exact h.flip.imp fun t a hta => hta.choose_spec.qualifiedName
  obtain ⟨i, rfl⟩ := mem_iff_get.1 ha
  obtain ⟨attr, htyped⟩ := h.get i.isLt (h.length_eq ▸ i.isLt)
  refine ⟨_, get_mem _ _, attr, htyped, fun t' ht' hq => ?_⟩
  exact inj_on_of_nodup_map (hnames ▸ hnodup) ht' (get_mem _ _) (hq.trans htyped.qualifiedName.symm)

theorem Typed.exists_activity (h : Forall₂ (fun a t => ∃ attr, a.Typed t attr) as types)
    (ht : t ∈ types) : ∃ a ∈ as, ∃ attr, a.Typed t attr := by
  obtain ⟨i, rfl⟩ := mem_iff_get.1 ht
  exact ⟨_, get_mem as ⟨i, by rw [h.length_eq]; exact i.isLt⟩, h.get _ i.isLt⟩

end Types

namespace CompilationInput

open CompilationUnit

theorem pairwise_compiled {p : ParseProgram} {units : List CompilationUnit} (x : SemanticIndex)
    (d : Nat) (h : prepare p = .ok units) :
    (units.flatMap fun u => u.activities.map (u.compiled x d)).Pairwise fun a b =>
      a.graph.qualifiedName = b.graph.qualifiedName → a.unit ≠ b.unit := by
  obtain ⟨hindices, hnames⟩ := names_prepare h
  rw [pairwise_flatMap]
  constructor
  · intro u hu
    refine pairwise_map.2 ((pairwise_map.1 (hnames u hu)).imp fun hne heq => ?_)
    exact absurd (qualify_injective u.ns heq) hne
  · refine (pairwise_map.1 hindices).imp fun hne a ha b hb _ => ?_
    obtain ⟨_, -, rfl⟩ := mem_map.1 ha
    obtain ⟨_, -, rfl⟩ := mem_map.1 hb
    exact hne

/-- A program that is compiled was prepared, and the oracle answered for its model program. -/
theorem exists_of_compileWith {σ : Type} {oracle : SemanticOracle (StateM σ)}
    {config : CompilerConfig} {input : CompilationInput} {s : σ} {out : CompilationOutput}
    (h : (compileWith oracle config input s).1 = .ok out) :
    ∃ units found answer references t, prepare input.program = .ok units ∧
      (discovered oracle references (allImports units) s).1 = .ok found ∧
      (oracle.analyze (ModelProgram.emit units (ExternalNodeType.synthesize found)).units
        references t).1 = .ok answer ∧
      finish config units (ModelProgram.emit units (ExternalNodeType.synthesize found)) answer =
        .ok out := by
  unfold compileWith at h
  cases hprepare : prepare input.program with
  | error es =>
    rw [hprepare] at h
    cases h
  | ok units =>
    rw [hprepare] at h
    dsimp only at h
    rw [analyze_run] at h
    obtain ⟨found, answer, hfound, hanswer, hfinish⟩ := exists_of_conclude_eq_ok h
    exact ⟨units, found, answer, _, _, rfl, hfound, hanswer, hfinish⟩

theorem mem_catalog_of_discovered {σ : Type} {catalog found : List ExternalNodeType}
    {references imports : List String} {s : σ}
    (h : (discovered (lexicalOracle catalog) references imports s).1 = .ok found) :
    ∀ e ∈ found, e ∈ catalog := by
  unfold discovered at h
  split at h
  · cases h
    exact fun e he => by cases he
  · cases h
    exact fun e he => mem_of_mem_filter he

theorem analyzeAll_of_lexicalOracle {σ : Type} {catalog : List ExternalNodeType}
    {model : List ModelUnit} {references : List String} {s : σ} {answer : SemanticModel}
    (h : ((lexicalOracle (m := StateM σ) catalog).analyze model references s).1 = .ok answer) :
    ModelUnit.analyzeAll model = .ok answer := by
  change (ModelUnit.analyzeAll model).mapError OracleError.diagnostics = .ok answer at h
  cases hanswer : ModelUnit.analyzeAll model with
  | error ds =>
    rw [hanswer] at h
    cases h
  | ok found =>
    rw [hanswer] at h
    cases h
    rfl

/-- Whatever the oracle answers, compiled activities of the same name come from different units. If
the qualified names of the activities are distinct, from each other and from those of the types that
the lexical oracle may find elsewhere, then it has the type of each activity under its qualified
name, and all nodes that invoke this type are bound by its one attribute, which is the signature of
the activity. An activity that the output finds by a name is the one that the oracle finds by it. -/
theorem compileWith_identifies {σ : Type} (config : CompilerConfig) (input : CompilationInput)
    (s : σ) :
    (∀ (oracle : SemanticOracle (StateM σ)) (out : CompilationOutput),
      (compileWith oracle config input s).1 = .ok out →
      out.activities.Pairwise fun a b =>
        a.graph.qualifiedName = b.graph.qualifiedName → a.unit ≠ b.unit) ∧
    ∀ (catalog : List ExternalNodeType) (out : CompilationOutput),
      (compileWith (lexicalOracle (m := StateM σ) catalog) config input s).1 = .ok out →
      (out.activities.map (·.graph.qualifiedName)).Nodup →
      (∀ e ∈ catalog, ∀ a ∈ out.activities, e.toModelType.qualifiedName ≠ a.graph.qualifiedName) →
      ∃ model answer, ModelUnit.analyzeAll model = .ok answer ∧
        (config.debug = true → out.model = some model) ∧
        (∀ a ∈ out.activities, ∃ t attr, a.Typed t attr ∧
          (TypeTable.ofUnits model).find? a.graph.qualifiedName = some t ∧
          ∀ b ∈ out.activities, ∃ c : LowerContext, c.semantics = answer.index ∧
            b.graph = (c.activity.lower b.graph.ns c.semantics c.maxDepth).1 ∧
            ∀ n ∈ b.graph.body.nodes, ∀ arguments result,
              n.kind = .invoke a.graph.qualifiedName arguments result →
              ∃ o f args, .call o f args ∈ c.activity.exprs ∧
                c.semantics.scheduling? o.id = some attr ∧
                c.Invokes attr args arguments result) ∧
        ∀ name a, out.activity? name = some a →
          (∀ b ∈ out.activities, b.graph.qualifiedName = name → b = a) →
          (∀ e ∈ catalog, e.name ≠ name ∧ e.toModelType.qualifiedName ≠ name) →
          (TypeTable.ofUnits model).find? name =
            (TypeTable.ofUnits model).find? a.graph.qualifiedName := by
  constructor
  · intro oracle out h
    obtain ⟨units, _, answer, _, _, hprepare, -, -, hfinish⟩ := exists_of_compileWith h
    obtain ⟨-, activities, hlower, rfl⟩ := finish_eq_ok.1 hfinish
    rw [(lowerAll_eq_ok.1 hlower).2]
    exact pairwise_compiled _ _ hprepare
  intro catalog out h hnodup hforeign
  obtain ⟨units, found, answer, references, _, hprepare, hfound, hanswer, hfinish⟩ :=
    exists_of_compileWith h
  obtain ⟨-, activities, hlower, rfl⟩ := finish_eq_ok.1 hfinish
  obtain ⟨herrors, rfl⟩ := lowerAll_eq_ok.1 hlower
  obtain ⟨n, hids⟩ := allocated_prepare hprepare
  obtain ⟨types, htyped, hall, hmem, hfirst⟩ :=
    exists_types answer.index config.maxExprDepth units (ExternalNodeType.synthesize found)
  have hcatalog := mem_catalog_of_discovered hfound
  have hanswer := analyzeAll_of_lexicalOracle hanswer
  have hunique : ∀ a ∈ units.flatMap fun u => u.activities.map
      (u.compiled answer.index config.maxExprDepth), ∃ t ∈ types, ∃ attr, a.Typed t attr ∧
      ∀ t' ∈ (ModelProgram.emit units (ExternalNodeType.synthesize found)).units.flatMap (·.types),
        t'.qualifiedName = a.graph.qualifiedName → t' = t := by
    intro a ha
    obtain ⟨t, ht, attr, hat, hlocal⟩ := Typed.exists_of_mem htyped hnodup ha
    refine ⟨t, ht, attr, hat, fun t' ht' hq => ?_⟩
    rcases hall t' ht' with ht' | ht'
    · exact hlocal t' ht' hq
    · obtain ⟨e, he, rfl⟩ := mem_map.1 ht'
      exact absurd hq (hforeign e (hcatalog e (mem_of_mem_filter he)) a ha)
  refine ⟨_, answer, hanswer, fun hdebug => if_pos hdebug, fun a ha => ?_,
    fun name a hname hown hother => ?_⟩
  · obtain ⟨t, ht, attr, hat, huniq⟩ := hunique a ha
    refine ⟨t, attr, hat, TypeTable.find?_foldl_add huniq
      (.inr (.inl ⟨hmem t ht, hat.qualifiedName⟩)), fun b hb => ?_⟩
    obtain ⟨u, hu, hb⟩ := mem_flatMap.1 hb
    obtain ⟨x, hx, rfl⟩ := mem_map.1 hb
    have hactivity : x ∈ units.flatMap (·.activities) := mem_flatMap.2 ⟨u, hu, hx⟩
    let c : LowerContext := ⟨x, answer.index, config.maxExprDepth⟩
    refine ⟨c, rfl, rfl, fun node hnode arguments result hkind => ?_⟩
    have hclean : (c.activity.lower u.ns c.semantics c.maxDepth).2 = [] :=
      flatMap_eq_nil_iff.1 (flatMap_eq_nil_iff.1 herrors u hu) x hx
    have hweight : (c.activity.lower u.ns c.semantics c.maxDepth).1.body.weight
        (c.unsettled False).weighing = 0 :=
      weight_unsettled (hids.wellBuilt x hactivity) False.elim u.ns hclean
    obtain ⟨o, f, args, attr', hcall, hattr, htype, hinvokes⟩ :=
      invoked_of_weight hweight hnode hkind
    obtain ⟨entry, hentry, hoffered⟩ := offers_of_scheduling? (e := .call o f args) hids hanswer
      (mem_flatMap.2 ⟨x, hactivity, hcall⟩) hattr
    have hentry := (TypeTable.mem_of_mem_foldl_add hentry).resolve_left (by simp)
    have hnodeType : attr'.nodeType = entry.2.qualifiedName := by
      rcases hall entry.2 hentry with hlocal | hexternal
      · obtain ⟨_, -, _, hb⟩ := Typed.exists_activity htyped hlocal
        rw [hb.scheduling, mem_singleton] at hoffered
        rw [hoffered, hb.schedules.nodeType, hb.qualifiedName]
      · obtain ⟨e, -, heq⟩ := mem_map.1 hexternal
        rw [← heq] at hoffered ⊢
        rw [mem_singleton.1 hoffered]
        rfl
    rw [huniq entry.2 hentry (hnodeType.symm.trans htype), hat.scheduling] at hoffered
    cases mem_singleton.1 hoffered
    exact ⟨o, f, args, hcall, hattr, hinvokes⟩
  · have ha := mem_of_find?_eq_some hname
    obtain ⟨t, ht, attr, hat, huniq⟩ := hunique a ha
    obtain ⟨u, hu, _, hau⟩ := exists_of_find?_forall₂ (q := (·.name == name)) htyped
      (fun b t hbt => by rw [hbt.choose_spec.name]) hname
    cases huniq u (hmem u (mem_of_find?_eq_some hu)) hau.qualifiedName
    refine (TypeTable.find?_foldl_add (u := t) (fun t' ht' hq => ?_) (.inr (.inr ⟨rfl, ?_⟩))).trans
      (TypeTable.find?_foldl_add huniq (.inr (.inl ⟨hmem t ht, hat.qualifiedName⟩))).symm
    · rcases hall t' ht' with hlocal | hexternal
      · obtain ⟨b, hb, _, hbt⟩ := Typed.exists_activity htyped hlocal
        cases hown b hb (hbt.qualifiedName.symm.trans hq)
        exact huniq t' ht' hbt.qualifiedName
      · obtain ⟨e, he, rfl⟩ := mem_map.1 hexternal
        exact absurd hq (hother e (hcatalog e (mem_of_mem_filter he))).2
    · rw [hfirst _ fun t' ht' => ?_]
      · exact hu
      · obtain ⟨e, he, rfl⟩ := mem_map.1 ht'
        exact beq_false_of_ne (hother e (hcatalog e (mem_of_mem_filter he))).1

end CompilationInput

section Repeated

/-- An activity with the given parameters of the type `int` and an empty body. -/
def emptyActivity (name : String) (parameters : List String) : ParseNode where
  label := "activity"
  text := some name
  members := [("body", .sequence []), ("parameters", {
    label := "parameters"
    items := parameters.map fun p =>
      { label := "parameter", text := some p, members := [("type", .typeName "int")] } })]

/-- `namespace Demo; activity A(value: int) {} activity B() {}`, and in another unit
`namespace Demo; activity A() {}`. -/
def repeatingInput : CompilationInput where
  program := { units := [
    { ns := some "Demo", activities := [emptyActivity "A" ["value"], emptyActivity "B" []] },
    { ns := some "Demo", activities := [emptyActivity "A" []] }] }

/-- `namespace Demo; activity A(value: int) {} activity B() { A.Invoke(1) }`, and in another unit
`namespace Other; activity A() {}`. -/
def callingInput : CompilationInput where
  program := { units := [
    { ns := some "Demo"
      activities := [emptyActivity "A" ["value"],
        { label := "activity", text := some "B"
          members := [("body", .codeBlock [.eval (.invoke "A" [.mk .input (.int 1)])])] }] },
    { ns := some "Other", activities := [emptyActivity "A" []] }] }

/-- The compiled activities: how many arguments they have, their names, and what they invoke. -/
def CompilationOutput.overview (out : CompilationOutput) : List (Nat × String × List String) :=
  out.activities.map fun a =>
    (a.graph.arguments.length, a.graph.qualifiedName, a.graph.body.invokedTypes)

def CompilationInput.overview? (input : CompilationInput) :
    Option (List (Nat × String × List String)) :=
  (input.compileWith (lexicalOracle (m := StateM Unit) []) {} ()).1.toOption.map (·.overview)

theorem exists_of_overview? {input : CompilationInput} (h : input.overview? = some acts) :
    ∃ out, (input.compileWith (lexicalOracle (m := StateM Unit) []) {} ()).1 = .ok out ∧
      out.overview = acts := by
  obtain ⟨out, hout, hacts⟩ := Option.map_eq_some_iff.1 h
  cases hresult : (input.compileWith (lexicalOracle (m := StateM Unit) []) {} ()).1 with
  | error es =>
    rw [hresult] at hout
    cases hout
  | ok out' =>
    rw [hresult] at hout
    cases hout
    exact ⟨out, rfl, hacts⟩

/-- Both programs are accepted. The first has the activity `Demo.A` twice, with different
parameters. -/
theorem overview_samples :
    repeatingInput.overview? =
      some [(1, "Demo.A", []), (0, "Demo.B", []), (0, "Demo.A", [])] ∧
    callingInput.overview? =
      some [(1, "Demo.A", []), (0, "Demo.B", ["Demo.A"]), (0, "Other.A", [])] := by
  decide +kernel

theorem compileWith_identifies_callingInput :
    ∃ out, (callingInput.compileWith (lexicalOracle (m := StateM Unit) []) {} ()).1 = .ok out ∧
      (out.activities.map (·.graph.qualifiedName)).Nodup ∧
      ∃ a ∈ out.activities, ∃ b ∈ out.activities, b.graph.body.invokedTypes = ["Demo.A"] ∧
        ∃ attr, a.graph.Schedules attr ∧ ∀ n ∈ b.graph.body.nodes, ∀ arguments result,
          n.kind = .invoke "Demo.A" arguments result →
            ∃ (c : LowerContext) (args : List Argument), c.Invokes attr args arguments result := by
  obtain ⟨out, hout, hacts⟩ := exists_of_overview? overview_samples.2
  have hnames : out.activities.map (·.graph.qualifiedName) = ["Demo.A", "Demo.B", "Other.A"] := by
    simpa [CompilationOutput.overview, Function.comp_def] using congrArg (map (·.2.1)) hacts
  have hnodup : (out.activities.map (·.graph.qualifiedName)).Nodup := by
    rw [hnames]
    decide
  obtain ⟨_, _, -, -, hbinds, -⟩ :=
    (CompilationInput.compileWith_identifies {} callingInput ()).2 [] out hout hnodup (by simp)
  obtain ⟨a, ha, heqa⟩ : ∃ a ∈ out.activities, _ = _ :=
    mem_map.1 (hacts ▸ mem_cons_self : (1, "Demo.A", []) ∈ out.overview)
  obtain ⟨b, hb, heqb⟩ : ∃ b ∈ out.activities, _ = _ :=
    mem_map.1 (hacts ▸ by simp : (0, "Demo.B", ["Demo.A"]) ∈ out.overview)
  simp only [Prod.mk.injEq] at heqa heqb
  obtain ⟨_, attr, htyped, -, hnodes⟩ := hbinds a ha
  obtain ⟨c, -, -, hnodes⟩ := hnodes b hb
  refine ⟨out, hout, hnodup, a, ha, b, hb, heqb.2.2, attr, htyped.schedules,
    fun n hn arguments result hkind => ?_⟩
  obtain ⟨_, _, args, -, -, hinvokes⟩ := hnodes n hn arguments result (heqa.2.1 ▸ hkind)
  exact ⟨c, args, hinvokes⟩

/-- The names of compiled activities need not be distinct. -/
theorem repeatingInput_repeats_name : ∃ out,
    (repeatingInput.compileWith (lexicalOracle (m := StateM Unit) []) {} ()).1 = .ok out ∧
      ¬ (out.activities.map fun a => a.graph.qualifiedName).Nodup := by
  obtain ⟨out, hout, hacts⟩ := exists_of_overview? overview_samples.1
  have hnames : out.activities.map (·.graph.qualifiedName) = ["Demo.A", "Demo.B", "Demo.A"] := by
    simpa [CompilationOutput.overview, Function.comp_def] using congrArg (map (·.2.1)) hacts
  refine ⟨out, hout, ?_⟩
  rw [hnames]
  decide

end Repeated

end Workflow
