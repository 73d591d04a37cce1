import Workflow.Proofs.Build.Resolve

/-!
# Names of stores along a chain

A declaration compares a name with the stores that its host sees at that time. So the names of the
stores of one host are distinct, and no store has the name of one that was declared before it at its
host or around it. A host may still declare a name after a host inside it has declared the same one.
-/

namespace Workflow

namespace Activity

def visibleFrom (a : Activity) (id : StmtId) : List StoreId := (a.visible (.statement id)).flatten

/-- Of two visible stores of one name, the later one is declared by a host around that of the other.
-/
def RepeatsOutward (a : Activity) : Prop :=
  ∀ (id : StmtId) (i j : StoreId) (si sj : Store), i ∈ a.visibleFrom id → j ∈ a.visibleFrom id →
    a.stores[i]? = some si → a.stores[j]? = some sj → i < j → si.name = sj.name →
      si.host ≠ sj.host ∧ a.Sees si.host sj.host

theorem Sound.sees_of_mem {a : Activity} (ha : a.Sound) {id : StmtId} {k : StoreId} {st : Store}
    (hk : k ∈ a.visibleFrom id) (hst : a.stores[k]? = some st) : a.Sees (.statement id) st.host := by
  rw [visibleFrom, visible_eq, List.mem_flatten] at hk
  obtain ⟨l, hl, hkl⟩ := hk
  obtain ⟨h, hh, rfl⟩ := List.mem_map.1 hl
  obtain ⟨st', hst', rfl⟩ := (ha.listed h k).1 hkl
  rw [hst] at hst'
  cases hst'
  exact (mem_hosts ha.parentsFirst).1 hh

theorem Sound.repeatsOutward {a : Activity} (ha : a.Sound) : a.RepeatsOutward := by
  intro id i j si sj hi hj hsi hsj hij hname
  -- the later store's host does not see the earlier one, so it is the other way round
  have hnot : ¬a.Sees sj.host si.host := fun hs => ha.distinct i j si sj hsi hsj hij hs hname
  refine ⟨fun heq => hnot (heq ▸ sees_refl a si.host), ?_⟩
  exact ((ha.sees_of_mem hi hsi).total (ha.sees_of_mem hj hsj)).resolve_right hnot

/-- In a built activity, and in what resolution makes of it, a name is repeated along a chain only
by a host that declares it after a host inside. -/
theorem names_repeat_outward {ids ids' : Ids} {unit : Nat} {node : ParseNode} {a : Activity}
    (h : Activity.build ids unit node = (.ok a, ids')) (last : Ids) (errors : Diagnostics) :
    a.RepeatsOutward ∧ (a.resolve last errors).1.RepeatsOutward := by
  have ha := (build_ids h).1.sound
  exact ⟨ha.repeatsOutward, ((keeps_resolve last errors a).sound ha).repeatsOutward⟩

section Repeated

/-- An activity with a variable inside a sequence and the same name after that sequence. -/
def repeatedNode : ParseNode :=
  .main (.sequence [.sequence [.variableNode "x" "int"], .variableNode "x" "string"])

def namesFrom (a : Activity) (id : StmtId) : List String :=
  (a.visibleFrom id).filterMap fun k => a.stores[k]?.map (·.name)

theorem names_repeat_outward_repeatedNode : ∃ a ids',
    Activity.build {} 0 repeatedNode = (.ok a, ids') ∧ a.namesFrom 1 = ["x", "x"] ∧
      a.RepeatsOutward ∧ (a.resolve ids' {}).1.RepeatsOutward := by
  have h : Activity.build {} 0 repeatedNode = (.ok _, _) := rfl
  exact ⟨_, _, h, rfl, names_repeat_outward h _ _⟩

/-- The names along the chain of the inner sequence are not distinct. -/
theorem repeatedNode_repeats : ∃ a ids', Activity.build {} 0 repeatedNode = (.ok a, ids') ∧
    1 < a.stmts.size ∧ ¬(a.namesFrom 1).Nodup :=
  ⟨_, _, rfl, by decide, by decide⟩

end Repeated

end Activity

end Workflow
