/-
  The validation of a task graph is exact (`SwarmTaskGraph.validate_graph`, `_reject_cycles` of
  `vad/swarm/tasks.py`).

  1. **Edges** (`mem_dependencies_iff`) — where ids are distinct, `edges[task_id]` holds the
     dependencies of the task.

  2. **Search** — it ends without a cycle only if there is none, with one only if there is one, and
     the stack is never full if it has room for one call more than there are tasks.

  3. **Result** (`graph_validation_exact`) — so a graph is accepted exactly if its ids are distinct,
     its dependencies are tasks and no task waits for itself.
-/
import Vad.Swarm.Tasks

namespace Vad

open Relation (TransGen)

/-! ## The dependency relation -/

namespace SwarmTaskGraph

/-- A task of the id `a` depends on `b`. -/
def DependsOn (g : SwarmTaskGraph) (a b : String) : Prop :=
  ∃ t ∈ g.tasks, t.taskId = a ∧ b ∈ t.dependsOn

/-- Distinct ids, known dependencies, and no cycle. -/
structure IsDag (g : SwarmTaskGraph) : Prop where
  distinct : g.ids.Nodup
  known : ∀ t ∈ g.tasks, ∀ d ∈ t.dependsOn, d ∈ g.ids
  acyclic : ∀ a, ¬ TransGen g.DependsOn a a

/-- The tasks whose edges `_reject_cycles` goes through, the newest first. -/
def followed (g : SwarmTaskGraph) (depth : Nat) : List String :=
  (DepthFirst.searchLogged g.dependencies depth g.ids).1

end SwarmTaskGraph

section Validation

variable {g : SwarmTaskGraph}

theorem mem_dependencies_iff (hids : g.ids.Nodup) {a b : String} :
    b ∈ g.dependencies a ↔ g.DependsOn a b := by
  unfold SwarmTaskGraph.dependencies SwarmTaskGraph.DependsOn
  cases hfind : g.tasks.find? fun t => t.taskId = a with
  | none =>
    refine ⟨fun h => absurd h List.not_mem_nil, ?_⟩
    rintro ⟨t, ht, rfl, -⟩
    have hnot := List.find?_eq_none.mp hfind t ht
    simp at hnot
  | some t =>
    have hid : t.taskId = a := by simpa using List.find?_some hfind
    refine ⟨fun h => ⟨t, List.mem_of_find?_eq_some hfind, hid, h⟩, ?_⟩
    rintro ⟨t', ht', hid', hb⟩
    have hsame : t = t' := List.inj_on_of_nodup_map hids (List.mem_of_find?_eq_some hfind) ht'
      (hid.trans hid'.symm)
    exact hsame ▸ hb

theorem edge_eq (hids : g.ids.Nodup) : DepthFirst.Edge g.dependencies = g.DependsOn := by
  funext a b
  exact propext (mem_dependencies_iff hids)

/-- Nothing is missing of a task exactly if its dependencies are tasks. -/
theorem missing_eq_nil_iff {t : SwarmTask} : g.missing t = [] ↔ ∀ d ∈ t.dependsOn, d ∈ g.ids := by
  have hmem (d : String) : d ∈ g.missing t ↔ d ∈ t.dependsOn ∧ d ∉ g.ids := by
    unfold SwarmTaskGraph.missing
    rw [List.mem_insertionSort, List.mem_dedup, List.mem_filter, decide_eq_true_eq]
  rw [List.eq_nil_iff_forall_not_mem]
  constructor
  · intro h d hd
    by_contra hnot
    exact h d ((hmem d).mpr ⟨hd, hnot⟩)
  · intro h d hd
    obtain ⟨hin, hnot⟩ := (hmem d).mp hd
    exact hnot (h d hin)

/-- A graph is refused by the checks in front of the search, or the search decides. -/
theorem validateGraph_cases (g : SwarmTaskGraph) (depth : Nat) :
    (¬ (g.failedFields = [] ∧ g.ids.Nodup ∧ ∀ t ∈ g.tasks, ∀ d ∈ t.dependsOn, d ∈ g.ids) ∧
      ∃ e, g.validateGraph depth = .error e ∧ e ≠ .recursionError) ∨
    (g.failedFields = [] ∧ g.ids.Nodup ∧ ∀ t ∈ g.tasks, ∀ d ∈ t.dependsOn, d ∈ g.ids) ∧
      g.validateGraph depth = g.rejectCycles depth := by
  unfold SwarmTaskGraph.validateGraph
  by_cases hfields : g.failedFields = []
  · rw [if_neg (not_not.mpr hfields)]
    by_cases hids : g.ids.Nodup
    · rw [if_neg (not_not.mpr hids)]
      cases hfind : g.tasks.find? fun t => g.missing t ≠ [] with
      | some t =>
        refine Or.inl ⟨?_, _, rfl, fun h => nomatch h⟩
        rintro ⟨-, -, hknown⟩
        have hmissing : g.missing t ≠ [] := by simpa using List.find?_some hfind
        exact absurd (missing_eq_nil_iff.mpr (hknown t (List.mem_of_find?_eq_some hfind))) hmissing
      | none =>
        refine Or.inr ⟨⟨hfields, hids, fun t ht => ?_⟩, rfl⟩
        have hnone := List.find?_eq_none.mp hfind t ht
        exact missing_eq_nil_iff.mp (by simpa using hnone)
    · rw [if_pos hids]
      exact Or.inl ⟨fun h => absurd h.2.1 hids, _, rfl, fun h => nomatch h⟩
  · rw [if_pos hfields]
    exact Or.inl ⟨fun h => absurd h.1 hfields, _, rfl, fun h => nomatch h⟩

/-- The three checks that a graph passes. -/
theorem validateGraph_iff {depth : Nat} : g.validateGraph depth = .ok () ↔
    g.failedFields = [] ∧ g.ids.Nodup ∧ (∀ t ∈ g.tasks, ∀ d ∈ t.dependsOn, d ∈ g.ids) ∧
      g.rejectCycles depth = .ok () := by
  rcases validateGraph_cases g depth with ⟨hchecks, e, hrefused, -⟩ | ⟨hchecks, hsearched⟩
  · rw [hrefused]
    exact ⟨fun h => (nomatch h), fun h => absurd ⟨h.1, h.2.1, h.2.2.1⟩ hchecks⟩
  · rw [hsearched]
    obtain ⟨hfields, hids, hknown⟩ := hchecks
    exact ⟨fun h => ⟨hfields, hids, hknown, h⟩, fun h => h.2.2.2⟩

theorem dependencies_closed (hids : g.ids.Nodup)
    (hknown : ∀ t ∈ g.tasks, ∀ d ∈ t.dependsOn, d ∈ g.ids) :
    ∀ x ∈ g.ids, ∀ y ∈ g.dependencies x, y ∈ g.ids := by
  intro x _ y hy
  obtain ⟨t, ht, -, hin⟩ := (mem_dependencies_iff hids).mp hy
  exact hknown t ht y hin

/-- The search finds a cycle exactly if there is one, and it always ends. -/
theorem rejectCycles_cases (hids : g.ids.Nodup)
    (hknown : ∀ t ∈ g.tasks, ∀ d ∈ t.dependsOn, d ∈ g.ids) {depth : Nat}
    (hdepth : g.tasks.length < depth) :
    (g.rejectCycles depth = .ok () ∧ ∀ a, ¬ TransGen g.DependsOn a a) ∨
      ∃ a, TransGen g.DependsOn a a ∧
        g.rejectCycles depth = .error (.valueError ("cycle detected at task " ++ a)) := by
  have hlength : g.ids.length < depth := by
    unfold SwarmTaskGraph.ids
    rwa [List.length_map]
  have hends := DepthFirst.search_not_tooDeep (dependencies_closed hids hknown) hlength
  unfold SwarmTaskGraph.rejectCycles
  cases hsearch : DepthFirst.search g.dependencies depth g.ids with
  | ok order =>
    refine Or.inl ⟨rfl, fun a hcycle => ?_⟩
    -- a task on a cycle depends on something, so it is one of the graph
    obtain ⟨b, ⟨t, ht, rfl, -⟩, -⟩ := Relation.TransGen.head'_iff.mp hcycle
    have hacyclic := DepthFirst.search_acyclic hsearch (List.mem_map_of_mem ht)
    rw [edge_eq hids] at hacyclic
    exact hacyclic hcycle
  | error e =>
    cases e with
    | tooDeep => exact absurd hsearch hends
    | cycle a =>
      have hcycle := DepthFirst.cycle_of_search hsearch
      rw [edge_eq hids] at hcycle
      exact Or.inr ⟨a, hcycle, rfl⟩

/-- Validation does not run out of stack. -/
theorem validateGraph_ends {depth : Nat} (hdepth : g.tasks.length < depth) :
    g.validateGraph depth ≠ .error .recursionError := by
  rcases validateGraph_cases g depth with ⟨-, e, hrefused, hne⟩ | ⟨⟨-, hids, hknown⟩, hsearched⟩
  · rw [hrefused]
    exact fun h => hne (Except.error.inj h)
  · rw [hsearched]
    rcases rejectCycles_cases hids hknown hdepth with ⟨hok, -⟩ | ⟨a, -, hcycle⟩
    · rw [hok]
      exact fun h => nomatch h
    · rw [hcycle]
      exact fun h => nomatch h

/-- A graph of tasks is accepted exactly if it has no duplicates, no unknown dependencies and no
    cycles; validation ends, and no task's edges are gone through twice. -/
theorem graph_validation_exact (g : SwarmTaskGraph) (htasks : g.failedFields = []) (depth : Nat)
    (hdepth : g.tasks.length < depth) :
    (g.validateGraph depth = .ok () ↔ g.IsDag) ∧ g.validateGraph depth ≠ .error .recursionError ∧
      (DepthFirst.searchLogged g.dependencies depth g.ids).2 =
        DepthFirst.search g.dependencies depth g.ids ∧ (g.followed depth).Nodup := by
  refine ⟨?_, validateGraph_ends hdepth, DepthFirst.searchLogged_result depth g.ids,
    DepthFirst.logged_nodup depth g.ids⟩
  rw [validateGraph_iff]
  constructor
  · rintro ⟨-, hids, hknown, haccepted⟩
    rcases rejectCycles_cases hids hknown hdepth with ⟨-, hacyclic⟩ | ⟨a, -, hrejected⟩
    · exact ⟨hids, hknown, hacyclic⟩
    · rw [hrejected] at haccepted
      cases haccepted
  · rintro ⟨hids, hknown, hacyclic⟩
    rcases rejectCycles_cases hids hknown hdepth with ⟨haccepted, -⟩ | ⟨a, hcycle, -⟩
    · exact ⟨htasks, hids, hknown, haccepted⟩
    · exact absurd hcycle (hacyclic a)

end Validation

/-- Two tasks that wait for each other. -/
def deadlock : SwarmTaskGraph where
  tasks := [
    { taskId := "build", role := .builder, description := "Build", dependsOn := ["test"] },
    { taskId := "test", role := .verifier, description := "Test", dependsOn := ["build"] }]

theorem deadlock_rejected : deadlock.failedFields = [] ∧ deadlock.tasks.length < 3 ∧
    deadlock.validateGraph 3 = .error (.valueError "cycle detected at task build") ∧
    ¬ deadlock.IsDag := by
  have hfields : deadlock.failedFields = [] := by decide
  have hlength : deadlock.tasks.length < 3 := by decide
  have hrejected : deadlock.validateGraph 3 =
      .error (.valueError "cycle detected at task build") := by decide
  refine ⟨hfields, hlength, hrejected, fun hdag => ?_⟩
  have haccepted := (graph_validation_exact deadlock hfields 3 hlength).1.mpr hdag
  rw [hrejected] at haccepted
  cases haccepted

end Vad
