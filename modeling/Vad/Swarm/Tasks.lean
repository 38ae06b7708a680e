/-
  The task graphs of a local swarm (`vad/swarm/tasks.py`) and its agents (`vad/swarm/agents.py`).

  A graph is validated when it is built: its ids are distinct, every dependency is a task, and a
  depth-first search finds no cycle.  What a validated graph gives is the order of that search:
  of the tasks that are not finished, one waits for none that is not finished
  (`ValidGraph.exists_ready`).

  `_reject_cycles` is recursive, and Python limits its depth; the limit is a parameter, and a graph
  is valid that is accepted under any.
-/
import Mathlib.Data.List.Dedup
import Mathlib.Data.List.Sort
import Mathlib.Data.String.Basic
import Vad.Lib.DepthFirst

namespace Vad

/-! ## Agents -/

inductive AgentRole where
  | planner | builder | verifier | auditor | releaseGuardian
deriving DecidableEq, Repr

def AgentRole.value : AgentRole → String
  | planner => "planner"
  | builder => "builder"
  | verifier => "verifier"
  | auditor => "auditor"
  | releaseGuardian => "release_guardian"

/-- The fields of `AgentCard` that a coordinator reads. -/
structure AgentCard where
  agentId : String
  role : AgentRole
deriving DecidableEq, Repr

/-! ## Tasks -/

inductive SwarmTaskStatus where
  | pending | running | completed | blocked
deriving DecidableEq, Repr

def SwarmTaskStatus.value : SwarmTaskStatus → String
  | pending => "pending"
  | running => "running"
  | completed => "completed"
  | blocked => "blocked"

structure SwarmTask where
  taskId : String
  role : AgentRole
  description : String
  dependsOn : List String := []
  status : SwarmTaskStatus := .pending
deriving DecidableEq, Repr

structure SwarmTaskGraph where
  tasks : List SwarmTask
deriving DecidableEq, Repr

/-- What the swarm raises. -/
inductive SwarmError where
  | validationError (fields : List String)
  | valueError (message : String)
  | permissionError (message : String)
  | typeError
  | recursionError
deriving DecidableEq, Repr

namespace SwarmTaskGraph

def ids (g : SwarmTaskGraph) : List String := g.tasks.map SwarmTask.taskId

/-- `edges[task_id]`. -/
def dependencies (g : SwarmTaskGraph) (taskId : String) : List String :=
  match g.tasks.find? fun t => t.taskId = taskId with
  | some t => t.dependsOn
  | none => []

/-- The `min_length` checks of a graph and its tasks. -/
def failedFields (g : SwarmTaskGraph) : List String :=
  (if g.tasks = [] then ["tasks"] else []) ++
    g.tasks.flatMap fun t => (if t.taskId = "" then ["tasks.task_id"] else []) ++
      if t.description = "" then ["tasks.description"] else []

/-- `set(task.depends_on) - task_ids`, sorted. -/
def missing (g : SwarmTaskGraph) (t : SwarmTask) : List String :=
  (t.dependsOn.filter fun d => d ∉ g.ids).dedup.insertionSort (· ≤ ·)

/-- `_reject_cycles`. -/
def rejectCycles (g : SwarmTaskGraph) (depth : Nat) : Except SwarmError Unit :=
  match DepthFirst.search g.dependencies depth g.ids with
  | .ok _ => .ok ()
  | .error (.cycle taskId) => .error (.valueError ("cycle detected at task " ++ taskId))
  | .error .tooDeep => .error .recursionError

/-- `validate_graph`, behind the checks of the fields. -/
def validateGraph (g : SwarmTaskGraph) (depth : Nat) : Except SwarmError Unit :=
  if g.failedFields ≠ [] then .error (.validationError g.failedFields)
  else if ¬ g.ids.Nodup then .error (.valueError "duplicate task ids are not allowed")
  else
    match g.tasks.find? fun t => g.missing t ≠ [] with
    | some t => .error (.valueError ("unknown task dependencies for " ++ t.taskId ++ ": " ++
        ", ".intercalate (g.missing t)))
    | none => g.rejectCycles depth

def isCompleted (t : SwarmTask) : Bool := decide (t.status = .completed)

/-- The ids of the tasks that are completed. -/
def completedIds (g : SwarmTaskGraph) : List String :=
  (g.tasks.filter isCompleted).map SwarmTask.taskId

/-- `SwarmTaskGraph.ready_tasks`. -/
def readyTasks (g : SwarmTaskGraph) : List SwarmTask :=
  g.tasks.filter fun t => decide (t.status = .pending) && t.dependsOn.all (· ∈ g.completedIds)

/-- `task.status = SwarmTaskStatus.COMPLETED`; the ids of a validated graph are distinct. -/
def complete (g : SwarmTaskGraph) (taskId : String) : SwarmTaskGraph where
  tasks := g.tasks.map fun t => if t.taskId = taskId then { t with status := .completed } else t

end SwarmTaskGraph

/-- A graph that its constructor accepts, whatever the limit of the stack. -/
structure ValidGraph (g : SwarmTaskGraph) : Prop where
  accepted : ∃ depth, g.validateGraph depth = .ok ()

/-! ## What validation gives -/

section Valid

variable {g : SwarmTaskGraph}

theorem ValidGraph.checks (h : ValidGraph g) : g.failedFields = [] ∧ g.ids.Nodup ∧
    (∀ t ∈ g.tasks, g.missing t = []) ∧ ∃ depth, g.rejectCycles depth = .ok () := by
  obtain ⟨depth, h⟩ := h.accepted
  unfold SwarmTaskGraph.validateGraph at h
  split at h
  · cases h
  rename_i hfields
  split at h
  · cases h
  rename_i hids
  split at h
  · cases h
  rename_i hmissing
  refine ⟨not_not.mp hfields, not_not.mp hids, fun t ht => ?_, depth, h⟩
  have hnone := List.find?_eq_none.mp hmissing t ht
  simpa using hnone

theorem ValidGraph.nodup (h : ValidGraph g) : g.ids.Nodup := h.checks.2.1

/-- Every dependency is a task. -/
theorem ValidGraph.dependency_mem (h : ValidGraph g) {t : SwarmTask} (ht : t ∈ g.tasks)
    {d : String} (hd : d ∈ t.dependsOn) : d ∈ g.ids := by
  by_contra hnot
  have hmissing := h.checks.2.2.1 t ht
  unfold SwarmTaskGraph.missing at hmissing
  have hin : d ∈ (t.dependsOn.filter fun d => d ∉ g.ids).dedup.insertionSort (· ≤ ·) := by
    rw [List.mem_insertionSort, List.mem_dedup, List.mem_filter]
    exact ⟨hd, by simpa using hnot⟩
  rw [hmissing] at hin
  exact absurd hin List.not_mem_nil

/-- The task of an id. -/
theorem ValidGraph.eq_of_taskId (h : ValidGraph g) {t t' : SwarmTask} (ht : t ∈ g.tasks)
    (ht' : t' ∈ g.tasks) (hid : t.taskId = t'.taskId) : t = t' :=
  List.inj_on_of_nodup_map h.nodup ht ht' hid

theorem ValidGraph.dependencies_eq (h : ValidGraph g) {t : SwarmTask} (ht : t ∈ g.tasks) :
    g.dependencies t.taskId = t.dependsOn := by
  unfold SwarmTaskGraph.dependencies
  cases hfind : g.tasks.find? fun t' => t'.taskId = t.taskId with
  | none =>
    have hnot := List.find?_eq_none.mp hfind t ht
    simp at hnot
  | some t' =>
    have hid : t'.taskId = t.taskId := by simpa using List.find?_some hfind
    rw [h.eq_of_taskId (List.mem_of_find?_eq_some hfind) ht hid]

theorem ValidGraph.order (h : ValidGraph g) :
    ∃ order, DepthFirst.Ordered g.dependencies order ∧ ∀ id ∈ g.ids, id ∈ order := by
  obtain ⟨depth, hdepth⟩ := h.checks.2.2.2
  unfold SwarmTaskGraph.rejectCycles at hdepth
  split at hdepth
  · rename_i order hsearch
    exact ⟨order, DepthFirst.search_ordered hsearch⟩
  · cases hdepth
  · cases hdepth

/-- Of the tasks of any kind, one depends on none of that kind. -/
theorem ValidGraph.exists_lowest (h : ValidGraph g) {kind : String → Prop}
    (hsome : ∃ t ∈ g.tasks, kind t.taskId) :
    ∃ t ∈ g.tasks, kind t.taskId ∧ ∀ d ∈ t.dependsOn, ¬ kind d := by
  obtain ⟨order, hordered, hall⟩ := h.order
  obtain ⟨t, ht, hkind⟩ := hsome
  have hin : t.taskId ∈ order := hall _ (List.mem_map_of_mem ht)
  obtain ⟨id, hid, ⟨t', ht', hname, hkind'⟩, hnone⟩ := @DepthFirst.exists_lowest _ _ _ hordered
    (fun id => ∃ t ∈ g.tasks, t.taskId = id ∧ kind id) ⟨_, hin, t, ht, rfl, hkind⟩
  subst hname
  rw [h.dependencies_eq ht'] at hnone
  refine ⟨t', ht', hkind', fun d hd hkd => hnone d hd ?_⟩
  obtain ⟨t'', ht'', hname⟩ := List.mem_map.mp (h.dependency_mem ht' hd)
  exact ⟨t'', ht'', hname, hkd⟩

/-- No task depends on itself. -/
theorem ValidGraph.not_self (h : ValidGraph g) {t : SwarmTask} (ht : t ∈ g.tasks) :
    t.taskId ∉ t.dependsOn := by
  obtain ⟨order, hordered, hall⟩ := h.order
  have hself := DepthFirst.not_mem_next hordered (hall _ (List.mem_map_of_mem ht))
  rwa [h.dependencies_eq ht] at hself

end Valid

end Vad
