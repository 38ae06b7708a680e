/-
  The state of a swarm run (`vad/swarm/state.py`): marking tasks completed, and the file that a run
  is resumed from.

  1. A saved state is read back as it was, if the search for cycles stays within the stack
     (`load_dump`): the completion of a task changes nothing that validation looks at
     (`complete_validateGraph`).
  2. `run_ready_tasks` completes a task behind its dependencies, whoever the agents are, and keeps
     the graph closed (`runTasks_closed`).
  3. `mark_completed` does not look at the dependencies.  It keeps the graph closed exactly when
     they are completed already, and so does a run of such calls (`completion_closed`).
-/
import Vad.Lib.Reading
import Vad.Swarm.Coordinator

namespace Vad

structure SwarmState where
  runId : String
  graph : SwarmTaskGraph
  messages : List SwarmMessage := []

/-- `SwarmState.mark_completed`. -/
def SwarmState.markCompleted (s : SwarmState) (taskId : String) :
    Except SwarmError Bool × SwarmState :=
  match s.graph.tasks.find? fun t => t.taskId = taskId with
  | none => (.error (.valueError ("unknown task id: " ++ taskId)), s)
  | some t =>
    if t.status = .completed then (.ok false, s)
    else (.ok true, { s with graph := s.graph.complete taskId })

/-! ## The file of a state -/

def AgentRole.all : List AgentRole := [.planner, .builder, .verifier, .auditor, .releaseGuardian]

def SwarmTaskStatus.all : List SwarmTaskStatus := [.pending, .running, .completed, .blocked]

/-- `model_dump(mode="json")`. -/
def SwarmTask.dump (t : SwarmTask) : Json := .object [
  ("task_id", .text t.taskId), ("role", .text t.role.value),
  ("description", .text t.description), ("depends_on", .array (t.dependsOn.map .text)),
  ("status", .text t.status.value)]

def SwarmTaskGraph.dump (g : SwarmTaskGraph) : Json := .object [
  ("tasks", .array (g.tasks.map SwarmTask.dump))]

def SwarmMessage.dump (m : SwarmMessage) : Json := .object [
  ("message_id", .text m.messageId), ("sender_id", .text m.senderId),
  ("sender_role", .text m.senderRole.value), ("message_type", .text m.messageType),
  ("task_id", .text m.taskId), ("payload", .object m.payload),
  ("evidence_digest", .text m.evidenceDigest), ("created_at", .text m.createdAt)]

/-- What `SwarmState.save` writes; the file is told by the value that its text denotes. -/
def SwarmState.dump (s : SwarmState) : Json := .object [
  ("run_id", .text s.runId), ("graph", s.graph.dump),
  ("messages", .array (s.messages.map SwarmMessage.dump))]

/-- `SwarmTask(**data)`. -/
def readTask : Json → Reading SwarmTask
  | .object entries =>
    Reading.value SwarmTask.mk
      |>.apply (Reading.member entries "task_id" Reading.nonEmptyText none)
      |>.apply (Reading.member entries "role" (Reading.oneOf AgentRole.all AgentRole.value) none)
      |>.apply (Reading.member entries "description" Reading.nonEmptyText none)
      |>.apply (Reading.member entries "depends_on" (Reading.elements fun _ => Reading.text) (some []))
      |>.apply (Reading.member entries "status"
        (Reading.oneOf SwarmTaskStatus.all SwarmTaskStatus.value) (some .pending))
  | _ => Reading.refused

/-- A list with one element at least. -/
def readTasks (data : Json) : Reading (List SwarmTask) :=
  match Reading.elements (fun _ => readTask) data with
  | .ok [] => Reading.refused
  | tasks => tasks

/-- `SwarmTaskGraph(**data)`: what `validate_graph` finds is refused with the data, except that a
    `RecursionError` is raised. -/
def readGraph (depth : Nat) : Json → Except SwarmError (Reading SwarmTaskGraph)
  | .object entries =>
    match Reading.value SwarmTaskGraph.mk |>.apply (Reading.member entries "tasks" readTasks none)
      with
    | .error locations => .ok (.error locations)
    | .ok g =>
      match g.validateGraph depth with
      | .ok _ => .ok (.ok g)
      | .error .recursionError => .error .recursionError
      | .error _ => .ok Reading.refused
  | _ => .ok Reading.refused

/-- `SwarmMessage(**data)`, with the id and the time that are its defaults. -/
def readMessage (stamp : MessageStamp) : Json → Reading SwarmMessage
  | .object entries =>
    Reading.value SwarmMessage.mk
      |>.apply (Reading.member entries "message_id" Reading.text (some stamp.messageId))
      |>.apply (Reading.member entries "sender_id" Reading.text none)
      |>.apply (Reading.member entries "sender_role"
        (Reading.oneOf AgentRole.all AgentRole.value) none)
      |>.apply (Reading.member entries "message_type" Reading.text none)
      |>.apply (Reading.member entries "task_id" Reading.text none)
      |>.apply (Reading.member entries "payload" Reading.dict (some []))
      |>.apply (Reading.member entries "evidence_digest" Reading.text none)
      |>.apply (Reading.member entries "created_at" Reading.text (some stamp.createdAt))
  | _ => Reading.refused

/-- `SwarmState.load`. -/
def SwarmState.load (depth : Nat) (stamp : Nat → MessageStamp) : Json → Except SwarmError SwarmState
  | .object entries =>
    let graph := match Dict.get entries "graph" with
      | some data => readGraph depth data
      | none => .ok Reading.refused
    match graph with
    | .error e => .error e
    | .ok graph =>
      let state := Reading.value SwarmState.mk
        |>.apply (Reading.member entries "run_id" Reading.text none)
        |>.apply (Reading.inside "graph" graph)
        |>.apply (Reading.member entries "messages" (Reading.elements fun i => readMessage (stamp i))
          (some []))
      state.mapError fun locations => .validationError (locations.map (".".intercalate ·))
  | _ => .error .typeError

/-! ## A saved state is read back -/

theorem role_value_inj : ∀ a ∈ AgentRole.all, ∀ b ∈ AgentRole.all, a.value = b.value → a = b := by
  decide

theorem status_value_inj :
    ∀ a ∈ SwarmTaskStatus.all, ∀ b ∈ SwarmTaskStatus.all, a.value = b.value → a = b := by
  decide

theorem AgentRole.mem_all (role : AgentRole) : role ∈ AgentRole.all := by
  cases role <;> decide

theorem SwarmTaskStatus.mem_all (status : SwarmTaskStatus) : status ∈ SwarmTaskStatus.all := by
  cases status <;> decide

theorem readTask_dump {t : SwarmTask} (hid : t.taskId ≠ "") (hdescription : t.description ≠ "") :
    readTask t.dump = .ok t := by
  have hrole := Reading.oneOf_name role_value_inj t.role.mem_all
  have hstatus := Reading.oneOf_name status_value_inj t.status.mem_all
  have hdepends : Reading.elements (fun _ => Reading.text) (.array (t.dependsOn.map .text)) =
      .ok t.dependsOn := Reading.elements_map fun _ _ _ => rfl
  unfold readTask SwarmTask.dump
  simp only [Reading.value_eq]
  rw [Reading.member_of_get rfl (Reading.nonEmptyText_text hid),
    Reading.member_of_get rfl hrole,
    Reading.member_of_get rfl (Reading.nonEmptyText_text hdescription),
    Reading.member_of_get rfl hdepends,
    Reading.member_of_get rfl hstatus]
  rfl

theorem readMessage_dump (stamp : MessageStamp) (m : SwarmMessage) :
    readMessage stamp m.dump = .ok m := by
  have hrole := Reading.oneOf_name role_value_inj m.senderRole.mem_all
  unfold readMessage SwarmMessage.dump
  simp only [Reading.value_eq]
  rw [Reading.member_of_get rfl hrole]
  rfl

section Files

variable {s : SwarmState} {depth : Nat} {stamp : Nat → MessageStamp}

theorem readTasks_dump {g : SwarmTaskGraph} (h : g.failedFields = []) :
    readTasks (.array (g.tasks.map SwarmTask.dump)) = .ok g.tasks := by
  obtain ⟨hsome, htasks⟩ := List.append_eq_nil_iff.mp h
  have hall : ∀ t ∈ g.tasks, t.taskId ≠ "" ∧ t.description ≠ "" := by
    intro t ht
    obtain ⟨hid, hdescription⟩ := List.append_eq_nil_iff.mp (List.flatMap_eq_nil_iff.mp htasks t ht)
    constructor
    · intro hempty
      rw [if_pos hempty] at hid
      cases hid
    · intro hempty
      rw [if_pos hempty] at hdescription
      cases hdescription
  have helements : Reading.elements (fun _ => readTask) (.array (g.tasks.map SwarmTask.dump)) =
      .ok g.tasks :=
    Reading.elements_map fun _ t ht => readTask_dump (hall t ht).1 (hall t ht).2
  unfold readTasks
  rw [helements]
  cases htasks : g.tasks with
  | nil =>
    rw [if_pos htasks] at hsome
    cases hsome
  | cons t rest => rfl

/-- **Save, then load**: the graph is validated again, and if it is accepted the state is as it
    was. -/
theorem load_dump (h : s.graph.failedFields = []) :
    SwarmState.load depth stamp s.dump =
      match s.graph.validateGraph depth with
      | .ok _ => .ok s
      | .error .recursionError => .error .recursionError
      | .error _ => .error (.validationError ["graph"]) := by
  have hmessages : Reading.elements (fun i => readMessage (stamp i))
      (.array (s.messages.map SwarmMessage.dump)) = .ok s.messages :=
    Reading.elements_map fun i m _ => readMessage_dump (stamp i) m
  have hgraph : readGraph depth s.graph.dump =
      match s.graph.validateGraph depth with
      | .ok _ => .ok (.ok s.graph)
      | .error .recursionError => .error .recursionError
      | .error _ => .ok Reading.refused := by
    unfold readGraph SwarmTaskGraph.dump
    simp only [Reading.value_eq]
    rw [Reading.member_of_get rfl (readTasks_dump h)]
    rfl
  unfold SwarmState.load SwarmState.dump
  simp only [Reading.value_eq]
  rw [@Reading.member_of_get _ _ [("run_id", .text s.runId), ("graph", s.graph.dump),
    ("messages", .array (s.messages.map SwarmMessage.dump))] _ _ _ _ _ rfl hmessages]
  show (match readGraph depth s.graph.dump with
    | .error e => _
    | .ok graph => _) = _
  rw [hgraph]
  cases s.graph.validateGraph depth with
  | ok _ => rfl
  | error e => cases e <;> rfl

end Files

/-! ## What completing a task changes -/

section Complete

variable {g : SwarmTaskGraph} {id : String}

/-- The tasks after a change that leaves ids, descriptions and dependencies alone. -/
theorem validateGraph_map {change : SwarmTask → SwarmTask}
    (hid : ∀ t, (change t).taskId = t.taskId)
    (hdescription : ∀ t, (change t).description = t.description)
    (hdepends : ∀ t, (change t).dependsOn = t.dependsOn) (g : SwarmTaskGraph) (depth : Nat) :
    (SwarmTaskGraph.mk (g.tasks.map change)).validateGraph depth = g.validateGraph depth := by
  have hids : (SwarmTaskGraph.mk (g.tasks.map change)).ids = g.ids := by
    show (g.tasks.map change).map SwarmTask.taskId = g.tasks.map SwarmTask.taskId
    rw [List.map_map]
    exact List.map_congr_left fun t _ => hid t
  have hfields : (SwarmTaskGraph.mk (g.tasks.map change)).failedFields = g.failedFields := by
    unfold SwarmTaskGraph.failedFields
    simp only [List.map_eq_nil_iff, List.flatMap_map, hid, hdescription]
  have hmissing (t : SwarmTask) :
      (SwarmTaskGraph.mk (g.tasks.map change)).missing (change t) = g.missing t := by
    unfold SwarmTaskGraph.missing
    rw [hids, hdepends]
  have hdependencies :
      (SwarmTaskGraph.mk (g.tasks.map change)).dependencies = g.dependencies := by
    funext taskId
    unfold SwarmTaskGraph.dependencies
    rw [List.find?_map]
    simp only [Function.comp_def, hid]
    cases g.tasks.find? fun t => decide (t.taskId = taskId) with
    | none => rfl
    | some t => exact hdepends t
  have hcycles : (SwarmTaskGraph.mk (g.tasks.map change)).rejectCycles depth =
      g.rejectCycles depth := by
    unfold SwarmTaskGraph.rejectCycles
    rw [hids, hdependencies]
  unfold SwarmTaskGraph.validateGraph
  rw [hfields, hids, hcycles, List.find?_map]
  simp only [Function.comp_def, hmissing]
  cases g.tasks.find? fun t => decide (g.missing t ≠ []) with
  | none => rfl
  | some t =>
    show (if _ then _ else if _ then _ else Except.error (SwarmError.valueError
      ("unknown task dependencies for " ++ (change t).taskId ++ ": " ++
        ", ".intercalate ((SwarmTaskGraph.mk (g.tasks.map change)).missing (change t))))) = _
    rw [hid, hmissing]

/-- Validation does not look at the statuses. -/
theorem complete_validateGraph (g : SwarmTaskGraph) (id : String) (depth : Nat) :
    (g.complete id).validateGraph depth = g.validateGraph depth := by
  refine validateGraph_map (fun t => ?_) (fun t => ?_) (fun t => ?_) g depth <;>
  · split
    · rfl
    · rfl

theorem ValidGraph.complete (h : ValidGraph g) (id : String) : ValidGraph (g.complete id) := by
  obtain ⟨depth, haccepted⟩ := h.accepted
  exact ⟨depth, (complete_validateGraph g id depth).trans haccepted⟩

theorem mem_completedIds {d : String} :
    d ∈ g.completedIds ↔ ∃ t ∈ g.tasks, t.status = .completed ∧ t.taskId = d := by
  unfold SwarmTaskGraph.completedIds SwarmTaskGraph.isCompleted
  simp only [List.mem_map, List.mem_filter, decide_eq_true_eq, and_assoc]

/-- The completed ones, and the task if there is one. -/
theorem mem_completedIds_complete {d : String} :
    d ∈ (g.complete id).completedIds ↔ d ∈ g.completedIds ∨ d = id ∧ id ∈ g.ids := by
  rw [mem_completedIds, mem_completedIds]
  unfold SwarmTaskGraph.complete SwarmTaskGraph.ids
  simp only [List.mem_map]
  constructor
  · rintro ⟨t', ⟨t, ht, rfl⟩, hcompleted, rfl⟩
    by_cases hid : t.taskId = id
    · rw [if_pos hid]
      exact Or.inr ⟨hid, t, ht, hid⟩
    · rw [if_neg hid] at hcompleted ⊢
      exact Or.inl ⟨t, ht, hcompleted, rfl⟩
  · rintro (⟨t, ht, hcompleted, rfl⟩ | ⟨rfl, t, ht, rfl⟩)
    · by_cases hid : t.taskId = id
      · exact ⟨_, ⟨t, ht, if_pos hid⟩, rfl, rfl⟩
      · exact ⟨_, ⟨t, ht, if_neg hid⟩, hcompleted, rfl⟩
    · exact ⟨_, ⟨t, ht, if_pos rfl⟩, rfl, rfl⟩

/-- Every dependency of a completed task is completed. -/
def SwarmTaskGraph.Closed (g : SwarmTaskGraph) : Prop :=
  ∀ t ∈ g.tasks, t.status = .completed → ∀ d ∈ t.dependsOn, d ∈ g.completedIds

/-- The dependencies of the task are completed. -/
def SwarmTaskGraph.Due (g : SwarmTaskGraph) (id : String) : Prop :=
  ∀ t ∈ g.tasks, t.taskId = id → ∀ d ∈ t.dependsOn, d ∈ g.completedIds

theorem SwarmTaskGraph.Due.complete {id' : String} (h : g.Due id') : (g.complete id).Due id' := by
  intro t' ht' hid' d hd
  obtain ⟨t, ht, rfl⟩ := List.mem_map.mp ht'
  refine mem_completedIds_complete.mpr (Or.inl ?_)
  by_cases hid : t.taskId = id
  · rw [if_pos hid] at hid' hd
    exact h t ht hid' d hd
  · rw [if_neg hid] at hid' hd
    exact h t ht hid' d hd

/-- Completing a task whose dependencies are completed keeps the graph closed. -/
theorem SwarmTaskGraph.Closed.complete (h : g.Closed) (hdue : g.Due id) : (g.complete id).Closed := by
  intro t' ht' hcompleted d hd
  obtain ⟨t, ht, rfl⟩ := List.mem_map.mp ht'
  refine mem_completedIds_complete.mpr (Or.inl ?_)
  by_cases hid : t.taskId = id
  · rw [if_pos hid] at hd
    exact hdue t ht hid d hd
  · rw [if_neg hid] at hcompleted hd
    exact h t ht hcompleted d hd

/-- And only then: a task does not depend on itself, so its completion completes none of its
    dependencies. -/
theorem due_of_closed_complete (hvalid : ValidGraph g) (h : (g.complete id).Closed) : g.Due id := by
  intro t ht hid d hd
  have hin : { t with status := .completed } ∈ (g.complete id).tasks :=
    List.mem_map.mpr ⟨t, ht, if_pos hid⟩
  rcases mem_completedIds_complete.mp (h _ hin rfl d hd) with hbefore | ⟨rfl, -⟩
  · exact hbefore
  · exact absurd hd (hid ▸ hvalid.not_self ht)

end Complete

/-! ## One call -/

section Calls

variable {s : SwarmState}

/-- The loop of `run_ready_tasks` keeps the graph closed and valid, whoever the agents are and
    wherever it stops. -/
theorem runTasks_closed (env : SwarmEnv) (agents : List AgentCard) :
    ∀ (tasks : List SwarmTask) (w : Swarm), w.graph.Closed → ValidGraph w.graph →
      (∀ t ∈ tasks, w.graph.Due t.taskId) →
      (runTasks env agents tasks w).2.graph.Closed ∧
        ValidGraph (runTasks env agents tasks w).2.graph := by
  intro tasks
  induction tasks with
  | nil => exact fun w hclosed hvalid _ => ⟨hclosed, hvalid⟩
  | cons task rest ih =>
    intro w hclosed hvalid hdue
    unfold runTasks
    split
    · exact ⟨hclosed, hvalid⟩
    split
    · exact ⟨hclosed, hvalid⟩
    · exact ih _ (hclosed.complete (hdue task List.mem_cons_self)) (hvalid.complete task.taskId)
        fun t ht => (hdue t (List.mem_cons_of_mem task ht)).complete

/-- What is ready waits for nothing. -/
theorem due_of_ready {g : SwarmTaskGraph} (hvalid : ValidGraph g) {t : SwarmTask}
    (ht : t ∈ g.readyTasks) : g.Due t.taskId := by
  obtain ⟨hin, hready⟩ := List.mem_filter.mp ht
  rw [Bool.and_eq_true, List.all_eq_true] at hready
  intro t' ht' hid d hd
  rw [hvalid.eq_of_taskId ht' hin hid] at hd
  exact of_decide_eq_true (hready.2 d hd)

/-- The calls on a state; the coordinator, with its agents and its transport, may be another each
    time. -/
inductive SwarmCall where
  | runReadyTasks (env : SwarmEnv) (agents : List AgentCard) (transport : LocalTransport)
  | markCompleted (taskId : String)
  | saveLoad (depth : Nat) (stamp : Nat → MessageStamp)

/-- What a call leaves, also where it raises; the messages that are returned are kept. -/
def SwarmState.step (s : SwarmState) : SwarmCall → SwarmState
  | .runReadyTasks env agents transport =>
    let out := Vad.runReadyTasks env agents ⟨s.graph, transport⟩
    let messages := match out.1 with
      | .ok result => result.messages
      | .error _ => []
    { s with
      graph := out.2.graph
      messages := s.messages ++ messages }
  | .markCompleted taskId => (s.markCompleted taskId).2
  | .saveLoad depth stamp =>
    match SwarmState.load depth stamp s.dump with
    | .ok s' => s'
    | .error _ => s

def SwarmState.run (s : SwarmState) (calls : List SwarmCall) : SwarmState :=
  calls.foldl SwarmState.step s

/-- A `mark_completed` that completes a task finds its dependencies completed. -/
def InOrder (s : SwarmState) : SwarmCall → Prop
  | .markCompleted taskId =>
    ∀ t ∈ s.graph.tasks, t.taskId = taskId → t.status ≠ .completed →
      ∀ d ∈ t.dependsOn, d ∈ s.graph.completedIds
  | _ => True

/-- So does every call of the run. -/
def AllInOrder (s : SwarmState) : List SwarmCall → Prop
  | [] => True
  | call :: rest => InOrder s call ∧ AllInOrder (s.step call) rest

theorem load_step (hvalid : ValidGraph s.graph) (depth : Nat) (stamp : Nat → MessageStamp) :
    s.step (.saveLoad depth stamp) = s := by
  show (match SwarmState.load depth stamp s.dump with
    | .ok s' => s'
    | .error _ => s) = s
  rw [load_dump hvalid.checks.1]
  cases s.graph.validateGraph depth with
  | ok _ => rfl
  | error e => cases e <;> rfl

/-- What `mark_completed` leaves: nothing changes, or the task is completed. -/
theorem markCompleted_cases (hvalid : ValidGraph s.graph) (taskId : String) :
    ((s.markCompleted taskId).2 = s ∧
        ∀ t ∈ s.graph.tasks, t.taskId = taskId → t.status = .completed) ∨
      ((s.markCompleted taskId).2.graph = s.graph.complete taskId ∧
        ∀ t ∈ s.graph.tasks, t.taskId = taskId → t.status ≠ .completed) := by
  unfold SwarmState.markCompleted
  split
  · rename_i hnone
    refine Or.inl ⟨rfl, fun t ht hid => ?_⟩
    exact absurd (decide_eq_true hid) (List.find?_eq_none.mp hnone t ht)
  · rename_i found hfind
    have hin : found ∈ s.graph.tasks := List.mem_of_find?_eq_some hfind
    have hfound : found.taskId = taskId := by simpa using List.find?_some hfind
    have honly : ∀ t ∈ s.graph.tasks, t.taskId = taskId → t = found := fun t ht hid =>
      hvalid.eq_of_taskId ht hin (hid.trans hfound.symm)
    split
    · rename_i hcompleted
      exact Or.inl ⟨rfl, fun t ht hid => honly t ht hid ▸ hcompleted⟩
    · rename_i hnot
      exact Or.inr ⟨rfl, fun t ht hid => honly t ht hid ▸ hnot⟩

/-- **One call** keeps the graph valid, and keeps it closed exactly when the call is in order. -/
theorem step_closed (hclosed : s.graph.Closed) (hvalid : ValidGraph s.graph) (call : SwarmCall) :
    ValidGraph (s.step call).graph ∧ ((s.step call).graph.Closed ↔ InOrder s call) := by
  cases call with
  | runReadyTasks env agents transport =>
    have hdone := runTasks_closed env agents s.graph.readyTasks ⟨s.graph, transport⟩ hclosed hvalid
      fun t ht => due_of_ready hvalid ht
    exact ⟨hdone.2, iff_of_true hdone.1 trivial⟩
  | saveLoad depth stamp =>
    rw [load_step hvalid]
    exact ⟨hvalid, iff_of_true hclosed trivial⟩
  | markCompleted taskId =>
    show ValidGraph (s.markCompleted taskId).2.graph ∧
      ((s.markCompleted taskId).2.graph.Closed ↔ _)
    rcases markCompleted_cases hvalid taskId with ⟨hsame, hall⟩ | ⟨hgraph, hall⟩
    · rw [hsame]
      exact ⟨hvalid, iff_of_true hclosed fun t ht hid hnot => absurd (hall t ht hid) hnot⟩
    · rw [hgraph]
      refine ⟨hvalid.complete taskId, fun h => ?_, fun h => ?_⟩
      · intro t ht hid _
        exact due_of_closed_complete hvalid h t ht hid
      · exact hclosed.complete fun t ht hid => h t ht hid (hall t ht hid)

/-- **Every run** of calls from a closed state. -/
theorem run_closed : ∀ (calls : List SwarmCall) (s : SwarmState), s.graph.Closed →
    ValidGraph s.graph →
      ((∀ front, front <+: calls → (s.run front).graph.Closed) ↔ AllInOrder s calls) := by
  intro calls
  induction calls with
  | nil =>
    intro s hclosed _
    refine iff_of_true (fun front hfront => ?_) trivial
    rw [List.prefix_nil.mp hfront]
    exact hclosed
  | cons call rest ih =>
    intro s hclosed hvalid
    obtain ⟨hvalid', hiff⟩ := step_closed hclosed hvalid call
    constructor
    · intro h
      have hone : (s.step call).graph.Closed := h [call] ⟨rest, rfl⟩
      refine ⟨hiff.mp hone, (ih (s.step call) hone hvalid').mp fun front hfront => ?_⟩
      exact h (call :: front) ((List.prefix_cons_inj call).mpr hfront)
    · rintro ⟨hcall, hrest⟩ front hfront
      have hone : (s.step call).graph.Closed := hiff.mpr hcall
      cases front with
      | nil => exact hclosed
      | cons call' front =>
        obtain ⟨rfl, hfront'⟩ := List.cons_prefix_cons.mp hfront
        exact (ih (s.step call') hone hvalid').mpr hrest front hfront'

/-- From a valid graph whose tasks are all pending: every state that the calls reach is
    dependency-closed if, and only if, each `mark_completed` that completes a task finds the
    dependencies of the task completed. -/
theorem completion_closed (s : SwarmState) (hvalid : ValidGraph s.graph)
    (hpending : s.graph.AllPending) (calls : List SwarmCall) :
    (∀ front, front <+: calls → (s.run front).graph.Closed) ↔ AllInOrder s calls := by
  refine run_closed calls s (fun t ht hcompleted => ?_) hvalid
  rw [hpending t ht] at hcompleted
  cases hcompleted

end Calls

/-- A run of `planThenBuild`. -/
def freshRun : SwarmState where
  runId := "run-1"
  graph := planThenBuild

theorem freshRun_pending : freshRun.graph.AllPending := by
  unfold SwarmTaskGraph.AllPending
  decide

/-- Marking the plan and then the build. -/
theorem completion_closed_planFirst :
    (freshRun.run [.markCompleted "plan", .markCompleted "build"]).graph.Closed := by
  have hall := (completion_closed freshRun planThenBuild_valid freshRun_pending
    [.markCompleted "plan", .markCompleted "build"]).mpr
  refine hall ⟨?_, ?_, trivial⟩ _ List.prefix_rfl
  · unfold InOrder
    decide
  · unfold InOrder
    decide

/-- Marking the build first: it is completed, and the plan that it depends on is pending. -/
theorem build_marked_first :
    ¬ ∀ s : SwarmState, ValidGraph s.graph → s.graph.AllPending →
      ∀ calls, (s.run calls).graph.Closed := by
  intro h
  have hclosed := h freshRun planThenBuild_valid freshRun_pending [.markCompleted "build"]
  have hno : ¬ (freshRun.run [.markCompleted "build"]).graph.Closed := by
    unfold SwarmTaskGraph.Closed
    decide
  exact hno hclosed

end Vad
