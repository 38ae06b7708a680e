/-
  The transport (`vad/swarm/transport.py`) and the coordinator (`vad/swarm/coordinator.py`) of a
  local swarm: rounds of `run_ready_tasks` until every task is completed.

  The state of the graph in a run is told by one list, the ids completed so far in their order
  (`SwarmTaskGraph.after`): a round completes the tasks whose dependencies are in it
  (`readyTasks_after`), and publishes one message for each (`runTasks_after`).  A round that finds
  unfinished tasks completes one of them at least, since the graph has no cycle
  (`exists_ready`); so `n` rounds complete `n` tasks (`swarm_completes`).
-/
import Mathlib.Data.List.Perm.Subperm
import Vad.Lib.Dict
import Vad.Swarm.Tasks

namespace Vad

/-! ## The transport -/

/-- What a message takes from the outside: its id and the time. -/
structure MessageStamp where
  messageId : String
  createdAt : String
deriving DecidableEq, Repr

/-- The stamp of the `n`-th message, and the digest of evidence. -/
structure SwarmEnv where
  stamp : Nat → MessageStamp
  digest : Json → String

structure SwarmMessage where
  messageId : String
  senderId : String
  senderRole : AgentRole
  messageType : String
  taskId : String
  payload : Dict Json
  evidenceDigest : String
  createdAt : String

/-- `ALLOWED_MESSAGE_TYPES`. -/
def allowedMessageTypes : AgentRole → List String
  | .planner => ["task_planned"]
  | .builder => ["build_completed"]
  | .verifier => ["verification_completed"]
  | .auditor => ["audit_completed"]
  | .releaseGuardian => ["release_decision"]

structure LocalTransport where
  messages : List SwarmMessage := []

/-- The evidence that a message is linked to. -/
def messagePayload (sender : AgentCard) (messageType taskId : String) (payload : Dict Json) :
    Json :=
  .object [("sender_id", .text sender.agentId), ("sender_role", .text sender.role.value),
    ("message_type", .text messageType), ("task_id", .text taskId), ("payload", .object payload)]

/-- `LocalTransport.publish`. -/
def LocalTransport.publish (env : SwarmEnv) (transport : LocalTransport) (sender : AgentCard)
    (messageType taskId : String) (payload : Dict Json) :
    Except SwarmError (SwarmMessage × LocalTransport) :=
  if messageType ∉ allowedMessageTypes sender.role then
    .error (.permissionError (sender.role.value ++ " cannot send " ++ messageType))
  else
    let stamp := env.stamp transport.messages.length
    let message : SwarmMessage := {
      messageId := stamp.messageId
      senderId := sender.agentId
      senderRole := sender.role
      messageType := messageType
      taskId := taskId
      payload := payload
      evidenceDigest := env.digest (messagePayload sender messageType taskId payload)
      createdAt := stamp.createdAt }
    .ok (message, ⟨transport.messages ++ [message]⟩)

/-! ## The coordinator -/

structure SwarmCoordinatorResult where
  messages : List SwarmMessage := []
  completedTaskIds : List String := []

/-- `_message_type_for_role`. -/
def messageTypeForRole : AgentRole → String
  | .planner => "task_planned"
  | .builder => "build_completed"
  | .verifier => "verification_completed"
  | .auditor => "audit_completed"
  | .releaseGuardian => "release_decision"

/-- `LocalSwarmCoordinator._agent_for_role`. -/
def agentForRole (agents : List AgentCard) (role : AgentRole) : Except SwarmError AgentCard :=
  match agents.find? fun a => a.role = role with
  | some a => .ok a
  | none => .error (.valueError ("no agent available for role " ++ role.value))

/-- A graph, and the transport that a coordinator publishes to. -/
structure Swarm where
  graph : SwarmTaskGraph
  transport : LocalTransport

/-- What the message about a completed task carries. -/
def completionPayload (task : SwarmTask) : Dict Json :=
  [("status", .text "completed"), ("description", .text task.description)]

/-- The loop of `run_ready_tasks`; what was completed before an exception stays so. -/
def runTasks (env : SwarmEnv) (agents : List AgentCard) :
    List SwarmTask → Swarm → Except SwarmError SwarmCoordinatorResult × Swarm
  | [], s => (.ok {}, s)
  | task :: rest, s =>
    match agentForRole agents task.role with
    | .error e => (.error e, s)
    | .ok agent =>
      match s.transport.publish env agent (messageTypeForRole task.role) task.taskId
          (completionPayload task) with
      | .error e => (.error e, s)
      | .ok (message, transport) =>
        let out := runTasks env agents rest ⟨s.graph.complete task.taskId, transport⟩
        (out.1.map fun r => ⟨message :: r.messages, task.taskId :: r.completedTaskIds⟩, out.2)

/-- `LocalSwarmCoordinator.run_ready_tasks`. -/
def runReadyTasks (env : SwarmEnv) (agents : List AgentCard) (s : Swarm) :
    Except SwarmError SwarmCoordinatorResult × Swarm :=
  runTasks env agents s.graph.readyTasks s

/-- Some number of rounds: the results of those that returned, and what the last one left. -/
def rounds (env : SwarmEnv) (agents : List AgentCard) :
    Nat → Swarm → Except SwarmError (List SwarmCoordinatorResult) × Swarm
  | 0, s => (.ok [], s)
  | n + 1, s =>
    match rounds env agents n s with
    | (.error e, s') => (.error e, s')
    | (.ok results, s') =>
      let out := runReadyTasks env agents s'
      (out.1.map fun r => results ++ [r], out.2)

/-! ## A graph in a run -/

/-- The graph when the tasks of the list are completed. -/
def SwarmTaskGraph.after (g : SwarmTaskGraph) (done : List String) : SwarmTaskGraph where
  tasks := g.tasks.map fun t => if t.taskId ∈ done then { t with status := .completed } else t

/-- No task was started. -/
def SwarmTaskGraph.AllPending (g : SwarmTaskGraph) : Prop := ∀ t ∈ g.tasks, t.status = .pending

/-- The agents cover the roles of the tasks. -/
def Covers (agents : List AgentCard) (g : SwarmTaskGraph) : Prop :=
  ∀ t ∈ g.tasks, ∃ a ∈ agents, a.role = t.role

/-- The message is about the task, and an agent of the task's role sent it. -/
structure MessageFits (agents : List AgentCard) (t : SwarmTask) (m : SwarmMessage) : Prop where
  task : m.taskId = t.taskId
  role : m.senderRole = t.role
  allowed : m.messageType ∈ allowedMessageTypes t.role
  sender : ∃ a ∈ agents, a.agentId = m.senderId ∧ a.role = t.role

section Runs

variable {env : SwarmEnv} {agents : List AgentCard} {g : SwarmTaskGraph} {done : List String}

theorem after_nil (g : SwarmTaskGraph) : g.after [] = g := by
  unfold SwarmTaskGraph.after
  simp only [List.not_mem_nil, if_false, List.map_id']

theorem complete_after (g : SwarmTaskGraph) (done : List String) (id : String) :
    (g.after done).complete id = g.after (done ++ [id]) := by
  unfold SwarmTaskGraph.complete SwarmTaskGraph.after
  congr 1
  rw [List.map_map]
  refine List.map_congr_left fun t _ => ?_
  simp only [Function.comp_apply, List.mem_append, List.mem_singleton]
  by_cases hdone : t.taskId ∈ done
  · simp [hdone]
  · rw [if_neg hdone]
    by_cases hid : t.taskId = id
    · rw [if_pos hid, if_pos (Or.inr hid)]
    · rw [if_neg hid, if_neg (not_or.mpr ⟨hdone, hid⟩)]

theorem mem_completedIds_after (hpending : g.AllPending) {id : String} :
    id ∈ (g.after done).completedIds ↔ id ∈ g.ids ∧ id ∈ done := by
  unfold SwarmTaskGraph.completedIds SwarmTaskGraph.ids SwarmTaskGraph.after
  simp only [List.mem_map, List.mem_filter]
  constructor
  · rintro ⟨t', ⟨⟨t, ht, rfl⟩, hcompleted⟩, rfl⟩
    by_cases hdone : t.taskId ∈ done
    · rw [if_pos hdone]
      exact ⟨⟨t, ht, rfl⟩, hdone⟩
    · rw [if_neg hdone] at hcompleted
      have hstatus := of_decide_eq_true hcompleted
      rw [hpending t ht] at hstatus
      cases hstatus
  · rintro ⟨⟨t, ht, rfl⟩, hdone⟩
    refine ⟨{ t with status := .completed }, ⟨⟨t, ht, if_pos hdone⟩, rfl⟩, rfl⟩

/-- The tasks that are ready: not completed, with every dependency completed. -/
theorem readyTasks_after (hvalid : ValidGraph g) (hpending : g.AllPending) :
    (g.after done).readyTasks =
      g.tasks.filter fun t => decide (t.taskId ∉ done) && t.dependsOn.all (· ∈ done) := by
  have hdeps (t : SwarmTask) (ht : t ∈ g.tasks) :
      t.dependsOn.all (· ∈ (g.after done).completedIds) = t.dependsOn.all (· ∈ done) := by
    rw [Bool.eq_iff_iff, List.all_eq_true, List.all_eq_true]
    refine forall₂_congr fun d hd => ?_
    rw [decide_eq_true_eq, decide_eq_true_eq, mem_completedIds_after hpending]
    exact and_iff_right (hvalid.dependency_mem ht hd)
  have hfilter : ∀ t ∈ g.tasks,
      ((fun t : SwarmTask => decide (t.status = .pending) &&
        t.dependsOn.all (· ∈ (g.after done).completedIds)) ∘
        fun t => if t.taskId ∈ done then { t with status := .completed } else t) t =
      (decide (t.taskId ∉ done) && t.dependsOn.all (· ∈ done)) := by
    intro t ht
    rw [Function.comp_apply]
    by_cases hdone : t.taskId ∈ done
    · rw [if_pos hdone]
      simp [hdone]
    · rw [if_neg hdone, hdeps t ht]
      simp [hdone, hpending t ht]
  show (g.tasks.map _).filter _ = _
  rw [List.filter_map, List.filter_congr hfilter]
  -- what is ready was not touched
  refine (List.map_congr_left fun t ht => ?_).trans (List.map_id _)
  have hnot : t.taskId ∉ done := by
    have h := (List.mem_filter.mp ht).2
    rw [Bool.and_eq_true] at h
    exact of_decide_eq_true h.1
  exact if_neg hnot

/-! ## A round -/

theorem messageType_allowed (role : AgentRole) :
    messageTypeForRole role ∈ allowedMessageTypes role := by
  cases role <;> exact List.mem_singleton.mpr rfl

/-- An agent of the role is found where there is one. -/
theorem agentForRole_ok {role : AgentRole} (h : ∃ a ∈ agents, a.role = role) :
    ∃ a ∈ agents, agentForRole agents role = .ok a ∧ a.role = role := by
  unfold agentForRole
  cases hfind : agents.find? fun a => a.role = role with
  | none =>
    obtain ⟨a, ha, hrole⟩ := h
    exact absurd hrole (by simpa using List.find?_eq_none.mp hfind a ha)
  | some a =>
    exact ⟨a, List.mem_of_find?_eq_some hfind, rfl, by simpa using List.find?_some hfind⟩

/-- The loop of a round completes its tasks, and publishes a message for each of them in turn. -/
theorem runTasks_after (hagents : Covers agents g) :
    ∀ (tasks : List SwarmTask) (done : List String) (transport : LocalTransport),
      (∀ t ∈ tasks, t ∈ g.tasks) → ∃ messages,
        runTasks env agents tasks ⟨g.after done, transport⟩ =
          (.ok ⟨messages, tasks.map SwarmTask.taskId⟩,
            ⟨g.after (done ++ tasks.map SwarmTask.taskId), ⟨transport.messages ++ messages⟩⟩) ∧
        messages.map SwarmMessage.taskId = tasks.map SwarmTask.taskId ∧
        ∀ m ∈ messages, ∃ t ∈ tasks, MessageFits agents t m := by
  intro tasks
  induction tasks with
  | nil =>
    intro done transport _
    refine ⟨[], ?_, rfl, fun m hm => absurd hm List.not_mem_nil⟩
    rw [List.map_nil, List.append_nil, List.append_nil]
    rfl
  | cons task rest ih =>
    intro done transport hmem
    obtain ⟨agent, hagent, hfound, hrole⟩ :=
      agentForRole_ok (hagents task (hmem task List.mem_cons_self))
    have hallowed : messageTypeForRole task.role ∈ allowedMessageTypes agent.role :=
      hrole ▸ messageType_allowed task.role
    obtain ⟨message, hpublish, hfits⟩ : ∃ message,
        transport.publish env agent (messageTypeForRole task.role) task.taskId
          (completionPayload task) = .ok (message, ⟨transport.messages ++ [message]⟩) ∧
        MessageFits agents task message := by
      unfold LocalTransport.publish
      rw [if_neg (not_not.mpr hallowed)]
      exact ⟨_, rfl, rfl, hrole, hrole ▸ hallowed, agent, hagent, rfl, hrole⟩
    obtain ⟨messages, hrest, hids, hall⟩ := ih (done ++ [task.taskId])
      ⟨transport.messages ++ [message]⟩ fun t ht => hmem t (List.mem_cons_of_mem task ht)
    refine ⟨message :: messages, ?_, ?_, ?_⟩
    · unfold runTasks
      rw [hfound]
      simp only [hpublish]
      rw [complete_after, hrest]
      simp only [List.append_assoc, List.singleton_append, List.map_cons]
      rfl
    · rw [List.map_cons, List.map_cons, hids, hfits.task]
    · intro m hm
      rcases List.mem_cons.mp hm with rfl | hm
      · exact ⟨task, List.mem_cons_self, hfits⟩
      · obtain ⟨t, ht, hfit⟩ := hall m hm
        exact ⟨t, List.mem_cons_of_mem task ht, hfit⟩

/-! ## Rounds -/

/-- What holds after any number of rounds: the results so far, and the state they left. -/
structure Progress (agents : List AgentCard) (g : SwarmTaskGraph) (transport : LocalTransport)
    (results : List SwarmCoordinatorResult) (s : Swarm) : Prop where
  graph : s.graph = g.after (results.flatMap SwarmCoordinatorResult.completedTaskIds)
  nodup : (results.flatMap SwarmCoordinatorResult.completedTaskIds).Nodup
  tasks : ∀ id ∈ results.flatMap SwarmCoordinatorResult.completedTaskIds, id ∈ g.ids
  inOrder : ∀ front id back,
    results.flatMap SwarmCoordinatorResult.completedTaskIds = front ++ id :: back →
      ∀ t ∈ g.tasks, t.taskId = id → ∀ d ∈ t.dependsOn, d ∈ front
  published : s.transport.messages =
    transport.messages ++ results.flatMap SwarmCoordinatorResult.messages
  sameIds : (results.flatMap SwarmCoordinatorResult.messages).map SwarmMessage.taskId =
    results.flatMap SwarmCoordinatorResult.completedTaskIds
  fits : ∀ m ∈ results.flatMap SwarmCoordinatorResult.messages,
    ∃ t ∈ g.tasks, MessageFits agents t m

variable {transport : LocalTransport} {results : List SwarmCoordinatorResult} {s : Swarm}

theorem progress_start (g : SwarmTaskGraph) (transport : LocalTransport) :
    Progress agents g transport [] ⟨g, transport⟩ where
  graph := (after_nil g).symm
  nodup := List.nodup_nil
  tasks _ hid := absurd hid List.not_mem_nil
  inOrder front id back h := absurd h (by simp)
  published := (List.append_nil _).symm
  sameIds := rfl
  fits _ hm := absurd hm List.not_mem_nil

/-- While a task is unfinished, one is ready: the lowest of the unfinished. -/
theorem exists_ready (hvalid : ValidGraph g) (h : ∃ t ∈ g.tasks, t.taskId ∉ done) :
    (g.tasks.filter fun t => decide (t.taskId ∉ done) && t.dependsOn.all (· ∈ done)) ≠ [] := by
  obtain ⟨t, ht, hnot, hdeps⟩ := @ValidGraph.exists_lowest _ hvalid (· ∉ done) h
  refine List.ne_nil_of_mem (a := t) (List.mem_filter.mpr ⟨ht, ?_⟩)
  rw [Bool.and_eq_true]
  refine ⟨decide_eq_true hnot, List.all_eq_true.mpr fun d hd => decide_eq_true ?_⟩
  exact not_not.mp (hdeps d hd)

/-- **One round** returns, keeps everything, and completes a task where one is unfinished. -/
theorem Progress.round (hvalid : ValidGraph g) (hpending : g.AllPending)
    (hagents : Covers agents g) (h : Progress agents g transport results s) :
    ∃ result s', runReadyTasks env agents s = (.ok result, s') ∧
      Progress agents g transport (results ++ [result]) s' ∧
      ((∃ t ∈ g.tasks, t.taskId ∉ results.flatMap SwarmCoordinatorResult.completedTaskIds) →
        result.completedTaskIds ≠ []) := by
  let done := results.flatMap SwarmCoordinatorResult.completedTaskIds
  let ready := g.tasks.filter fun t => decide (t.taskId ∉ done) && t.dependsOn.all (· ∈ done)
  have hready (t : SwarmTask) (ht : t ∈ ready) :
      t ∈ g.tasks ∧ t.taskId ∉ done ∧ ∀ d ∈ t.dependsOn, d ∈ done := by
    obtain ⟨hin, hpasses⟩ := List.mem_filter.mp ht
    rw [Bool.and_eq_true, List.all_eq_true] at hpasses
    exact ⟨hin, of_decide_eq_true hpasses.1, fun d hd => of_decide_eq_true (hpasses.2 d hd)⟩
  obtain ⟨messages, hrun, hids, hfits⟩ := @runTasks_after env _ _ hagents ready done s.transport
    fun t ht => (hready t ht).1
  have hround : runReadyTasks env agents s = (.ok ⟨messages, ready.map SwarmTask.taskId⟩,
      ⟨g.after (done ++ ready.map SwarmTask.taskId), ⟨s.transport.messages ++ messages⟩⟩) := by
    have hstate : s = ⟨g.after done, s.transport⟩ := by rw [← h.graph]
    rw [hstate]
    unfold runReadyTasks
    rw [readyTasks_after hvalid hpending]
    exact hrun
  refine ⟨_, _, hround, ?_, ?_⟩
  · let result : SwarmCoordinatorResult := ⟨messages, ready.map SwarmTask.taskId⟩
    have hsplitIds : (results ++ [result]).flatMap SwarmCoordinatorResult.completedTaskIds =
        done ++ ready.map SwarmTask.taskId := by
      rw [List.flatMap_append, List.flatMap_singleton]
    have hsplitMessages : (results ++ [result]).flatMap SwarmCoordinatorResult.messages =
        results.flatMap SwarmCoordinatorResult.messages ++ messages := by
      rw [List.flatMap_append, List.flatMap_singleton]
    constructor
    · rw [hsplitIds]
    · rw [hsplitIds]
      refine List.Nodup.append h.nodup ?_ ?_
      · exact hvalid.nodup.sublist (List.filter_sublist.map SwarmTask.taskId)
      · intro id hid hin
        obtain ⟨t, ht, rfl⟩ := List.mem_map.mp hin
        exact (hready t ht).2.1 hid
    · rw [hsplitIds]
      intro id hid
      rcases List.mem_append.mp hid with hid | hid
      · exact h.tasks id hid
      · obtain ⟨t, ht, rfl⟩ := List.mem_map.mp hid
        exact List.mem_map_of_mem (hready t ht).1
    · rw [hsplitIds]
      intro front id back hsplit t ht hid d hd
      rcases List.append_eq_append_iff.mp hsplit with ⟨c, rfl, hback⟩ | ⟨c, hdone, hrest⟩
      · -- the id is one of this round: its dependencies were completed before it
        have hin : id ∈ ready.map SwarmTask.taskId := hback ▸ List.mem_append_right _
          List.mem_cons_self
        obtain ⟨t', ht', hid'⟩ := List.mem_map.mp hin
        have hsame : t = t' := hvalid.eq_of_taskId ht (hready t' ht').1 (hid.trans hid'.symm)
        exact List.mem_append_left _ ((hready t' ht').2.2 d (hsame ▸ hd))
      · cases c with
        | nil =>
          have hin : id ∈ ready.map SwarmTask.taskId := by
            rw [List.nil_append] at hrest
            exact hrest ▸ List.mem_cons_self
          obtain ⟨t', ht', hid'⟩ := List.mem_map.mp hin
          have hsame : t = t' := hvalid.eq_of_taskId ht (hready t' ht').1 (hid.trans hid'.symm)
          rw [List.append_nil] at hdone
          exact hdone ▸ (hready t' ht').2.2 d (hsame ▸ hd)
        | cons x c =>
          obtain ⟨rfl, -⟩ := List.cons.inj hrest
          exact h.inOrder front id c hdone t ht hid d hd
    · rw [hsplitMessages, ← List.append_assoc, ← h.published]
    · rw [hsplitIds, hsplitMessages, List.map_append, h.sameIds, hids]
    · rw [hsplitMessages]
      intro m hm
      rcases List.mem_append.mp hm with hm | hm
      · exact h.fits m hm
      · obtain ⟨t, ht, hfit⟩ := hfits m hm
        exact ⟨t, (hready t ht).1, hfit⟩
  · intro hsome hnil
    exact exists_ready hvalid hsome (List.map_eq_nil_iff.mp hnil)

/-- **Any number of rounds** returns, and keeps everything. -/
theorem rounds_progress (hvalid : ValidGraph g) (hpending : g.AllPending)
    (hagents : Covers agents g) : ∀ n, ∃ results s,
      rounds env agents n ⟨g, transport⟩ = (.ok results, s) ∧
      Progress agents g transport results s ∧
      ((∃ t ∈ g.tasks, t.taskId ∉ results.flatMap SwarmCoordinatorResult.completedTaskIds) →
        n ≤ (results.flatMap SwarmCoordinatorResult.completedTaskIds).length) := by
  intro n
  induction n with
  | zero => exact ⟨[], ⟨g, transport⟩, rfl, progress_start g transport, fun _ => Nat.zero_le _⟩
  | succ n ih =>
    obtain ⟨results, s, hrounds, hprogress, hcount⟩ := ih
    obtain ⟨result, s', hround, hprogress', hsome⟩ :=
      @Progress.round env _ _ _ _ _ hvalid hpending hagents hprogress
    refine ⟨results ++ [result], s', ?_, hprogress', ?_⟩
    · unfold rounds
      rw [hrounds]
      simp only [hround]
      rfl
    · -- an unfinished task was unfinished before, so this round has completed one
      rintro ⟨t, ht, hnot⟩
      rw [List.flatMap_append, List.flatMap_singleton, List.mem_append, not_or] at hnot
      have hbefore := hcount ⟨t, ht, hnot.1⟩
      have hone : 0 < result.completedTaskIds.length :=
        List.length_pos_iff.mpr (hsome ⟨t, ht, hnot.1⟩)
      rw [List.flatMap_append, List.flatMap_singleton, List.length_append]
      omega

/-- A task that is not completed is not among the completed ids. -/
theorem Progress.unfinished (h : Progress agents g transport results s)
    (hsome : ∃ t ∈ s.graph.tasks, t.status ≠ .completed) :
    ∃ t ∈ g.tasks, t.taskId ∉ results.flatMap SwarmCoordinatorResult.completedTaskIds := by
  obtain ⟨t', ht', hstatus⟩ := hsome
  rw [h.graph] at ht'
  obtain ⟨t, ht, rfl⟩ := List.mem_map.mp ht'
  refine ⟨t, ht, fun hdone => hstatus ?_⟩
  rw [if_pos hdone]

/-- Whatever the graph, all of whose tasks are pending, and the agents, which cover its roles: no
    round raises; a round that finds an unfinished task completes one; and after as many rounds as
    there are tasks

    * all tasks are completed, each was completed once, and behind its dependencies;
    * one message was published for each of them, by an agent of the task's role and of a type that
      is allowed for the role. -/
theorem swarm_completes (env : SwarmEnv) (agents : List AgentCard) (g : SwarmTaskGraph)
    (transport : LocalTransport) (hvalid : ValidGraph g) (hpending : g.AllPending)
    (hagents : Covers agents g) :
    (∀ n, ∃ results s, rounds env agents n ⟨g, transport⟩ = (.ok results, s) ∧
      ∃ result s', runReadyTasks env agents s = (.ok result, s') ∧
        ((∃ t ∈ s.graph.tasks, t.status ≠ .completed) → result.completedTaskIds ≠ [])) ∧
    ∃ results s, rounds env agents g.tasks.length ⟨g, transport⟩ = (.ok results, s) ∧
      (∀ t ∈ s.graph.tasks, t.status = .completed) ∧
      let completed := results.flatMap SwarmCoordinatorResult.completedTaskIds
      let messages := results.flatMap SwarmCoordinatorResult.messages
      completed.Nodup ∧ completed.Perm g.ids ∧
      (∀ front id back, completed = front ++ id :: back →
        ∀ t ∈ g.tasks, t.taskId = id → ∀ d ∈ t.dependsOn, d ∈ front) ∧
      s.transport.messages = transport.messages ++ messages ∧
      messages.map SwarmMessage.taskId = completed ∧
      ∀ m ∈ messages, ∃ t ∈ g.tasks, MessageFits agents t m := by
  constructor
  · intro n
    obtain ⟨results, s, hrounds, hprogress, -⟩ :=
      @rounds_progress env agents g transport hvalid hpending hagents n
    obtain ⟨result, s', hround, -, hsome⟩ :=
      @Progress.round env _ _ _ _ _ hvalid hpending hagents hprogress
    exact ⟨results, s, hrounds, result, s', hround, fun hleft => hsome (hprogress.unfinished hleft)⟩
  · obtain ⟨results, s, hrounds, hprogress, hcount⟩ :=
      @rounds_progress env agents g transport hvalid hpending hagents g.tasks.length
    have hsub : results.flatMap SwarmCoordinatorResult.completedTaskIds ⊆ g.ids := hprogress.tasks
    have hsubperm := hprogress.nodup.subperm hsub
    -- an unfinished task would make the completed ones as many as there are
    have hall : ∀ t ∈ g.tasks,
        t.taskId ∈ results.flatMap SwarmCoordinatorResult.completedTaskIds := by
      intro t ht
      by_contra hnot
      have hlength := hcount ⟨t, ht, hnot⟩
      have hperm := hsubperm.perm_of_length_le (by
        show (g.tasks.map SwarmTask.taskId).length ≤ _
        rwa [List.length_map])
      exact hnot (hperm.mem_iff.mpr (List.mem_map_of_mem ht))
    refine ⟨results, s, hrounds, fun t' ht' => ?_, hprogress.nodup, ?_, hprogress.inOrder,
      hprogress.published, hprogress.sameIds, hprogress.fits⟩
    · rw [hprogress.graph] at ht'
      obtain ⟨t, ht, rfl⟩ := List.mem_map.mp ht'
      rw [if_pos (hall t ht)]
    · refine (List.perm_ext_iff_of_nodup hprogress.nodup hvalid.nodup).mpr fun id => ?_
      refine ⟨fun hid => hsub hid, fun hid => ?_⟩
      obtain ⟨t, ht, rfl⟩ := List.mem_map.mp hid
      exact hall t ht

end Runs

/-- A plan, and a build behind it. -/
def planThenBuild : SwarmTaskGraph where
  tasks := [
    { taskId := "plan", role := .planner, description := "Plan." },
    { taskId := "build", role := .builder, description := "Build.", dependsOn := ["plan"] }]

/-- Both roles of `planThenBuild`. -/
def plannerAndBuilder : List AgentCard := [⟨"p", .planner⟩, ⟨"b", .builder⟩]

theorem planThenBuild_valid : ValidGraph planThenBuild := ⟨3, by decide⟩

theorem swarm_completes_planThenBuild :
    ∃ results s, rounds ⟨fun _ => ⟨"m", "now"⟩, fun _ => "digest"⟩ plannerAndBuilder 2
        ⟨planThenBuild, {}⟩ = (.ok results, s) ∧
      ∀ t ∈ s.graph.tasks, t.status = .completed := by
  have hpending : planThenBuild.AllPending := by
    unfold SwarmTaskGraph.AllPending
    decide
  have hagents : Covers plannerAndBuilder planThenBuild := by
    unfold Covers
    decide
  obtain ⟨-, results, s, hrounds, hall, -⟩ := swarm_completes ⟨fun _ => ⟨"m", "now"⟩, fun _ => "digest"⟩
    plannerAndBuilder planThenBuild {} planThenBuild_valid hpending hagents
  exact ⟨results, s, hrounds, hall⟩

end Vad
