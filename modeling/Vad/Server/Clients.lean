/-
  The client registry (`vad/server/api/clients.py`): registration, heartbeats, and the stale scan
  with its recovery of abandoned work.

  The stale scan runs in three phases over one store that other code may change in between:

    1. list all clients and pick the silent ones;
    2. for each of them mark it stale (which expires its leases), record that, and requeue the
       work assigned to it;
    3. if asked to, schedule every recovered item again.

  Ages are kept exact, in microseconds, where the source divides them into a float of seconds.
-/
import Vad.Server.WorkItems

namespace Vad

open Atomic (Program)

structure ClientRegistrationResult where
  manifest : Checked ClientManifest
  event : Checked ControlPlaneEvent

structure ClientHeartbeatResult where
  heartbeat : Checked ClientHeartbeat
  snapshot : ClientStatusSnapshot
  event : Checked ControlPlaneEvent

structure ClientStaleRecoveryResult where
  snapshot : ClientStatusSnapshot
  event : Checked ControlPlaneEvent
  recoveredWorkItems : List WorkItemTransitionResult
  recoveryEvents : List (Checked ControlPlaneEvent)
  reassignedWorkItems : List SchedulerDecisionResult

/-- `RECOVERABLE_STALE_WORK_STATUSES`. -/
def recoverableStaleWorkStatuses : List WorkItemStatus :=
  [.assigned, .running, .blocked, .waitingForHuman, .verifying]

/-! ## Events -/

/-- The envelope of an event in which a client speaks about itself. -/
def clientEvent (m : ClientManifest) (kind : ControlPlaneEventKind)
    (status : ControlPlaneEventStatus) (runId taskId digest : Option String) (summary : String)
    (now : DateTime) (sequence : Nat) : EventFields where
  sequence := sequence
  createdAt := now
  clientId := m.clientId
  clientLabel := some m.displayName
  runId := runId
  taskId := taskId
  kind := kind
  status := status
  actor := m.clientId
  role := m.trustState.value
  evidenceDigest := digest
  summary := summary

/-- `ClientRegistryService._append_registry_event`. -/
def appendRegistryEvent (m : ClientManifest) (action : String) (now : DateTime) :
    Db (Checked ControlPlaneEvent) :=
  appendEvent (clientEvent m .message (if action = "registered" then .active else .stale)
    none none none ("Client " ++ m.displayName ++ " " ++ action ++ ".") now)

/-- The event of `heartbeat`: its author and its time are those of the heartbeat. -/
def heartbeatEvent (h : ClientHeartbeat) (m : ClientManifest) (sequence : Nat) : EventFields where
  sequence := sequence
  createdAt := h.observedAt
  clientId := h.clientId
  clientLabel := some m.displayName
  runId := h.runId
  taskId := h.taskId
  kind := .heartbeat
  status := .active
  actor := h.actor
  role := h.role
  summary := h.summary

/-- `int(age_seconds)`, written out. -/
def ageText (ageMicros : Int) : String := toString (ageMicros.tdiv 1000000)

/-- `ClientRegistryService._append_stale_event`. -/
def appendStaleEvent (snapshot : ClientStatusSnapshot) (ageMicros : Int) (now : DateTime) :
    Db (Checked ControlPlaneEvent) :=
  appendEvent (clientEvent snapshot.manifest.1 .heartbeat .stale snapshot.lastRunId
    snapshot.lastTaskId none
    ("Client " ++ snapshot.manifest.1.displayName ++ " marked stale after " ++ ageText ageMicros ++
      " seconds; task leases released: " ++ toString snapshot.lostTaskLeases.length ++ ".") now)

/-! ## Registration and heartbeats -/

/-- `ClientRegistryService.register`. -/
def register (m : Checked ClientManifest) (now : DateTime) : Db ClientRegistrationResult := do
  let saved ← registerClientManifest m
  let event ← appendRegistryEvent saved.1 "registered" now
  pure { manifest := saved, event := event }

/-- `ClientRegistryService.unregister`. -/
def unregister (clientId : String) (now : DateTime) : Db ClientRegistrationResult := do
  let removed ← unregisterClientManifest clientId
  let event ← appendRegistryEvent removed.1 "unregistered" now
  pure { manifest := removed, event := event }

/-- `ClientRegistryService.heartbeat`. -/
def heartbeat (h : Checked ClientHeartbeat) : Db ClientHeartbeatResult := do
  let saved ← recordClientHeartbeat h
  let manifest ← loadClientManifest saved.1.clientId
  let event ← appendEvent (heartbeatEvent saved.1 manifest.1)
  pure {
    heartbeat := saved
    snapshot := {
      manifest := manifest
      status := saved.1.status
      lastHeartbeatAt := some saved.1.observedAt
      lastRunId := saved.1.runId
      lastTaskId := saved.1.taskId }
    event := event }

/-! ## The stale scan -/

/-- The age of the last heartbeat when the snapshot is one to look at.  Subtracting an aware time
    from a naive `reference` is a `TypeError`. -/
def heartbeatAge (reference : DateTime) (snapshot : ClientStatusSnapshot) :
    Except PyError (Option Int) :=
  if snapshot.status = .disconnected then .ok none
  else match snapshot.lastHeartbeatAt with
    | none => .ok none
    | some t =>
      if reference.isAware then .ok (some (reference.instant - t.instant)) else .error .typeError

/-- The first loop: the snapshots whose heartbeat is older than the threshold, with their ages. -/
def staleSnapshots (reference : DateTime) (staleAfterSeconds : Int) :
    List ClientStatusSnapshot → Except PyError (List (ClientStatusSnapshot × Int))
  | [] => .ok []
  | snapshot :: rest =>
    match heartbeatAge reference snapshot with
    | .error e => .error e
    | .ok age =>
      match staleSnapshots reference staleAfterSeconds rest with
      | .error e => .error e
      | .ok stale =>
        match age with
        | some a => .ok (if a ≤ staleAfterSeconds * 1000000 then stale else (snapshot, a) :: stale)
        | none => .ok stale

/-- The summary under which a stale client's work is requeued. -/
def abandonedSummary (snapshot : ClientStatusSnapshot) (item : WorkItem) : String :=
  "Work item " ++ item.workItemId ++ " requeued after stale client " ++
    snapshot.manifest.1.displayName ++ " abandoned " ++ item.status.value ++ " work."

/-- The event that follows a successful requeue. -/
def recoveryEvent (snapshot : ClientStatusSnapshot) (item : WorkItem) :
    DateTime → Nat → EventFields :=
  clientEvent snapshot.manifest.1 .recoveryAction .active (some item.runId) (some item.workItemId)
    item.evidenceDigest
    ("Recovery requeued work item " ++ item.workItemId ++ " from stale client " ++
      snapshot.manifest.1.displayName ++ ".")

/-- The caller in whose name a marked client's work is requeued. -/
def staleCaller (snapshot : ClientStatusSnapshot) : Caller where
  actor := snapshot.manifest.1.clientId
  role := snapshot.manifest.1.trustState.value
  clientId := snapshot.manifest.1.clientId

/-- One turn of the loop in `_recover_stale_work_items`: `none` is a `continue`. -/
def recoverStaleWorkItem (snapshot : ClientStatusSnapshot) (now : DateTime)
    (item : Checked WorkItem) :
    Db (Option (WorkItemTransitionResult × Checked ControlPlaneEvent)) :=
  if item.1.status ∉ recoverableStaleWorkStatuses then pure none
  else if item.1.status = .requeued then pure none
  else do
    let result ← requeue item.1.workItemId (staleCaller snapshot)
      (some (abandonedSummary snapshot item.1)) now
    if result.statusCode ≠ 200 then pure none
    else do
      let event ← appendEvent (recoveryEvent snapshot result.workItem.1 now)
      pure (some (result, event))

/-- `ClientRegistryService._recover_stale_work_items`. -/
def recoverStaleWorkItems (snapshot : ClientStatusSnapshot) (now : DateTime) :
    Db (List WorkItemTransitionResult × List (Checked ControlPlaneEvent)) := do
  let items ← listWorkItems none none (some snapshot.manifest.1.clientId)
  let recovered ← Program.forEach items (recoverStaleWorkItem snapshot now)
  let recovered := recovered.filterMap id
  pure (recovered.map Prod.fst, recovered.map Prod.snd)

/-- One turn of the second loop. -/
def recoverStaleClient (now : DateTime) (stale : ClientStatusSnapshot × Int) :
    Db ClientStaleRecoveryResult := do
  let marked ← markClientStale stale.1.manifest.1.clientId
  let event ← appendStaleEvent marked stale.2 now
  let recovered ← recoverStaleWorkItems marked now
  pure {
    snapshot := marked
    event := event
    recoveredWorkItems := recovered.1
    recoveryEvents := recovered.2
    reassignedWorkItems := [] }

/-- `recovered_by_work_item.values()`: of two transitions of one item the later one counts. -/
def recoveredByWorkItem (transitions : List WorkItemTransitionResult) :
    List WorkItemTransitionResult :=
  transitions.foldl (fun kept t => kept.filter (fun u => u.workItem.1.workItemId ≠
    t.workItem.1.workItemId) ++ [t]) []

/-- The order of `sorted(recovered_by_work_item)`. -/
def sortedByItem (transitions : List WorkItemTransitionResult) : List WorkItemTransitionResult :=
  transitions.insertionSort (fun a b => a.workItem.1.workItemId ≤ b.workItem.1.workItemId)

/-- The caller in whose name recovered work is assigned again. -/
def recoveryScheduler : Caller := ⟨"recovery-scheduler", "operator", "control-plane"⟩

/-- One turn of the third loop: the decision, if it is an assignment. -/
def reassign (now : DateTime) (t : WorkItemTransitionResult) :
    Db (Option SchedulerDecisionResult) :=
  if t.statusCode ≠ 200 then pure none
  else do
    let decision ← scheduleWorkItem t.workItem.1.workItemId recoveryScheduler now
    pure (if decision.statusCode = 200 then some decision else none)

/-- The results with every reassignment attached to the first of them. -/
def withReassigned (results : List ClientStaleRecoveryResult)
    (reassigned : List SchedulerDecisionResult) : List ClientStaleRecoveryResult :=
  match reassigned, results with
  | _ :: _, first :: rest => { first with reassignedWorkItems := reassigned } :: rest
  | _, _ => results

/-- The third loop. -/
def reassignRecovered (now : DateTime) (results : List ClientStaleRecoveryResult) :
    Db (List SchedulerDecisionResult) := do
  let transitions := results.flatMap ClientStaleRecoveryResult.recoveredWorkItems
  let decisions ← Program.forEach (sortedByItem (recoveredByWorkItem transitions)) (reassign now)
  pure (decisions.filterMap id)

/-- `ClientRegistryService.mark_stale_clients_with_recovery`; `reference` is the `now` argument and
    `now` the clock. -/
def markStaleClientsWithRecovery (reference : DateTime) (staleAfterSeconds : Int)
    (autoReassign : Bool) (now : DateTime) : Db (List ClientStaleRecoveryResult) := do
  let statuses ← listClientStatuses
  let stale ← Program.done (staleSnapshots reference staleAfterSeconds statuses)
  let results ← Program.forEach stale (recoverStaleClient now)
  if autoReassign then do
    let reassigned ← reassignRecovered now results
    pure (withReassigned results reassigned)
  else pure results

/-- `ClientRegistryService.mark_stale_clients`. -/
def markStaleClients (reference : DateTime) (staleAfterSeconds : Int) (now : DateTime) :
    Db (List ClientStatusSnapshot) := do
  let results ← markStaleClientsWithRecovery reference staleAfterSeconds false now
  pure (results.map ClientStaleRecoveryResult.snapshot)

end Vad
