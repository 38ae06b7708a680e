/-
  Work-item services (`vad/server/api/work_items.py`) and the work calls of the local SDK
  (`vad/control_plane/sdk.py`).

  Every verb is `transition` with its own target and arguments.  `transition` is five store calls
  with nothing that holds them together:

    load  →  decide  →  update the item (and its mirror)  →  write the mirror again  →  event

  and a refusal is a load followed by an event.  Its two continuations are definitions of their own
  (`denyTransition`, `performTransition`), so that a proof about interleavings can say where a
  request stands.  A request reads its clock once, in `now`.
-/
import Vad.Server.Store

namespace Vad

open Atomic (Program)

/-- `ALLOWED_WORK_ITEM_TRANSITIONS`. -/
def allowedWorkItemTransitions : WorkItemStatus → List WorkItemStatus
  | .planned => [.queued, .cancelled]
  | .queued => [.assigned, .blocked, .waitingForHuman, .cancelled]
  | .assigned => [.running, .blocked, .waitingForHuman, .requeued, .cancelled]
  | .running => [.blocked, .waitingForHuman, .verifying, .completed, .failed, .cancelled, .requeued]
  | .blocked => [.queued, .requeued, .waitingForHuman, .cancelled]
  | .waitingForHuman => [.queued, .assigned, .running, .requeued, .cancelled]
  | .verifying => [.approved, .failed, .blocked, .waitingForHuman, .requeued]
  | .approved => [.completed]
  | .failed => [.requeued, .cancelled]
  | .requeued => [.queued, .assigned, .cancelled]
  | .completed => []
  | .cancelled => []

structure WorkItemTransitionResult where
  statusCode : Nat
  workItem : Checked WorkItem
  event : Checked ControlPlaneEvent
  decision : PolicyDecision

structure SchedulerDecisionResult where
  statusCode : Nat
  workItem : Option (Checked WorkItem)
  selectedClientId : Option String
  event : Option (Checked ControlPlaneEvent)
  decision : PolicyDecision

/-- The three keyword arguments that name the author of an event. -/
structure Caller where
  actor : String
  role : String
  clientId : String
deriving DecidableEq, Repr

/-- `_event_status`. -/
def eventStatus : WorkItemStatus → ControlPlaneEventStatus
  | .completed | .approved => .passed
  | .failed | .cancelled => .failed
  | .blocked => .blocked
  | .waitingForHuman => .needsHuman
  | _ => .active

/-- `WorkItemService._transition_decision`. -/
def transitionDecision (source target : WorkItemStatus) : PolicyDecision :=
  if target ∈ allowedWorkItemTransitions source then
    { allow := true
      reasons := ["work item transition " ++ source.value ++ "->" ++ target.value ++ " allowed"] }
  else
    { allow := false
      denials := ["work item transition " ++ source.value ++ "->" ++ target.value ++
        " is not allowed"]
      requiresHuman := true }

/-! ## Events -/

/-- The envelope of an event about a work item. -/
def itemEvent (kind : ControlPlaneEventKind) (status : ControlPlaneEventStatus)
    (digest : Option String) (item : WorkItem) (caller : Caller) (summary : String)
    (now : DateTime) (sequence : Nat) : EventFields where
  sequence := sequence
  createdAt := now
  clientId := caller.clientId
  runId := some item.runId
  taskId := some item.workItemId
  kind := kind
  status := status
  actor := caller.actor
  role := caller.role
  evidenceDigest := digest
  summary := summary

/-- The envelope that `WorkItemService._append_event` builds. -/
def workItemEvent (item : WorkItem) : Caller → String → DateTime → Nat → EventFields :=
  itemEvent .workItem (eventStatus item.status) item.evidenceDigest item

/-- The envelope that both `_append_denial_event`s build. -/
def denialEvent (item : WorkItem) : Caller → String → DateTime → Nat → EventFields :=
  itemEvent .policyDenied .blocked none item

/-- `WorkItemService._append_event`. -/
def appendWorkItemEvent (item : WorkItem) (caller : Caller) (summary : String) (now : DateTime) :
    Db (Checked ControlPlaneEvent) := appendEvent (workItemEvent item caller summary now)

/-- `"; ".join(decision.denials)`. -/
def joinedDenials (d : PolicyDecision) : String := "; ".intercalate d.denials

/-- `WorkItemService._append_denial_event`. -/
def appendDenialEvent (item : WorkItem) (caller : Caller) (target : WorkItemStatus)
    (decision : PolicyDecision) (now : DateTime) : Db (Checked ControlPlaneEvent) :=
  appendEvent (denialEvent item caller
    ("Policy denied work_item transition to " ++ target.value ++ ": " ++ joinedDenials decision) now)

/-! ## WorkItemService -/

/-- `WorkItemService.create`. -/
def createWorkItem (item : Checked WorkItem) (caller : Caller) (summary : Option String)
    (now : DateTime) : Db WorkItemTransitionResult := do
  let saved ← saveWorkItem item
  upsertRunTaskState (RunTaskState.fromWorkItem saved)
  let event ← appendWorkItemEvent saved.1 caller
    (orDefault summary
      ("Work item " ++ saved.1.workItemId ++ " created as " ++ saved.1.status.value ++ ".")) now
  pure {
    statusCode := 201
    workItem := saved
    event := event
    decision := { allow := true, reasons := ["work item created"] } }

/-- `WorkItemService.transition` once its decision is a denial. -/
def denyTransition (current : Checked WorkItem) (target : WorkItemStatus) (caller : Caller)
    (now : DateTime) : Db WorkItemTransitionResult := do
  let decision := transitionDecision current.1.status target
  let event ← appendDenialEvent current.1 caller target decision now
  pure { statusCode := 409, workItem := current, event := event, decision := decision }

/-- The item that `transition` saves: a requeued item has no owner and no lease. -/
def transitionedItem (current : Checked WorkItem) (target : WorkItemStatus)
    (change : WorkItemChange) (now : DateTime) : Except PyError (Checked WorkItem) :=
  match updateWorkItem current.1 { change with status := some target } now with
  | .error e => .error e
  | .ok updated =>
    if target = .requeued then
      .ok ⟨updated.1.withoutOwner, WorkItem.withoutOwner_valid updated.2⟩
    else .ok updated

/-- The summary that `transition` records when its caller gives none. -/
def transitionSummary (item : WorkItem) (summary : Option String) : String :=
  orDefault summary
    ("Work item " ++ item.workItemId ++ " transitioned to " ++ item.status.value ++ ".")

/-- The calls of `WorkItemService.transition` that come after the item was saved. -/
def recordTransition (saved : Checked WorkItem) (caller : Caller) (summary : Option String)
    (decision : PolicyDecision) (now : DateTime) : Db WorkItemTransitionResult := do
  upsertRunTaskState (RunTaskState.fromWorkItem saved)
  let event ← appendWorkItemEvent saved.1 caller (transitionSummary saved.1 summary) now
  pure { statusCode := 200, workItem := saved, event := event, decision := decision }

/-- `WorkItemService.transition` once its decision is to allow. -/
def performTransition (current : Checked WorkItem) (target : WorkItemStatus) (caller : Caller)
    (change : WorkItemChange) (summary : Option String) (now : DateTime) :
    Db WorkItemTransitionResult := do
  let updated ← Program.done (transitionedItem current target change now)
  let saved ← storeWorkItem updated
  recordTransition saved caller summary (transitionDecision current.1.status target) now

/-- `WorkItemService.transition` after the load. -/
def transitionFrom (current : Checked WorkItem) (target : WorkItemStatus) (caller : Caller)
    (change : WorkItemChange) (summary : Option String) (now : DateTime) :
    Db WorkItemTransitionResult :=
  if (transitionDecision current.1.status target).allow then
    performTransition current target caller change summary now
  else denyTransition current target caller now

/-- `WorkItemService.transition`; `change` holds the optional arguments that replace fields. -/
def transition (workItemId : String) (target : WorkItemStatus) (caller : Caller)
    (change : WorkItemChange) (summary : Option String) (now : DateTime) :
    Db WorkItemTransitionResult := do
  let current ← loadWorkItem workItemId
  transitionFrom current target caller change summary now

/-- `WorkItemService.assign`. -/
def assign (workItemId : String) (caller : Caller) (assignedClientId : String)
    (leaseId : Option String) (summary : Option String) (now : DateTime) :
    Db WorkItemTransitionResult :=
  transition workItemId .assigned caller
    { assignedClientId := some assignedClientId, leaseId := leaseId }
    (some (orDefault summary
      ("Work item " ++ workItemId ++ " assigned to " ++ assignedClientId ++ "."))) now

/-- `WorkItemService.start`. -/
def start (workItemId : String) (caller : Caller) (now : DateTime) : Db WorkItemTransitionResult :=
  transition workItemId .running caller {} none now

/-- `WorkItemService.block`. -/
def block (workItemId : String) (caller : Caller) (reason : String) (now : DateTime) :
    Db WorkItemTransitionResult :=
  transition workItemId .blocked caller { blockedReason := some reason }
    (some ("Work item " ++ workItemId ++ " blocked: " ++ reason)) now

/-- `WorkItemService.wait_for_human`. -/
def waitForHuman (workItemId : String) (caller : Caller) (now : DateTime) :
    Db WorkItemTransitionResult := transition workItemId .waitingForHuman caller {} none now

/-- `WorkItemService.verify`. -/
def verify (workItemId : String) (caller : Caller) (now : DateTime) :
    Db WorkItemTransitionResult := transition workItemId .verifying caller {} none now

/-- `WorkItemService.approve`. -/
def approve (workItemId : String) (caller : Caller) (now : DateTime) :
    Db WorkItemTransitionResult := transition workItemId .approved caller {} none now

/-- `WorkItemService.complete`. -/
def complete (workItemId : String) (caller : Caller) (evidenceDigest : Option String)
    (now : DateTime) : Db WorkItemTransitionResult :=
  transition workItemId .completed caller { evidenceDigest := evidenceDigest } none now

/-- `WorkItemService.fail`. -/
def fail (workItemId : String) (caller : Caller) (now : DateTime) : Db WorkItemTransitionResult :=
  transition workItemId .failed caller {} none now

/-- `WorkItemService.cancel`. -/
def cancel (workItemId : String) (caller : Caller) (now : DateTime) :
    Db WorkItemTransitionResult := transition workItemId .cancelled caller {} none now

/-- `WorkItemService.requeue`. -/
def requeue (workItemId : String) (caller : Caller) (summary : Option String) (now : DateTime) :
    Db WorkItemTransitionResult := transition workItemId .requeued caller {} summary now

/-! ## WorkItemSchedulerService -/

/-- The statuses from which the scheduler assigns. -/
def schedulable (status : WorkItemStatus) : Bool := status = .queued || status = .requeued

/-- `WorkItemSchedulerService._supports_requested_capability`. -/
def supportsRequestedCapability (snapshot : ClientStatusSnapshot) (item : WorkItem) : Bool :=
  item.requestedCapability.all (snapshot.manifest.1.supportedCapabilities.contains ·)

/-- The filter of `_eligible_clients`. -/
def eligible (item : WorkItem) (snapshot : ClientStatusSnapshot) : Bool :=
  snapshot.status = .active && snapshot.manifest.1.trustState = .trusted &&
    supportsRequestedCapability snapshot item

/-- The sort key of `_eligible_clients`: the active leases, the name and the id. -/
def eligibleOrder (a b : Nat × ClientStatusSnapshot) : Bool :=
  orderedBy [compare a.1 b.1, compare a.2.manifest.1.displayName b.2.manifest.1.displayName,
    compare a.2.manifest.1.clientId b.2.manifest.1.clientId]

/-- The sort of `_eligible_clients`, which first computes the key of every snapshot. -/
def sortedByLoad (snapshots : List ClientStatusSnapshot) : Db (List ClientStatusSnapshot) := do
  let keyed ← Program.forEach snapshots fun snapshot => do
    let leases ← listTaskLeases (some snapshot.manifest.1.clientId) (some .active)
    pure (leases.length, snapshot)
  pure ((keyed.insertionSort (fun a b => eligibleOrder a b = true)).map Prod.snd)

/-- `WorkItemSchedulerService._eligible_clients`. -/
def eligibleClients (item : WorkItem) : Db (List ClientStatusSnapshot) := do
  let statuses ← listClientStatuses
  sortedByLoad (statuses.filter (eligible item))

/-- `WorkItemSchedulerService._append_denial_event` and the 409 result around it. -/
def denySchedule (item : Checked WorkItem) (caller : Caller) (denial : String) (now : DateTime) :
    Db SchedulerDecisionResult := do
  let decision : PolicyDecision := { allow := false, denials := [denial], requiresHuman := true }
  let event ← appendEvent (denialEvent item.1 caller
    ("Policy denied scheduler assignment: " ++ joinedDenials decision) now)
  pure {
    statusCode := 409
    workItem := some item
    selectedClientId := none
    event := some event
    decision := decision }

/-- The assignment to the selected client: the decision says "allow" whatever its status code. -/
def assignSelected (item : Checked WorkItem) (selected : ClientStatusSnapshot) (caller : Caller)
    (now : DateTime) : Db SchedulerDecisionResult := do
  let clientId := selected.manifest.1.clientId
  let assignment ← assign item.1.workItemId caller clientId none
    (some ("Scheduler assigned work item " ++ item.1.workItemId ++ " to " ++ clientId ++ ".")) now
  pure {
    statusCode := assignment.statusCode
    workItem := some assignment.workItem
    selectedClientId := some clientId
    event := some assignment.event
    decision := {
      allow := true
      reasons := ["scheduler assigned " ++ item.1.workItemId ++ " to " ++ clientId] } }

/-- `schedule_work_item` once the eligible clients are known. -/
def scheduleAmong (item : Checked WorkItem) (caller : Caller) (now : DateTime) :
    List ClientStatusSnapshot → Db SchedulerDecisionResult
  | [] => denySchedule item caller
      ("no active trusted clients match work item " ++ item.1.workItemId) now
  | selected :: _ => assignSelected item selected caller now

/-- `schedule_work_item` after its load. -/
def scheduleFrom (item : Checked WorkItem) (caller : Caller) (now : DateTime) :
    Db SchedulerDecisionResult :=
  if schedulable item.1.status then do
    let clients ← eligibleClients item.1
    scheduleAmong item caller now clients
  else
    denySchedule item caller
      ("work item " ++ item.1.workItemId ++ " is " ++ item.1.status.value ++ ", not schedulable") now

/-- `WorkItemSchedulerService.schedule_work_item`. -/
def scheduleWorkItem (workItemId : String) (caller : Caller) (now : DateTime) :
    Db SchedulerDecisionResult := do
  let item ← loadWorkItem workItemId
  scheduleFrom item caller now

/-- The result of `schedule_next` when nothing waits. -/
def nothingQueued : SchedulerDecisionResult where
  statusCode := 404
  workItem := none
  selectedClientId := none
  event := none
  decision := { allow := false, denials := ["no queued work items available for scheduling"] }

/-- `WorkItemSchedulerService.schedule_next`. -/
def scheduleNext (runId : Option String) (caller : Caller) (now : DateTime) :
    Db SchedulerDecisionResult := do
  let items ← listWorkItems runId
  match items.filter (fun item => schedulable item.1.status) with
  | [] => pure nothingQueued
  | item :: _ => scheduleWorkItem item.1.workItemId caller now

/-! ## The SDK -/

/-- `LocalControlPlaneClient.receive_next_work`. -/
def receiveNextWork (runId : Option String) (caller : Caller) (now : DateTime) :
    Db SchedulerDecisionResult := scheduleNext runId caller now

/-- `LocalControlPlaneClient.accept_work`. -/
def acceptWork (workItemId : String) (caller : Caller) (now : DateTime) :
    Db WorkItemTransitionResult := start workItemId caller now

/-- `LocalControlPlaneClient.reject_work`. -/
def rejectWork (workItemId : String) (caller : Caller) (reason : Option String) (now : DateTime) :
    Db WorkItemTransitionResult :=
  let summary := "Connector " ++ caller.clientId ++ " rejected work item " ++ workItemId ++ "."
  let given := orDefault reason ""
  requeue workItemId caller
    (some (if given = "" then summary else summary ++ " Reason: " ++ given ++ ".")) now

/-- `LocalControlPlaneClient.block_work`. -/
def blockWork (workItemId : String) (caller : Caller) (reason : String) (now : DateTime) :
    Db WorkItemTransitionResult := block workItemId caller reason now

/-- `LocalControlPlaneClient.complete_work`. -/
def completeWork (workItemId : String) (caller : Caller) (evidenceDigest : Option String)
    (now : DateTime) : Db WorkItemTransitionResult := complete workItemId caller evidenceDigest now

/-- `LocalControlPlaneClient.fail_work`. -/
def failWork (workItemId : String) (caller : Caller) (now : DateTime) :
    Db WorkItemTransitionResult := fail workItemId caller now

end Vad
