/-
  The dashboard that the server returns (`vad/server/app.py`, with the snapshots of
  `vad/server/db/store.py`).

  1. **Snapshot** — the projection of the ledger, of all events or those of one run; without a
     ledger, the stored activity (`controlPlaneDashboardSnapshot`, `dashboardSnapshot`).

  2. **Task board** — rows of tasks and of work items are collected by task, leases are laid over
     them, and each card goes to one of five columns (`taskBoardColumns`).

  3. **Proofs** — the stored records of proofs, and if there are none, what the events say of
     proofs (`proofStatusPayload`).

  The panels of clients, terminals, governance, task states and plugins are left out.
-/
import Vad.Server.Archive
import Vad.ControlPlane.Projection
import Vad.Lib.Text

namespace Vad

open Atomic (Program)
open PyText (Text)

/-! ## Rows -/

/-- A row of the activity or of the task board, with every key that some row has. -/
structure DashboardRow where
  activityId : Option String := none
  eventId : Option String := none
  taskId : Option String := none
  workItemId : Option String := none
  runId : Option String := none
  client : Option String := none
  clientId : Option String := none
  actor : Option String := none
  role : Option String := none
  status : Option String := none
  workItemStatus : Option String := none
  kind : Option String := none
  summary : Option String := none
  description : Option String := none
  priority : Option Int := none
  requestedCapability : Option String := none
  governance : Option WorkItemGovernance := none
  createdAt : Option String := none
  updatedAt : Option String := none
  leaseId : Option String := none
  evidenceDigest : Option String := none
  blockedReason : Option String := none
deriving DecidableEq, Repr

/-- `a or b` of two texts that may be missing. -/
def textOr (a b : Option String) : Option String := if orDefault a "" = "" then b else a

/-- The text of an event's id. -/
def eventText (id : Keyed.RecordId) : String := recordIdText "control-plane-event-" id

def ActivityEntry.row (e : ActivityEntry) : DashboardRow where
  activityId := some (eventText e.activityId)
  eventId := some (eventText e.eventId)
  runId := e.runId
  taskId := e.taskId
  kind := some e.kind
  status := some e.status
  client := some e.client
  clientId := some e.clientId
  actor := some e.actor
  role := some e.role
  summary := some e.summary
  createdAt := some e.createdAt
  evidenceDigest := e.evidenceDigest

def TaskBoardEntry.row (e : TaskBoardEntry) : DashboardRow where
  taskId := some e.taskId
  runId := e.runId
  client := some e.client
  clientId := some e.clientId
  actor := some e.actor
  role := some e.role
  status := some e.status
  kind := some e.kind
  summary := some e.summary
  updatedAt := some e.updatedAt
  eventId := some (eventText e.eventId)

/-- `activity.model_dump(mode="json")`. -/
def DashboardActivity.row (a : DashboardActivity) : DashboardRow where
  activityId := some a.activityId
  runId := some a.runId
  kind := some a.kind
  status := some a.status
  client := some a.client
  actor := some a.actor
  role := some a.role
  summary := some a.summary
  createdAt := some a.createdAt
  taskId := a.taskId
  evidenceDigest := a.evidenceDigest

/-! ## Snapshots -/

/-- An entry of `runs`. -/
structure RunSummary where
  runId : String
  finalDecision : String
  evidenceDigest : String
deriving DecidableEq, Repr

/-- The payload before it is decorated. -/
structure DashboardPayload where
  runs : List RunSummary
  taskBoard : List DashboardRow := []
  activity : List DashboardRow
  eventTimeline : List DashboardRow
deriving DecidableEq, Repr

/-- `payload.get("task_board") or payload.get("activity", [])`. -/
def DashboardPayload.taskRows (p : DashboardPayload) : List DashboardRow :=
  if p.taskBoard = [] then p.activity else p.taskBoard

/-- `payload.get("event_timeline") or payload.get("activity", [])`. -/
def DashboardPayload.timelineRows (p : DashboardPayload) : List DashboardRow :=
  if p.eventTimeline = [] then p.activity else p.eventTimeline

def runSummary (run : Checked RunEvidence × String) : RunSummary :=
  ⟨run.1.1.runId, run.1.1.finalDecision, run.2⟩

/-- The rows of a projection. -/
def DashboardProjection.payload (p : DashboardProjection) (runs : List RunSummary) :
    DashboardPayload where
  runs := runs
  taskBoard := p.taskBoard.map TaskBoardEntry.row
  activity := p.activity.map ActivityEntry.row
  eventTimeline := p.eventTimeline.map ActivityEntry.row

/-- `ServerStore.control_plane_dashboard_snapshot`, and `replay_dashboard_snapshot`. -/
def controlPlaneDashboardSnapshot (computeHash : RunEvidence → String) (runId : Option String)
    (now : DateTime) : Db DashboardPayload := do
  let events ← listControlPlaneEvents runId
  let projection := buildDashboardProjection (events.map Subtype.val) now 120
  let runs ← listRunEvidence computeHash
  let runs := (runs.map runSummary).filter fun run => runId.all fun x => run.runId = x
  pure (projection.payload runs)

/-- `ServerStore.dashboard_snapshot`. -/
def dashboardSnapshot (computeHash : RunEvidence → String) : Db DashboardPayload := do
  let runs ← listRunEvidence computeHash
  let activities ← listDashboardActivity
  let rows := activities.map fun a => a.1.row
  pure {
    runs := runs.map runSummary
    activity := rows
    eventTimeline := rows }

/-- `ServerStore.has_control_plane_events`. -/
def hasControlPlaneEvents : Db Bool :=
  storeCall (query fun s => .ok (!s.controlPlaneEvents.rows.isEmpty))

/-! ## The task board -/

/-- The columns of the board. -/
inductive BoardColumn where
  | active | blocked | passed | failed | needsHuman
deriving DecidableEq, Repr

def BoardColumn.value : BoardColumn → String
  | active => "active"
  | blocked => "blocked"
  | passed => "passed"
  | failed => "failed"
  | needsHuman => "needs_human"

/-- The column of this name. -/
def BoardColumn.named (name : String) : Option BoardColumn :=
  [active, blocked, passed, failed, needsHuman].find? fun column => column.value = name

/-- `_board_status`; every fallback is the name of a column. -/
def boardStatus (status : Option String) (fallback : BoardColumn := .active) : BoardColumn :=
  let normalized := orDefault status fallback.value
  match BoardColumn.named normalized with
  | some column => column
  | none =>
    if normalized = "stale" ∨ normalized = "expired" then .failed
    else if normalized = "released" then .passed
    else fallback

/-- `_lease_board_status`. -/
def leaseBoardStatus (status : String) : BoardColumn :=
  if status = "released" then .passed
  else if status = "expired" then .failed
  else if status = "blocked" then .blocked
  else .active

/-- `_work_item_board_status`. -/
def workItemBoardStatus : WorkItemStatus → BoardColumn
  | .planned | .queued | .assigned | .running | .requeued | .verifying => .active
  | .blocked => .blocked
  | .waitingForHuman => .needsHuman
  | .approved | .completed => .passed
  | .failed | .cancelled => .failed

/-- An entry of `task_leases`. -/
structure LeasePayload where
  taskId : String
  runId : String
  clientId : String
  leaseOwner : String
  actor : String
  role : String
  status : String
  boardStatus : BoardColumn
  acquiredAt : String
  expiresAt : String
  releaseReason : Option String
deriving DecidableEq, Repr

/-- What `_task_leases_payload` makes of a lease. -/
def leasePayload (l : TaskLease) : LeasePayload where
  taskId := l.taskId
  runId := l.runId
  clientId := l.clientId
  leaseOwner := l.clientId
  actor := l.actor
  role := l.role
  status := l.status.value
  boardStatus := leaseBoardStatus l.status.value
  acquiredAt := l.acquiredAt.isoformat
  expiresAt := l.expiresAt.isoformat
  releaseReason := l.releaseReason

/-- What `_work_item_board_rows` makes of a work item. -/
def workItemBoardRow (item : WorkItem) : DashboardRow where
  taskId := some item.workItemId
  workItemId := some item.workItemId
  runId := some item.runId
  client := item.assignedClientId
  clientId := item.assignedClientId
  actor := item.assignedClientId
  role := some item.role
  status := some (workItemBoardStatus item.status).value
  workItemStatus := some item.status.value
  kind := some "work_item"
  summary := some item.title
  description := some item.description
  priority := some item.priority
  requestedCapability := item.requestedCapability
  governance := item.governance
  updatedAt := some item.updatedAt.isoformat
  leaseId := item.leaseId
  evidenceDigest := item.evidenceDigest
  blockedReason := item.blockedReason

/-- A card of the board. -/
structure BoardCard where
  taskId : String
  runId : Option String
  client : Option String
  clientId : Option String
  actor : Option String
  role : Option String
  status : Option String
  workItemId : Option String := none
  workItemStatus : Option String := none
  kind : Option String
  summary : Option String
  description : Option String := none
  priority : Option Int := none
  requestedCapability : Option String := none
  governance : Option WorkItemGovernance := none
  updatedAt : Option String
  eventId : Option String := none
  leaseId : Option String := none
  evidenceDigest : Option String := none
  blockedReason : Option String := none
  leaseOwner : Option String := none
  leaseStatus : Option String := none
  leaseExpiresAt : Option String := none
  leaseActor : Option String := none
  leaseRole : Option String := none
  releaseReason : Option String := none
deriving DecidableEq, Repr

/-- `row.get("task_id") or row.get("activity_id")`, or the empty text. -/
def DashboardRow.key (row : DashboardRow) : String := orDefault (textOr row.taskId row.activityId) ""

/-- The card of a row. -/
def DashboardRow.card (row : DashboardRow) : BoardCard where
  taskId := row.key
  runId := row.runId
  client := textOr row.client row.clientId
  clientId := row.clientId
  actor := row.actor
  role := row.role
  status := some (row.status.getD "active")
  workItemId := row.workItemId
  workItemStatus := row.workItemStatus
  kind := row.kind
  summary := some (row.summary.getD "")
  description := row.description
  priority := row.priority
  requestedCapability := row.requestedCapability
  governance := row.governance
  updatedAt := textOr row.updatedAt row.createdAt
  eventId := textOr row.eventId row.activityId
  leaseId := row.leaseId
  evidenceDigest := row.evidenceDigest
  blockedReason := row.blockedReason

/-- The card of a lease whose task has no row. -/
def LeasePayload.card (lease : LeasePayload) : BoardCard where
  taskId := lease.taskId
  runId := some lease.runId
  client := some lease.clientId
  clientId := some lease.clientId
  actor := some lease.actor
  role := some lease.role
  status := some lease.boardStatus.value
  kind := some "task_lease"
  summary := some ("Task lease held by " ++ lease.leaseOwner ++ ".")
  updatedAt := some lease.acquiredAt

/-- `row.update({..})` with a lease, and the status with the lease's as fallback. -/
def BoardCard.withLease (card : BoardCard) (lease : LeasePayload) : BoardCard :=
  { card with
    leaseOwner := some lease.leaseOwner
    leaseStatus := some lease.status
    leaseExpiresAt := some lease.expiresAt
    leaseActor := some lease.actor
    leaseRole := some lease.role
    releaseReason := lease.releaseReason
    status := some (boardStatus card.status lease.boardStatus).value }

/-- One turn of the loop over the rows. -/
def addRow (cards : Dict BoardCard) (row : DashboardRow) : Dict BoardCard :=
  if row.key = "" then cards else Dict.set cards row.key row.card

/-- One turn of the loop over the leases: `setdefault`, and the lease laid over the card. -/
def addLease (cards : Dict BoardCard) (lease : String × LeasePayload) : Dict BoardCard :=
  Dict.set cards lease.1 (((Dict.get cards lease.1).getD lease.2.card).withLease lease.2)

/-- The lease that a card names by `lease_id`, laid over it. -/
def heldBy (leases : Dict LeasePayload) (card : BoardCard) : BoardCard :=
  match card.leaseId with
  | none => card
  | some id =>
    if id = "" then card
    else
      match Dict.get leases id with
      | none => card
      | some lease => card.withLease lease

/-- The order of the cards in a column. -/
def cardOrder (a b : BoardCard) : Bool :=
  orderedBy [compare (orDefault a.runId "") (orDefault b.runId ""), compare a.taskId b.taskId]

/-- The cards before they are put into columns. -/
def boardCards (leases : List LeasePayload) (rows : List DashboardRow) : List BoardCard :=
  let leasesByTask := Dict.ofValues LeasePayload.taskId leases
  let cards := leasesByTask.foldl addLease (rows.foldl addRow [])
  cards.map fun e => heldBy leasesByTask e.2

/-- `_task_board_columns_payload`, for the leases that it lists. -/
def taskBoardColumns (leases : List LeasePayload) (rows : List DashboardRow)
    (column : BoardColumn) : List BoardCard :=
  ((boardCards leases rows).filter fun card => boardStatus card.status = column).insertionSort
    (fun a b => cardOrder a b = true)

/-- `_task_leases_payload`. -/
def taskLeasesPayload : Db (List LeasePayload) := do
  pure ((← listTaskLeases).map fun l => leasePayload l.1)

/-- `_work_item_board_rows`. -/
def workItemBoardRows : Db (List DashboardRow) := do
  pure ((← listWorkItems).map fun item => workItemBoardRow item.1)

/-! ## Redaction of logs -/

/-- A character that a small letter of a pattern stands for, case ignored. -/
def sameLetter (letter c : Char) : Bool :=
  c = letter || c = letter.toUpper || (letter = 'k' && c.toNat = 0x212a) ||
    (letter = 's' && c.toNat = 0x17f) || (letter = 'i' && (c.toNat = 0x130 || c.toNat = 0x131))

/-- The word at the front of the text, and the rest. -/
def takeWord : Text → Text → Option (Text × Text)
  | [], t => some ([], t)
  | _ :: _, [] => none
  | letter :: word, c :: t =>
    if sameLetter letter c then (takeWord word t).map fun (taken, rest) => (c :: taken, rest) else none

/-- `first[_-]?second` at the front of the text. -/
def takeWords (first second : Text) (t : Text) : Option (Text × Text) := do
  let (taken, rest) ← takeWord first t
  let separator := rest.take 1 |>.filter fun c => c = '_' || c = '-'
  let (more, rest) ← takeWord second (rest.drop separator.length)
  pure (taken ++ separator ++ more, rest)

/-- `api[_-]?key|token|password|secret|private[_-]?key` at the front of the text. -/
def takeSecretName (t : Text) : Option (Text × Text) :=
  takeWords "api".toList "key".toList t <|> takeWord "token".toList t <|>
    takeWord "password".toList t <|> takeWord "secret".toList t <|>
    takeWords "private".toList "key".toList t

/-- A character of `[^,\s;]`. -/
def valueChar (c : Char) : Bool := !(c = ',' || c = ';' || PyText.isSpace c)

/-- The first pattern at the front of the text: what replaces it, and the rest. -/
def takeAssignment (t : Text) : Option (Text × Text) := do
  let (name, rest) ← takeSecretName t
  match rest.dropWhile PyText.isSpace with
  | [] => none
  | c :: rest =>
    if c = ':' || c = '=' then
      let value := rest.dropWhile PyText.isSpace
      if (value.takeWhile valueChar).isEmpty then none
      else some (name ++ "=[REDACTED]".toList, value.dropWhile valueChar)
    else none

/-- The second pattern, `sk-[A-Za-z0-9_-]+`. -/
def takeKey (t : Text) : Option (Text × Text) :=
  match t with
  | 's' :: 'k' :: '-' :: rest =>
    let keyChar (c : Char) : Bool := c.isAlphanum || c = '_' || c = '-'
    if (rest.takeWhile keyChar).isEmpty then none
    else some ("secret=[REDACTED]".toList, rest.dropWhile keyChar)
  | _ => none

/-- `re.sub`: every match from the left is replaced; each takes a character at least, so that the
    length of the text bounds the turns. -/
def subMatches (matchAt : Text → Option (Text × Text)) : Nat → Text → Text
  | 0, t => t
  | _ + 1, [] => []
  | n + 1, c :: t =>
    match matchAt (c :: t) with
    | some (replacement, rest) => replacement ++ subMatches matchAt n rest
    | none => c :: subMatches matchAt n t

/-- `_redact_log_text`. -/
def redactLogText (text : String) : String :=
  let redacted := subMatches takeAssignment text.toList.length text.toList
  String.ofList (subMatches takeKey redacted.length redacted)

/-! ## Proofs -/

/-- A row of `proof_status`; only a stored record has an id and a time of its own. -/
structure ProofStatus where
  recordId : Option String := none
  taskId : Option String
  runId : Option String
  client : Option String
  clientId : Option String
  actor : Option String
  role : Option String
  status : String := "active"
  startedAt : Option String := none
  finishedAt : Option String := none
  summary : String := ""
  createdAt : Option String := none
  evidenceDigest : Option String
  recoveryEventId : Option String := none
  recoveryEvidenceUrl : Option String := none
deriving DecidableEq, Repr

/-- `event.get("task_id") or event.get("event_id")`. -/
def DashboardRow.proofKey (event : DashboardRow) : Option String := textOr event.taskId event.eventId

/-- `event.get("created_at") or event.get("updated_at")`. -/
def DashboardRow.time (event : DashboardRow) : Option String := textOr event.createdAt event.updatedAt

/-- Is it a `proof_started` or a `proof_finished`? -/
def DashboardRow.isProof (event : DashboardRow) : Bool :=
  event.kind = some "proof_started" || event.kind = some "proof_finished"

/-- `recovery_by_task.get(key)` after the first loop: the last recovery with that key. -/
def recoveryOf (events : List DashboardRow) (event : DashboardRow) : Option DashboardRow :=
  (events.filter fun e => e.kind = some "recovery_action" && e.runId = event.runId &&
    e.taskId = event.taskId).getLast?

/-- The row that `setdefault` puts. -/
def newProof (event : DashboardRow) : ProofStatus where
  taskId := event.proofKey
  runId := event.runId
  client := textOr event.client event.clientId
  clientId := event.clientId
  actor := event.actor
  role := event.role
  evidenceDigest := event.evidenceDigest

/-- `proof.update({..})`. -/
def ProofStatus.updated (proof : ProofStatus) (event : DashboardRow) : ProofStatus :=
  { proof with
    runId := event.runId
    client := textOr event.client event.clientId
    clientId := event.clientId
    actor := event.actor
    role := event.role
    summary := redactLogText (event.summary.getD "")
    evidenceDigest := textOr event.evidenceDigest proof.evidenceDigest }

/-- `f"/runs/{event.get('run_id')}/evidence"`, if there is a run. -/
def evidenceUrl (event : DashboardRow) : Option String :=
  match event.runId with
  | none => none
  | some run => if run = "" then none else some ("/runs/" ++ run ++ "/evidence")

/-- The rest of a turn: what the kind of the event says. -/
def ProofStatus.noted (events : List DashboardRow) (proof : ProofStatus) (event : DashboardRow) :
    ProofStatus :=
  if event.kind = some "proof_started" then
    { proof with
      startedAt := event.time
      status := "active" }
  else if event.status = some "failed" then
    { proof with
      finishedAt := event.time
      status := "failed"
      recoveryEventId := (recoveryOf events event).bind DashboardRow.eventId
      recoveryEvidenceUrl := evidenceUrl event }
  else
    { proof with
      finishedAt := event.time
      status := event.status.getD "failed" }

/-- `proofs`: the rows by their keys, of which one may be `None`. -/
structure ProofRows where
  unnamed : Option ProofStatus := none
  named : Dict ProofStatus := []

def ProofRows.get (rows : ProofRows) : Option String → Option ProofStatus
  | none => rows.unnamed
  | some key => Dict.get rows.named key

def ProofRows.set (rows : ProofRows) (proof : ProofStatus) : Option String → ProofRows
  | none => { rows with unnamed := some proof }
  | some key => { rows with named := Dict.set rows.named key proof }

/-- One turn of the loop over the events of proofs. -/
def addProof (events : List DashboardRow) (rows : ProofRows) (event : DashboardRow) : ProofRows :=
  let proof := (rows.get event.proofKey).getD (newProof event)
  rows.set ((proof.updated event).noted events event) event.proofKey

/-- `[proofs[key] for key in sorted(proofs)]`: `None` and texts have no order. -/
def ProofRows.sorted (rows : ProofRows) : Except PyError (List ProofStatus) :=
  match rows.unnamed, rows.named with
  | none, named => .ok ((sortedItems named).map Prod.snd)
  | some proof, [] => .ok [proof]
  | some _, _ :: _ => .error .typeError

/-- `_proof_status_payload`. -/
def proofStatusPayload (events : List DashboardRow) : Except PyError (List ProofStatus) :=
  ((events.filter DashboardRow.isProof).foldl (addProof events) {}).sorted

/-- What `_structured_proof_status_payload` makes of a record. -/
def structuredProof (r : ProofStreamRecord) : ProofStatus where
  recordId := some r.recordId
  taskId := some r.taskId
  runId := some r.runId
  client := some r.client
  clientId := r.clientId
  actor := some r.actor
  role := some r.role
  status := r.status
  startedAt := r.startedAt
  finishedAt := r.finishedAt
  summary := redactLogText r.summary
  createdAt := some r.createdAt
  evidenceDigest := r.evidenceDigest
  recoveryEventId := r.recoveryEventId
  recoveryEvidenceUrl := r.recoveryEvidenceUrl

/-- `structured_proofs or self._proof_status_payload(..)`. -/
def proofPanel (structured : List ProofStatus) (events : List DashboardRow) :
    Except PyError (List ProofStatus) :=
  if structured = [] then proofStatusPayload events else .ok structured

/-! ## The response -/

/-- The payload with the panels that decoration adds. -/
structure Dashboard where
  payload : DashboardPayload
  taskLeases : List LeasePayload
  taskBoardColumns : BoardColumn → List BoardCard
  proofStatus : List ProofStatus

/-- `_decorate_dashboard_payload`. -/
def decorateDashboardPayload (payload : DashboardPayload) : Db Dashboard := do
  let taskLeases ← taskLeasesPayload
  let workItemRows ← workItemBoardRows
  let columnLeases ← taskLeasesPayload
  let records ← listProofStreamRecords
  let structured := records.map fun r => structuredProof r.1
  let proofStatus ← Program.done (proofPanel structured payload.timelineRows)
  pure {
    payload := payload
    taskLeases := taskLeases
    taskBoardColumns := taskBoardColumns columnLeases (payload.taskRows ++ workItemRows)
    proofStatus := proofStatus }

/-- The payload of `_dashboard_response`. -/
def dashboardPayload (computeHash : RunEvidence → String) (now : DateTime) : Db DashboardPayload := do
  let hasEvents ← hasControlPlaneEvents
  if hasEvents then controlPlaneDashboardSnapshot computeHash none now
  else dashboardSnapshot computeHash

/-- `_dashboard_response`. -/
def dashboardResponse (computeHash : RunEvidence → String) (now : DateTime) : Db Dashboard := do
  let payload ← dashboardPayload computeHash now
  decorateDashboardPayload payload

/-- `_dashboard_replay_response`. -/
def dashboardReplayResponse (computeHash : RunEvidence → String) (runId : Option String)
    (now : DateTime) : Db Dashboard := do
  let payload ← controlPlaneDashboardSnapshot computeHash runId now
  decorateDashboardPayload payload

end Vad
