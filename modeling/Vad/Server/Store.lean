/-
  The server store (`vad/server/db/store.py`): the SQLite tables and the `ServerStore` methods.

  A row keeps the columns that some query filters or orders by, or that a foreign key constrains,
  next to the JSON payload; the payload is what `model_dump` gave and is validated again by the
  constructor on every load, so a load can fail on what a save accepted.  Columns and payload are
  written together and only there: nothing keeps them equal afterwards (`ON DELETE SET NULL` clears
  two columns of a work item and leaves its payload alone).

  Each `ServerStore` method is one atomic call (`storeCall`) of the program that executes its SQL
  statements; programs of the services are made of these calls.  Foreign keys are enforced, as
  `PRAGMA foreign_keys = ON` on every connection says.

  `Store.written` is a history variable: the models that the writing methods were given, newest
  first.  No method reads it; it is there to say what was last saved under a key.
-/
import Vad.Lib.Program
import Vad.Lib.Table
import Vad.ControlPlane.Events
import Vad.ControlPlane.WorkItems
import Vad.ControlPlane.Leases
import Vad.ControlPlane.Clients
import Vad.ControlPlane.Approvals
import Vad.ControlPlane.Streams
import Vad.Repo.DiffProposal

namespace Vad

open Keyed (Table Minted RecordId)
open Atomic (Program)

/-! ## Tables -/

structure ManifestRow where
  clientId : String
  displayName : String
  payload : ClientManifest

structure HeartbeatRow where
  clientId : String
  status : ClientRuntimeStatus
  lastHeartbeatAt : Option DateTime
  lastRunId : Option String
  lastTaskId : Option String
  lostTaskLeases : List String

structure LeaseRow where
  taskId : String
  runId : String
  clientId : String
  status : TaskLeaseStatus
  payload : TaskLease
deriving DecidableEq

structure WorkItemRow where
  workItemId : String
  runId : String
  status : WorkItemStatus
  priority : Int
  createdAt : String
  assignedClientId : Option String
  leaseId : Option String
  payload : WorkItem
deriving DecidableEq

structure RunTaskStateRow where
  runId : String
  taskId : String
  payload : RunTaskState
deriving DecidableEq

/-- The primary key of `run_task_states`. -/
def RunTaskStateRow.key (r : RunTaskStateRow) : String × String := (r.runId, r.taskId)

structure EventRow where
  eventId : RecordId
  sequence : Nat
  createdAt : String
  clientId : String
  runId : Option String
  payload : ControlPlaneEvent
deriving DecidableEq

structure DiffProposalRow where
  proposalId : RecordId
  runId : String
  taskId : String
  status : String
  createdAt : String
  payload : DiffProposal
deriving DecidableEq

structure RunEvidenceRow where
  runId : String
  evidenceDigest : String
  createdAt : String
  payload : RunEvidence

structure ApprovalRow where
  approvalId : RecordId
  runId : String
  createdAt : String
  payload : ApprovalEvent

structure DiffApplyRow where
  recordId : String
  proposalId : RecordId
  createdAt : String
  payload : DiffApplyRecord

structure OperatorIntentRow where
  intentRef : String
  createdAt : String
  payload : OperatorIntentRecord

/-- A row of one of the three tables that the dashboard streams. -/
structure StreamRow (α : Type) where
  recordId : String
  runId : String
  createdAt : String
  payload : α

/-- A table of such rows. -/
abbrev StreamTable (α : Type) : Type := Table (StreamRow.recordId : StreamRow α → String)

/-- What a writing method was given. -/
inductive Written where
  | manifest (m : ClientManifest)
  | lease (l : TaskLease)
  | workItem (item : WorkItem)
  | runTaskState (st : RunTaskState)
  | event (e : ControlPlaneEvent)
  | proposal (p : DiffProposal)

/-- The database. -/
structure Store where
  clientManifests : Table ManifestRow.clientId
  clientHeartbeats : Table HeartbeatRow.clientId
  taskLeases : Table LeaseRow.taskId
  workItems : Table WorkItemRow.workItemId
  runTaskStates : Table RunTaskStateRow.key
  controlPlaneEvents : Minted EventRow.eventId
  diffProposals : Minted DiffProposalRow.proposalId
  runEvidence : Table RunEvidenceRow.runId
  approvalEvents : Minted ApprovalRow.approvalId
  diffApplyRecords : Table DiffApplyRow.recordId
  operatorIntentRecords : Table OperatorIntentRow.intentRef
  dashboardActivity : StreamTable DashboardActivity
  proofStreamRecords : StreamTable ProofStreamRecord
  terminalStreamRecords : StreamTable TerminalStreamRecord
  written : List Written

/-- The store after `migrate` on a new file. -/
def Store.empty : Store where
  clientManifests := Table.empty
  clientHeartbeats := Table.empty
  taskLeases := Table.empty
  workItems := Table.empty
  runTaskStates := Table.empty
  controlPlaneEvents := Minted.empty
  diffProposals := Minted.empty
  runEvidence := Table.empty
  approvalEvents := Minted.empty
  diffApplyRecords := Table.empty
  operatorIntentRecords := Table.empty
  dashboardActivity := Table.empty
  proofStreamRecords := Table.empty
  terminalStreamRecords := Table.empty
  written := []

/-- Code that uses the store. -/
abbrev Db (α : Type) : Type := Program Store PyError α

/-- One `ServerStore` method: its statements, with no other thread in between. -/
def storeCall {α : Type} (p : Db α) : Db α := Program.atomic p.run

@[simp] theorem run_storeCall {α : Type} (p : Db α) (s : Store) :
    (storeCall p).run s = p.run s := rfl

/-- A query. -/
def query {α : Type} (f : Store → Except PyError α) : Db α := Program.atomic fun s => (f s, s)

@[simp] theorem run_query {α : Type} (f : Store → Except PyError α) (s : Store) :
    (query f).run s = (f s, s) := rfl

/-- A statement that changes the store, or is refused and changes nothing. -/
def execute (f : Store → Except PyError Store) : Db Unit :=
  Program.atomic fun s =>
    match f s with
    | .ok s' => (.ok (), s')
    | .error e => (.error e, s)

theorem run_execute (f : Store → Except PyError Store) (s : Store) :
    (execute f).run s = match f s with
      | .ok s' => (.ok (), s')
      | .error e => (.error e, s) := rfl

/-- `fetchone()` and the constructor: `KeyError` when there is no row. -/
def fetched {α ρ : Type} [Model α] (key : String) (payload : ρ → α) (row : Option ρ) :
    Except PyError (Checked α) :=
  match row with
  | some r => Model.build (payload r)
  | none => .error (.keyError key)

/-- `[Cls(**json.loads(row["payload_json"])) for row in rows]`. -/
def fetchedAll {α ρ : Type} [Model α] (payload : ρ → α) :
    List ρ → Except PyError (List (Checked α))
  | [] => .ok []
  | r :: rows =>
    match Model.build (payload r) with
    | .error e => .error e
    | .ok a =>
      match fetchedAll payload rows with
      | .error e => .error e
      | .ok as => .ok (a :: as)

/-! ## Clients -/

def manifestRow (m : ClientManifest) : ManifestRow := ⟨m.clientId, m.displayName, m⟩

/-- `ServerStore.register_client_manifest`. -/
def registerClientManifest (m : Checked ClientManifest) : Db (Checked ClientManifest) :=
  storeCall do
    execute fun s =>
      match s.clientManifests.insert (manifestRow m.1) with
      | some t => .ok { s with clientManifests := t, written := .manifest m.1 :: s.written }
      | none => .error .integrityError
    pure m

/-- `SELECT payload_json FROM client_manifests WHERE client_id = ?`, built. -/
def selectClientManifest (clientId : String) : Db (Checked ClientManifest) :=
  query fun s => fetched clientId ManifestRow.payload (s.clientManifests.find? clientId)

/-- `ServerStore.load_client_manifest`. -/
def loadClientManifest (clientId : String) : Db (Checked ClientManifest) :=
  storeCall (selectClientManifest clientId)

def manifestOrder (a b : ManifestRow) : Bool :=
  orderedBy [compare a.displayName b.displayName, compare a.clientId b.clientId]

/-- `ServerStore.list_client_manifests`. -/
def listClientManifests : Db (List (Checked ClientManifest)) :=
  storeCall (query fun s =>
    fetchedAll ManifestRow.payload (s.clientManifests.select (fun _ => true) manifestOrder))

/-- A row goes with the client it references: `ON DELETE CASCADE`, and `ON DELETE SET NULL` for
    the two references of a work item. -/
def deleteManifest (clientId : String) (s : Store) : Store :=
  { s with
    clientManifests := s.clientManifests.keep (fun r => r.clientId ≠ clientId)
    clientHeartbeats := s.clientHeartbeats.keep (fun r => r.clientId ≠ clientId)
    taskLeases := s.taskLeases.keep (fun r => r.clientId ≠ clientId)
    workItems := s.workItems.mapRows (fun r =>
      { r with
        assignedClientId := if r.assignedClientId = some clientId then none else r.assignedClientId
        leaseId := r.leaseId.filter (fun l =>
          !(s.taskLeases.find? l).any (fun row => row.clientId = clientId)) }) (fun _ => rfl) }

/-- `ServerStore.unregister_client_manifest`. -/
def unregisterClientManifest (clientId : String) : Db (Checked ClientManifest) :=
  storeCall do
    let manifest ← selectClientManifest clientId
    execute fun s => .ok (deleteManifest clientId s)
    pure manifest

/-- `ServerStore.record_client_heartbeat`; the lost leases of an earlier row stay. -/
def recordClientHeartbeat (h : Checked ClientHeartbeat) : Db (Checked ClientHeartbeat) :=
  storeCall do
    let _ ← selectClientManifest h.1.clientId
    execute fun s =>
      let lost := match s.clientHeartbeats.find? h.1.clientId with
        | some row => row.lostTaskLeases
        | none => []
      .ok { s with clientHeartbeats := s.clientHeartbeats.upsert {
        clientId := h.1.clientId
        status := h.1.status
        lastHeartbeatAt := some h.1.observedAt
        lastRunId := h.1.runId
        lastTaskId := h.1.taskId
        lostTaskLeases := lost } }
    pure h

/-- The snapshot of a manifest joined with its heartbeat row. -/
def snapshotOf (m : Checked ClientManifest) (row : Option HeartbeatRow) : ClientStatusSnapshot :=
  match row with
  | some h => {
      manifest := m
      status := h.status
      lastHeartbeatAt := h.lastHeartbeatAt
      lastRunId := h.lastRunId
      lastTaskId := h.lastTaskId
      lostTaskLeases := h.lostTaskLeases }
  | none => { manifest := m }

/-- The manifests in order, each `LEFT JOIN`ed with its heartbeat. -/
def joinedSnapshots (s : Store) : List ManifestRow → Except PyError (List ClientStatusSnapshot)
  | [] => .ok []
  | r :: rows =>
    match Model.build r.payload with
    | .error e => .error e
    | .ok m =>
      match joinedSnapshots s rows with
      | .error e => .error e
      | .ok rest => .ok (snapshotOf m (s.clientHeartbeats.find? r.clientId) :: rest)

/-- `ServerStore.list_client_statuses`. -/
def listClientStatuses : Db (List ClientStatusSnapshot) :=
  storeCall (query fun s =>
    joinedSnapshots s (s.clientManifests.select (fun _ => true) manifestOrder))

/-! ## Task leases -/

def leaseRow (l : TaskLease) : LeaseRow := ⟨l.taskId, l.runId, l.clientId, l.status, l⟩

/-- The statements of `ServerStore.save_task_lease`. -/
def upsertTaskLease (l : TaskLease) : Db TaskLease := do
  let _ ← selectClientManifest l.clientId
  execute fun s => .ok { s with
    taskLeases := s.taskLeases.upsert (leaseRow l)
    written := .lease l :: s.written }
  pure l

/-- `ServerStore.save_task_lease`. -/
def saveTaskLease (l : TaskLease) : Db TaskLease := storeCall (upsertTaskLease l)

/-- `ServerStore.load_task_lease`. -/
def loadTaskLease (taskId : String) : Db (Checked TaskLease) :=
  storeCall (query fun s => fetched taskId LeaseRow.payload (s.taskLeases.find? taskId))

def leaseOrder (a b : LeaseRow) : Bool :=
  orderedBy [compare a.runId b.runId, compare a.taskId b.taskId]

/-- The `WHERE` clause of `list_task_leases`, over the columns. -/
def leaseMatches (clientId : Option String) (status : Option TaskLeaseStatus) (r : LeaseRow) :
    Bool :=
  clientId.all (fun c => r.clientId = c) && status.all (fun st => r.status = st)

def selectTaskLeases (clientId : Option String) (status : Option TaskLeaseStatus) :
    Db (List (Checked TaskLease)) :=
  query fun s =>
    fetchedAll LeaseRow.payload (s.taskLeases.select (leaseMatches clientId status) leaseOrder)

/-- `ServerStore.list_task_leases`. -/
def listTaskLeases (clientId : Option String := none) (status : Option TaskLeaseStatus := none) :
    Db (List (Checked TaskLease)) := storeCall (selectTaskLeases clientId status)

/-- The statements of `ServerStore.expire_task_leases_for_client`. -/
def expireLeasesOf (clientId : String) : Db (List TaskLease) := do
  let leases ← selectTaskLeases (some clientId) (some .active)
  Program.forEach leases (fun l => upsertTaskLease (l.1.expiredWith "client marked stale"))

/-- `ServerStore.mark_client_stale`, for a caller that names no lost leases. -/
def markClientStale (clientId : String) : Db ClientStatusSnapshot :=
  storeCall do
    let manifest ← selectClientManifest clientId
    let expired ← expireLeasesOf clientId
    let released := expired.map TaskLease.taskId
    let row ← query fun s => .ok (s.clientHeartbeats.find? clientId)
    execute fun s => .ok { s with clientHeartbeats := s.clientHeartbeats.upsert {
      clientId := clientId
      status := .stale
      lastHeartbeatAt := row.bind HeartbeatRow.lastHeartbeatAt
      lastRunId := row.bind HeartbeatRow.lastRunId
      lastTaskId := row.bind HeartbeatRow.lastTaskId
      lostTaskLeases := released } }
    pure {
      manifest := manifest
      status := .stale
      lastHeartbeatAt := row.bind HeartbeatRow.lastHeartbeatAt
      lastRunId := row.bind HeartbeatRow.lastRunId
      lastTaskId := row.bind HeartbeatRow.lastTaskId
      lostTaskLeases := released }

/-! ## Work items and run-task states -/

def workItemRow (item : WorkItem) : WorkItemRow where
  workItemId := item.workItemId
  runId := item.runId
  status := item.status
  priority := item.priority
  createdAt := item.createdAt.isoformat
  assignedClientId := item.assignedClientId
  leaseId := item.leaseId
  payload := item

/-- The foreign keys of `work_items`: a named client is registered, a named lease is stored. -/
def referencesHold (s : Store) (item : WorkItem) : Bool :=
  item.assignedClientId.all s.clientManifests.has && item.leaseId.all s.taskLeases.has

def runTaskStateRow (st : RunTaskState) : RunTaskStateRow := ⟨st.runId, st.taskId, st⟩

/-- The statement of `ServerStore.upsert_run_task_state`. -/
def upsertStateRow (st : Checked RunTaskState) : Db Unit :=
  execute fun s => .ok { s with
    runTaskStates := s.runTaskStates.upsert (runTaskStateRow st.1)
    written := .runTaskState st.1 :: s.written }

/-- `ServerStore.upsert_run_task_state`. -/
def upsertRunTaskState (st : Checked RunTaskState) : Db Unit := storeCall (upsertStateRow st)

/-- `ServerStore.save_work_item`. -/
def saveWorkItem (item : Checked WorkItem) : Db (Checked WorkItem) :=
  storeCall do
    execute fun s =>
      if referencesHold s item.1 then
        match s.workItems.insert (workItemRow item.1) with
        | some t => .ok { s with workItems := t, written := .workItem item.1 :: s.written }
        | none => .error .integrityError
      else .error .integrityError
    upsertStateRow (RunTaskState.fromWorkItem item)
    pure item

def selectWorkItem (workItemId : String) : Db (Checked WorkItem) :=
  query fun s => fetched workItemId WorkItemRow.payload (s.workItems.find? workItemId)

/-- `ServerStore.load_work_item`. -/
def loadWorkItem (workItemId : String) : Db (Checked WorkItem) :=
  storeCall (selectWorkItem workItemId)

/-- `ServerStore.update_work_item`. -/
def storeWorkItem (item : Checked WorkItem) : Db (Checked WorkItem) :=
  storeCall do
    let _ ← selectWorkItem item.1.workItemId
    execute fun s =>
      if referencesHold s item.1 then
        .ok { s with
          workItems := s.workItems.replace (workItemRow item.1)
          written := .workItem item.1 :: s.written }
      else .error .integrityError
    upsertStateRow (RunTaskState.fromWorkItem item)
    pure item

def workItemOrder (a b : WorkItemRow) : Bool :=
  orderedBy [compare a.priority b.priority, compare a.createdAt b.createdAt,
    compare a.workItemId b.workItemId]

/-- The `WHERE` clause of `list_work_items`, over the columns. -/
def workItemMatches (runId : Option String) (status : Option WorkItemStatus)
    (assignedClientId : Option String) (r : WorkItemRow) : Bool :=
  runId.all (fun x => r.runId = x) && status.all (fun x => r.status = x) &&
    assignedClientId.all (fun x => r.assignedClientId = some x)

/-- `ServerStore.list_work_items`. -/
def listWorkItems (runId : Option String := none) (status : Option WorkItemStatus := none)
    (assignedClientId : Option String := none) : Db (List (Checked WorkItem)) :=
  storeCall (query fun s =>
    fetchedAll WorkItemRow.payload
      (s.workItems.select (workItemMatches runId status assignedClientId) workItemOrder))

/-- `ServerStore.load_run_task_state`. -/
def loadRunTaskState (runId taskId : String) : Db (Checked RunTaskState) :=
  storeCall (query fun s =>
    fetched taskId RunTaskStateRow.payload (s.runTaskStates.find? (runId, taskId)))

def runTaskStateOrder (a b : RunTaskStateRow) : Bool :=
  orderedBy [compare a.runId b.runId, compare a.taskId b.taskId]

/-- `ServerStore.list_run_task_states`. -/
def listRunTaskStates (runId : Option String := none) : Db (List (Checked RunTaskState)) :=
  storeCall (query fun s =>
    fetchedAll RunTaskStateRow.payload
      (s.runTaskStates.select (fun r => runId.all (fun x => r.runId = x)) runTaskStateOrder))

/-! ## The event ledger -/

def eventRow (e : ControlPlaneEvent) : EventRow where
  eventId := e.eventId
  sequence := e.sequence
  createdAt := e.createdAt.isoformat
  clientId := e.clientId
  runId := e.runId
  payload := e

def eventOrder (a b : EventRow) : Bool :=
  orderedBy [compare a.sequence b.sequence, compare a.createdAt b.createdAt,
    compare (recordIdText "control-plane-event-" a.eventId)
      (recordIdText "control-plane-event-" b.eventId)]

/-- `ServerStore.list_control_plane_events`. -/
def listControlPlaneEvents (runId clientId : Option String := none) :
    Db (List (Checked ControlPlaneEvent)) :=
  storeCall (query fun s =>
    fetchedAll EventRow.payload
      (s.controlPlaneEvents.table.select
        (fun r => runId.all (fun x => r.runId = some x) && clientId.all (fun x => r.clientId = x))
        eventOrder))

theorem eventRow_eventId (e : EventFields) (k : RecordId) : (eventRow ⟨e, k⟩).eventId = k := rfl

/-- `ServerStore.append_control_plane_event` for an event whose id a uuid just named. -/
def appendGeneratedEvent (e : EventFields) (h : e.ok = true) : Db (Checked ControlPlaneEvent) :=
  Program.atomic fun s =>
    let id := RecordId.generated s.controlPlaneEvents.drawn
    (.ok ⟨⟨e, id⟩, (valid_generated_iff e _).mpr h⟩,
      { s with
        controlPlaneEvents := s.controlPlaneEvents.append (fun k => eventRow ⟨e, k⟩) (eventRow_eventId e)
        written := .event ⟨e, id⟩ :: s.written })

/-- `ServerStore.append_control_plane_event` for an event that its sender named and numbered:
    SQLite refuses an id that is taken, and its driver a number of more than 64 bits. -/
def appendControlPlaneEvent (e : Checked ControlPlaneEvent) : Db (Checked ControlPlaneEvent) :=
  storeCall do
    execute fun s =>
      if e.1.sequence < 2 ^ 63 then
        match s.controlPlaneEvents.insert (eventRow e.1) with
        | some t => .ok { s with controlPlaneEvents := t, written := .event e.1 :: s.written }
        | none => .error .integrityError
      else .error .overflowError
    pure e

/-- The three steps by which every service records an event: the sequence number is one more than
    the number of events listed, the envelope is validated, and the event is appended. -/
def appendEvent (fields : Nat → EventFields) : Db (Checked ControlPlaneEvent) := do
  let events ← listControlPlaneEvents
  let e := fields (events.length + 1)
  if h : e.ok = true then appendGeneratedEvent e h
  else Program.raise (.validationError "ControlPlaneEvent" (failedFields e.checks))

/-! ## Diff proposals -/

def diffProposalRow (status : String) (p : DiffProposal) : DiffProposalRow where
  proposalId := p.proposalId
  runId := p.runId
  taskId := p.taskId
  status := status
  createdAt := p.createdAt
  payload := p

/-- `ServerStore.save_diff_proposal`, for a proposal whose id a uuid just named: its conflict
    clause never applies. -/
def saveDiffProposal (p : RecordId → DiffProposal) (hid : ∀ k, (p k).proposalId = k) :
    Db DiffProposal :=
  Program.atomic fun s =>
    let proposal := p (.generated s.diffProposals.drawn)
    (.ok proposal,
      { s with
        diffProposals := s.diffProposals.append (fun k => diffProposalRow "proposed" (p k)) hid
        written := .proposal proposal :: s.written })

/-- `ServerStore.load_diff_proposal`. -/
def loadDiffProposal (proposalId : RecordId) : Db (Checked DiffProposal) :=
  storeCall (query fun s =>
    fetched (recordIdText "diff-proposal-" proposalId) DiffProposalRow.payload
      (s.diffProposals.table.find? proposalId))

def diffProposalOrder (a b : DiffProposalRow) : Bool :=
  orderedBy [compare a.createdAt b.createdAt,
    compare (recordIdText "diff-proposal-" a.proposalId)
      (recordIdText "diff-proposal-" b.proposalId)]

/-- `ServerStore.list_diff_proposals`. -/
def listDiffProposals (runId taskId : Option String := none) : Db (List (Checked DiffProposal)) :=
  storeCall (query fun s =>
    fetchedAll DiffProposalRow.payload
      (s.diffProposals.table.select
        (fun r => runId.all (fun x => r.runId = x) && taskId.all (fun x => r.taskId = x))
        diffProposalOrder))

/-! ## Run evidence and approvals -/

/-- `ServerStore.load_run_evidence`: the stored digest must be the hash of what was loaded. -/
def loadRunEvidence (computeHash : RunEvidence → String) (runId : String) :
    Db (Checked RunEvidence × String) :=
  storeCall (query fun s =>
    match s.runEvidence.find? runId with
    | none => .error (.keyError runId)
    | some row =>
      match Model.build row.payload with
      | .error e => .error e
      | .ok evidence =>
        if computeHash evidence.1 = row.evidenceDigest then .ok (evidence, row.evidenceDigest)
        else .error (.valueError "stored run evidence digest mismatch"))

def approvalRow (e : ApprovalEvent) : ApprovalRow := ⟨e.approvalId, e.runId, e.createdAt, e⟩

/-- `ServerStore.save_approval_event`, for an event whose id a uuid just named. -/
def saveApprovalEvent (e : RecordId → ApprovalEvent) (hid : ∀ k, (e k).approvalId = k) :
    Db ApprovalEvent :=
  Program.atomic fun s =>
    (.ok (e (.generated s.approvalEvents.drawn)),
      { s with approvalEvents := s.approvalEvents.append (fun k => approvalRow (e k)) hid })

end Vad
