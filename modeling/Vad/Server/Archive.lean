/-
  The `ServerStore` methods that no modelled request calls, or that take more than the requests
  give them (`vad/server/db/store.py`): diff proposals under any id, apply records, operator
  intents, run evidence, and the records that the dashboard streams.

  A save under a key that is taken overwrites the row, and most saves overwrite every column.  Two
  leave `created_at` as it was: that of a diff proposal and that of an operator intent.
-/
import Vad.Server.Store

namespace Vad

open Keyed (Table Minted RecordId)
open Atomic (Program)

/-! ## Diff proposals and apply records -/

/-- `ON CONFLICT(proposal_id) DO UPDATE SET`: the creation time stays. -/
def overwriteProposal (p : DiffProposal) (r : DiffProposalRow) : DiffProposalRow :=
  if r.proposalId = p.proposalId then
    { r with runId := p.runId, taskId := p.taskId, status := "proposed", payload := p }
  else r

theorem overwriteProposal_key (p : DiffProposal) (r : DiffProposalRow) :
    (overwriteProposal p r).proposalId = r.proposalId := by
  unfold overwriteProposal
  split <;> rfl

/-- `ServerStore.save_diff_proposal`, for a proposal under any id. -/
def upsertDiffProposal (p : Checked DiffProposal) : Db (Checked DiffProposal) :=
  storeCall do
    execute fun s =>
      match s.diffProposals.insert (diffProposalRow "proposed" p.1) with
      | some t => .ok { s with diffProposals := t, written := .proposal p.1 :: s.written }
      | none => .ok { s with
        diffProposals := s.diffProposals.mapRows (overwriteProposal p.1) (overwriteProposal_key p.1)
        written := .proposal p.1 :: s.written }
    pure p

/-- The statement of `update_diff_proposal_status`. -/
def setProposalStatus (proposalId : RecordId) (status : String) (r : DiffProposalRow) :
    DiffProposalRow := if r.proposalId = proposalId then { r with status := status } else r

theorem setProposalStatus_key (proposalId : RecordId) (status : String) (r : DiffProposalRow) :
    (setProposalStatus proposalId status r).proposalId = r.proposalId := by
  unfold setProposalStatus
  split <;> rfl

/-- `ServerStore.update_diff_proposal_status`. -/
def updateDiffProposalStatus (proposalId : RecordId) (status : String) : Db (Checked DiffProposal) :=
  storeCall do
    let proposal ← loadDiffProposal proposalId
    execute fun s => .ok { s with
      diffProposals := s.diffProposals.mapRows (setProposalStatus proposalId status)
        (setProposalStatus_key proposalId status) }
    pure proposal

/-- The row of an apply record: its id is made of the proposal and the time. -/
def diffApplyRow (r : DiffApplyRecord) : DiffApplyRow where
  recordId := recordIdText "diff-proposal-" r.proposalId ++ "-apply-" ++ r.createdAt
  proposalId := r.proposalId
  createdAt := r.createdAt
  payload := r

/-- `ServerStore.save_diff_apply_record`: the proposal must be there, and the id must not. -/
def saveDiffApplyRecord (r : Checked DiffApplyRecord) : Db (Checked DiffApplyRecord) :=
  storeCall do
    execute fun s =>
      if s.diffProposals.table.has r.1.proposalId then
        match s.diffApplyRecords.insert (diffApplyRow r.1) with
        | some t => .ok { s with diffApplyRecords := t }
        | none => .error .integrityError
      else .error .integrityError
    pure r

def diffApplyOrder (a b : DiffApplyRow) : Bool :=
  orderedBy [compare a.createdAt b.createdAt, compare a.recordId b.recordId]

/-- `ServerStore.list_diff_apply_records`. -/
def listDiffApplyRecords (proposalId : Option RecordId := none) :
    Db (List (Checked DiffApplyRecord)) :=
  storeCall (query fun s => fetchedAll DiffApplyRow.payload
    (s.diffApplyRecords.select (fun r => proposalId.all (fun x => r.proposalId = x)) diffApplyOrder))

/-! ## Operator intents -/

def operatorIntentRow (r : OperatorIntentRecord) : OperatorIntentRow :=
  ⟨r.intentRef, r.createdAt.isoformat, r⟩

/-- `ServerStore.save_operator_intent_record`: a taken reference keeps its creation time. -/
def saveOperatorIntentRecord (r : Checked OperatorIntentRecord) : Db (Checked OperatorIntentRecord) :=
  storeCall do
    execute fun s => .ok { s with
      operatorIntentRecords := s.operatorIntentRecords.upsert
        { operatorIntentRow r.1 with
          createdAt := match s.operatorIntentRecords.find? r.1.intentRef with
            | some old => old.createdAt
            | none => r.1.createdAt.isoformat } }
    pure r

def operatorIntentOrder (a b : OperatorIntentRow) : Bool :=
  orderedBy [compare a.createdAt b.createdAt, compare a.intentRef b.intentRef]

/-- `ServerStore.list_operator_intent_records`. -/
def listOperatorIntentRecords : Db (List (Checked OperatorIntentRecord)) :=
  storeCall (query fun s => fetchedAll OperatorIntentRow.payload
    (s.operatorIntentRecords.select (fun _ => true) operatorIntentOrder))

/-! ## Run evidence and approvals -/

/-- `ServerStore.save_run_evidence`. -/
def saveRunEvidence (computeHash : RunEvidence → String) (e : Checked RunEvidence) :
    Db (Checked RunEvidence) :=
  storeCall do
    execute fun s => .ok { s with
      runEvidence := s.runEvidence.upsert ⟨e.1.runId, computeHash e.1, e.1.createdAt, e.1⟩ }
    pure e

def runEvidenceOrder (a b : RunEvidenceRow) : Bool :=
  orderedBy [compare a.createdAt b.createdAt, compare a.runId b.runId]

/-- `ServerStore.list_run_evidence`: the run ids in order, and each of them loaded. -/
def listRunEvidence (computeHash : RunEvidence → String) :
    Db (List (Checked RunEvidence × String)) := do
  let ids ← storeCall (query fun s =>
    .ok ((s.runEvidence.select (fun _ => true) runEvidenceOrder).map RunEvidenceRow.runId))
  Program.forEach ids (loadRunEvidence computeHash)

def approvalOrder (a b : ApprovalRow) : Bool :=
  orderedBy [compare a.createdAt b.createdAt,
    compare (recordIdText "approval-" a.approvalId) (recordIdText "approval-" b.approvalId)]

/-- `ServerStore.save_approval_event`, for an event under any id. -/
def insertApprovalEvent (e : ApprovalEvent) : Db ApprovalEvent :=
  storeCall do
    execute fun s => match s.approvalEvents.insert (approvalRow e) with
      | some t => .ok { s with approvalEvents := t }
      | none => .error .integrityError
    pure e

/-- `ServerStore.list_approval_events`. -/
def listApprovalEvents (runId : Option String := none) : Db (List ApprovalEvent) :=
  storeCall (query fun s => .ok ((s.approvalEvents.table.select
    (fun r => runId.all (fun x => r.runId = x)) approvalOrder).map ApprovalRow.payload))

/-! ## What the dashboard streams -/

def activityRow (a : DashboardActivity) : StreamRow DashboardActivity :=
  ⟨a.activityId, a.runId, a.createdAt, a⟩

def proofStreamRow (r : ProofStreamRecord) : StreamRow ProofStreamRecord :=
  ⟨r.recordId, r.runId, r.createdAt, r⟩

def terminalStreamRow (r : TerminalStreamRecord) : StreamRow TerminalStreamRecord :=
  ⟨r.recordId, r.runId, r.createdAt, r⟩

/-- `ServerStore.save_dashboard_activity`. -/
def saveDashboardActivity (a : Checked DashboardActivity) : Db (Checked DashboardActivity) :=
  storeCall do
    execute fun s => .ok { s with dashboardActivity := s.dashboardActivity.upsert (activityRow a.1) }
    pure a

/-- `ServerStore.save_proof_stream_record`. -/
def saveProofStreamRecord (r : Checked ProofStreamRecord) : Db (Checked ProofStreamRecord) :=
  storeCall do
    execute fun s => .ok { s with
      proofStreamRecords := s.proofStreamRecords.upsert (proofStreamRow r.1) }
    pure r

/-- `ServerStore.save_terminal_stream_record`. -/
def saveTerminalStreamRecord (r : Checked TerminalStreamRecord) :
    Db (Checked TerminalStreamRecord) :=
  storeCall do
    execute fun s => .ok { s with
      terminalStreamRecords := s.terminalStreamRecords.upsert (terminalStreamRow r.1) }
    pure r

def streamOrder {α : Type} (a b : StreamRow α) : Bool :=
  orderedBy [compare a.createdAt b.createdAt, compare a.recordId b.recordId]

/-- The records of a stream, all of them or those of one run, by time and id. -/
def listStream {α : Type} [Model α] (t : Store → StreamTable α) (runId : Option String) :
    Db (List (Checked α)) :=
  storeCall (query fun s => fetchedAll StreamRow.payload
    ((t s).select (fun r => runId.all (fun x => r.runId = x)) streamOrder))

/-- `ServerStore.list_dashboard_activity`. -/
def listDashboardActivity (runId : Option String := none) : Db (List (Checked DashboardActivity)) :=
  listStream Store.dashboardActivity runId

/-- `ServerStore.list_proof_stream_records`. -/
def listProofStreamRecords (runId : Option String := none) : Db (List (Checked ProofStreamRecord)) :=
  listStream Store.proofStreamRecords runId

/-- `ServerStore.list_terminal_stream_records`. -/
def listTerminalStreamRecords (runId : Option String := none) :
    Db (List (Checked TerminalStreamRecord)) := listStream Store.terminalStreamRecords runId

/-! ## Marking with leases named -/

/-- `ServerStore.mark_client_stale`, for a caller that names the lost leases itself. -/
def markClientStaleLosing (clientId : String) (lostTaskLeases : List String) : Db Unit :=
  storeCall do
    let _ ← selectClientManifest clientId
    execute fun s =>
      let row := s.clientHeartbeats.find? clientId
      .ok { s with clientHeartbeats := s.clientHeartbeats.upsert {
        clientId := clientId
        status := .stale
        lastHeartbeatAt := row.bind HeartbeatRow.lastHeartbeatAt
        lastRunId := row.bind HeartbeatRow.lastRunId
        lastTaskId := row.bind HeartbeatRow.lastTaskId
        lostTaskLeases := lostTaskLeases } }

end Vad
