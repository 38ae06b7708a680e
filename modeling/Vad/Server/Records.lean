/-
  The services that only add records: event ingestion (`vad/server/api/events.py`), the recorder of
  MCP tool calls (`vad/control_plane/mcp_gateway.py`), approvals (`vad/server/api/approvals.py`) and
  diff proposals (`vad/server/api/diff_proposals.py`).
-/
import Vad.Server.Store

namespace Vad

open Keyed (RecordId)
open Atomic (Program)

/-! ## Event ingestion -/

structure EventIngestionResult where
  statusCode : Nat
  event : Checked ControlPlaneEvent
  decision : PolicyDecision

/-- `PRIVILEGED_EVENT_ROLES`, each set in its sorted order. -/
def privilegedEventRoles : ControlPlaneEventKind → Option (List String)
  | .fileChangeApplied => some ["builder", "release_guardian"]
  | .approvalRecorded => some ["release_guardian"]
  | .signerEvent => some ["release_guardian"]
  | .deploymentEvent => some ["release_guardian"]
  | .recoveryAction => some ["operator", "release_guardian"]
  | _ => none

/-- `ControlPlaneEventService._policy_decision`. -/
def ingestionDecision (e : EventFields) : PolicyDecision :=
  match privilegedEventRoles e.kind with
  | none => { allow := true, reasons := ["event ingestion policy satisfied"] }
  | some roles =>
    if e.role ∈ roles then
      { allow := true, reasons := [e.kind.value ++ " role policy satisfied"] }
    else
      { allow := false
        denials := [e.kind.value ++ " requires one of: " ++ ", ".intercalate roles]
        requiresHuman := true }

/-- The envelope of the denial that `ingest` records in place of the event. -/
def ingestionDenial (e : EventFields) (decision : PolicyDecision) (now : DateTime) : EventFields where
  sequence := e.sequence
  createdAt := now
  clientId := e.clientId
  runId := e.runId
  taskId := e.taskId
  kind := .policyDenied
  status := .blocked
  actor := e.actor
  role := e.role
  evidenceDigest := e.evidenceDigest
  summary := "Policy denied " ++ e.kind.value ++ ": " ++ "; ".intercalate decision.denials

/-- Build and append an event that a uuid names, with the sequence number its sender chose. -/
def appendNumbered (e : EventFields) : Db (Checked ControlPlaneEvent) :=
  if h : e.ok = true then
    if e.sequence < 2 ^ 63 then appendGeneratedEvent e h else Program.raise .overflowError
  else Program.raise (.validationError "ControlPlaneEvent" (failedFields e.checks))

/-- `ControlPlaneEvent(**payload)` and the append of `ingest`. -/
def appendIngested (e : EventFields) (eventId : Option RecordId) : Db (Checked ControlPlaneEvent) :=
  match eventId with
  | none => appendNumbered e
  | some id => do
    let event ← Program.done (Model.build (⟨e, id⟩ : ControlPlaneEvent))
    appendControlPlaneEvent event

/-- Does `ControlPlaneEvent(**payload)` fail? -/
def rejectedPayload (e : EventFields) (eventId : Option RecordId) : Bool :=
  !(eventId.all recordIdSafe && e.ok)

/-- `ControlPlaneEventService.ingest`; the payload may bring an id. -/
def ingest (e : EventFields) (eventId : Option RecordId) (now : DateTime) :
    Db EventIngestionResult :=
  let decision := ingestionDecision e
  if rejectedPayload e eventId || decision.allow then do
    let event ← appendIngested e eventId
    pure { statusCode := 201, event := event, decision := decision }
  else do
    let denial ← appendNumbered (ingestionDenial e decision now)
    pure { statusCode := 403, event := denial, decision := decision }

/-! ## Tool calls -/

/-- `McpToolCallRecorder`: on whose behalf tool calls are recorded. -/
structure McpToolCallRecorder where
  clientId : String
  actorId : String
  role : String
  runId : Option String := none
  taskId : Option String := none

/-- The event that `_emit` builds. -/
def toolCallEvent (r : McpToolCallRecorder) (status : ControlPlaneEventStatus)
    (digest : Option String) (summary : String) (now : DateTime) (sequence : Nat) : EventFields where
  sequence := sequence
  createdAt := now
  clientId := r.clientId
  runId := r.runId
  taskId := r.taskId
  kind := if status = .active then .toolCallStarted else .toolCallFinished
  status := status
  actor := r.actorId
  role := r.role
  evidenceDigest := digest
  summary := summary

/-- `McpToolCallRecorder._emit`: number the event, and have it ingested, which refuses what the
    constructor of the event refuses. -/
def emit (r : McpToolCallRecorder) (status : ControlPlaneEventStatus) (digest : Option String)
    (summary : String) (now : DateTime) : Db (Checked ControlPlaneEvent) := do
  let events ← listControlPlaneEvents
  let result ← ingest (toolCallEvent r status digest summary now (events.length + 1)) none now
  pure result.event

/-- `record_started`; `args` is the bounded summary of the redacted arguments. -/
def recordStarted (r : McpToolCallRecorder) (toolName args : String) (now : DateTime) :
    Db (Checked ControlPlaneEvent) :=
  emit r .active none ("MCP tool " ++ toolName ++ " started with args " ++ args ++ ".") now

/-- `record_finished`, for a result that says whether it is an error and may bring a digest. -/
def recordFinished (r : McpToolCallRecorder) (toolName : String) (isError : Bool)
    (digest : Option String) (now : DateTime) : Db (Checked ControlPlaneEvent) :=
  emit r (if isError then .failed else .passed) digest
    ("MCP tool " ++ toolName ++ " " ++ (if isError then "failed" else "finished") ++
      "; evidence_digest=" ++ orDefault digest "none" ++ ".") now

/-- `record_denied`. -/
def recordDenied (r : McpToolCallRecorder) (toolName reason : String) (now : DateTime) :
    Db (Checked ControlPlaneEvent) :=
  emit r .blocked none ("MCP tool " ++ toolName ++ " denied: " ++ reason ++ ".") now

/-! ## Approvals -/

structure ApprovalResult where
  statusCode : Nat
  event : ApprovalEvent

/-- `ApprovalService.record_approval`. -/
def recordApproval (computeHash : RunEvidence → String) (request : ApprovalRequest)
    (now : DateTime) : Db ApprovalResult := do
  let run ← loadRunEvidence computeHash request.runId
  let decision := approvalDecision request run.1.1.agents.builder
  let event ← saveApprovalEvent (fun id => {
    approvalId := id
    runId := request.runId
    actor := request.actor
    action := request.action
    createdAt := now.isoformat
    decision := decision
    evidenceDigest := some run.2 }) (fun _ => rfl)
  pure { statusCode := if decision.allow then 201 else 403, event := event }

/-! ## Diff proposals -/

structure DiffProposalCreateResult where
  statusCode : Nat
  proposal : Option DiffProposal
  decision : PolicyDecision

/-- `DiffProposalService.create`; `str` is Python's text of an exception. -/
def submitDiffProposal (sha256 : String → String) (str : PyError → String)
    (request : DiffProposalRequest) (now : DateTime) : Db DiffProposalCreateResult :=
  match createDiffProposal sha256 request now with
  | .error e => pure {
      statusCode := 400
      proposal := none
      decision := { allow := false, denials := [str e], requiresHuman := true } }
  | .ok proposal => do
    let saved ← saveDiffProposal proposal.1 proposal.2.1
    pure {
      statusCode := 201
      proposal := some saved
      decision := { allow := true, reasons := ["diff proposal persisted"] } }

end Vad
