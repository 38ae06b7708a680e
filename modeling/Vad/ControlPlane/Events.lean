/-
  The control-plane event envelope (`vad/control_plane/events.py`).

  Event ids: `uuid4` is taken at its documented word, that its results never repeat.  The id of an
  internally built event is therefore `RecordId.generated n` for the n-th drawn uuid, and an id
  that a client chose is `RecordId.named s`; the ledger (`Keyed.Minted`) keeps the count of drawn
  uuids next to the rows.
-/
import Vad.ControlPlane.Model
import Vad.Lib.Table

namespace Vad

open Keyed (RecordId)

inductive ControlPlaneEventKind where
  | heartbeat | toolCallStarted | toolCallFinished | fileChangeProposed | fileChangeApplied
  | proofStarted | proofFinished | policyDenied | approvalRequested | approvalRecorded
  | signerEvent | deploymentEvent | message | blocker | recoveryAction | swarm | provider
  | signing | deployment | workItem | taskLease
deriving DecidableEq, Repr

/-- The value of the kind in JSON and in messages. -/
def ControlPlaneEventKind.value : ControlPlaneEventKind → String
  | heartbeat => "heartbeat"
  | toolCallStarted => "tool_call_started"
  | toolCallFinished => "tool_call_finished"
  | fileChangeProposed => "file_change_proposed"
  | fileChangeApplied => "file_change_applied"
  | proofStarted => "proof_started"
  | proofFinished => "proof_finished"
  | policyDenied => "policy_denied"
  | approvalRequested => "approval_requested"
  | approvalRecorded => "approval_recorded"
  | signerEvent => "signer_event"
  | deploymentEvent => "deployment_event"
  | message => "message"
  | blocker => "blocker"
  | recoveryAction => "recovery_action"
  | swarm => "swarm"
  | provider => "provider"
  | signing => "signing"
  | deployment => "deployment"
  | workItem => "work_item"
  | taskLease => "task_lease"

inductive ControlPlaneEventStatus where
  | active | passed | failed | blocked | needsHuman | stale
deriving DecidableEq, Repr

/-- The text of a generated or chosen id; the hexadecimal digits of a uuid are written as its
    number. -/
def recordIdText (stem : String) : RecordId → String
  | .generated n => stem ++ toString n
  | .named s => s

/-- The check of an id field; what a uuid is made of passes. -/
def recordIdSafe : RecordId → Bool
  | .generated _ => true
  | .named s => safeIdentifier 0 120 s

/-- The fields of an event, its id apart. -/
structure EventFields where
  sequence : Nat
  createdAt : DateTime
  clientId : String
  clientLabel : Option String := none
  runId : Option String := none
  taskId : Option String := none
  kind : ControlPlaneEventKind
  status : ControlPlaneEventStatus
  actor : String
  role : String
  evidenceDigest : Option String := none
  summary : String
deriving DecidableEq, Repr

structure ControlPlaneEvent extends EventFields where
  eventId : RecordId
deriving DecidableEq, Repr

def EventFields.checks (e : EventFields) : List (String × Bool) := [
  ("client_id", safeIdentifier 1 160 e.clientId),
  ("client_label", optionally (lengthWithin 0 160) e.clientLabel),
  ("run_id", optionally (safeIdentifier 0 160) e.runId),
  ("task_id", optionally (safeIdentifier 0 160) e.taskId),
  ("actor", safeIdentifier 1 160 e.actor),
  ("role", safeIdentifier 1 80 e.role),
  ("evidence_digest", optionally isDigest e.evidenceDigest),
  ("summary", lengthWithin 1 500 e.summary)]

instance : Model ControlPlaneEvent where
  name := "ControlPlaneEvent"
  normalize := id
  checks e := ("event_id", recordIdSafe e.eventId) :: e.toEventFields.checks
  normalize_idem _ := rfl

/-- Do the fields make a `ControlPlaneEvent` when a uuid names it? -/
def EventFields.ok (e : EventFields) : Bool := failedFields e.checks = []

theorem valid_generated_iff (e : EventFields) (n : Nat) :
    Model.Valid (⟨e, .generated n⟩ : ControlPlaneEvent) ↔ e.ok = true := by
  simp only [Model.Valid, Model.normalize, Model.checks, EventFields.ok, decide_eq_true_eq,
    failedFields_eq_nil, List.forall_mem_cons, recordIdSafe, id, true_and]

end Vad
