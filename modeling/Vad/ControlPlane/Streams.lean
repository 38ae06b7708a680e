/-
  Records that the dashboard streams (`DashboardActivity`, `ProofStreamRecord` and
  `TerminalStreamRecord` of `vad/server/db/store.py`) and operator intents
  (`vad/control_plane/governance_records.py`).

  Times are texts in the first three and a `datetime` in the last.
-/
import Vad.ControlPlane.Model

namespace Vad

/-- `details` is the text of its JSON object. -/
structure DashboardActivity where
  activityId : String
  runId : String
  kind : String
  status : String
  client : String
  actor : String
  role : String
  summary : String
  createdAt : String
  taskId : Option String := none
  evidenceDigest : Option String := none
  policyDecision : Option PolicyDecision := none
  details : String := "{}"
deriving DecidableEq, Repr

instance : Model DashboardActivity where
  name := "DashboardActivity"
  normalize := id
  checks _ := []
  normalize_idem _ := rfl

structure ProofStreamRecord where
  recordId : String
  runId : String
  taskId : String
  status : String
  client : String
  actor : String
  role : String
  summary : String
  createdAt : String
  clientId : Option String := none
  startedAt : Option String := none
  finishedAt : Option String := none
  evidenceDigest : Option String := none
  recoveryEventId : Option String := none
  recoveryEvidenceUrl : Option String := none
deriving DecidableEq, Repr

instance : Model ProofStreamRecord where
  name := "ProofStreamRecord"
  normalize := id
  checks r := [("evidence_digest", optionally isDigest r.evidenceDigest)]
  normalize_idem _ := rfl

structure TerminalStreamRecord where
  recordId : String
  runId : String
  taskId : String
  kind : String
  status : String
  client : String
  role : String
  summary : String
  createdAt : String
  eventId : Option String := none
  evidenceDigest : Option String := none
deriving DecidableEq, Repr

instance : Model TerminalStreamRecord where
  name := "TerminalStreamRecord"
  normalize := id
  checks r := [("evidence_digest", optionally isDigest r.evidenceDigest)]
  normalize_idem _ := rfl

structure OperatorIntentRecord where
  intentRef : String
  actor : String
  role : String
  scope : String
  grantedTools : List String := []
  summary : String
  liveServiceOptIn : Bool := false
  highRisk : Bool := false
  expiresAt : Option DateTime := none
  createdAt : DateTime
deriving DecidableEq, Repr

/-- The tools are kept in their sorted order. -/
instance : Model OperatorIntentRecord where
  name := "OperatorIntentRecord"
  normalize r := { r with grantedTools := r.grantedTools.insertionSort (· ≤ ·) }
  checks r := [
    ("intent_ref", safeIdentifier 1 200 r.intentRef),
    ("actor", safeIdentifier 1 160 r.actor),
    ("role", safeIdentifier 1 80 r.role),
    ("scope", safeIdentifier 1 160 r.scope),
    ("granted_tools", r.grantedTools.all (!containsAny separators ·)),
    ("summary", lengthWithin 1 500 r.summary)]
  normalize_idem r := by
    simp only [(List.pairwise_insertionSort (· ≤ ·) r.grantedTools).insertionSort_eq]

end Vad
