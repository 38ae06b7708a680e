/-
  Work items, their governance record and their mirrored run-task state
  (`vad/control_plane/work_items.py`, `vad/control_plane/run_task_state.py`).
-/
import Vad.ControlPlane.Model

namespace Vad

inductive WorkItemStatus where
  | planned | queued | assigned | running | blocked | waitingForHuman
  | verifying | approved | completed | failed | cancelled | requeued
deriving DecidableEq, Repr

def WorkItemStatus.value : WorkItemStatus → String
  | planned => "planned"
  | queued => "queued"
  | assigned => "assigned"
  | running => "running"
  | blocked => "blocked"
  | waitingForHuman => "waiting_for_human"
  | verifying => "verifying"
  | approved => "approved"
  | completed => "completed"
  | failed => "failed"
  | cancelled => "cancelled"
  | requeued => "requeued"

structure WorkItemGovernance where
  effortType : String
  meesEstimate : Int
  tokenBudget : Int
  approvalRequired : Bool := false
  liveServiceOptIn : Bool := false
  highRisk : Bool := false
  operatorIntentRef : Option String := none
  approvalRef : Option String := none
deriving DecidableEq, Repr

/-- The field checks, and after them the four rules of `enforce_governance_controls`. -/
def WorkItemGovernance.checks (g : WorkItemGovernance) : List (String × Bool) := [
  ("effort_type", safeIdentifier 1 80 g.effortType),
  ("mees_estimate", decide (0 ≤ g.meesEstimate ∧ g.meesEstimate ≤ 100)),
  ("token_budget", decide (0 ≤ g.tokenBudget)),
  ("operator_intent_ref", optionally (safeIdentifier 0 200) g.operatorIntentRef),
  ("approval_ref", optionally (safeIdentifier 0 200) g.approvalRef),
  ("governance", !(decide (g.meesEstimate < 50) && !g.approvalRequired)),
  ("governance", !(g.liveServiceOptIn && !g.approvalRequired)),
  ("governance", !(g.highRisk && !g.approvalRequired)),
  ("governance", !((g.liveServiceOptIn || g.highRisk) && orDefault g.operatorIntentRef "" = ""))]

structure WorkItem where
  workItemId : String
  runId : String
  title : String
  description : String := ""
  role : String
  requestedCapability : Option String := none
  priority : Int := 100
  status : WorkItemStatus := .queued
  createdAt : DateTime
  updatedAt : DateTime
  assignedClientId : Option String := none
  leaseId : Option String := none
  evidenceDigest : Option String := none
  blockedReason : Option String := none
  governance : Option WorkItemGovernance := none
deriving DecidableEq, Repr

instance : Model WorkItem where
  name := "WorkItem"
  normalize := id
  checks item := [
    ("work_item_id", safeIdentifier 1 160 item.workItemId),
    ("run_id", safeIdentifier 1 160 item.runId),
    ("title", safeText 1 200 item.title),
    ("description", safeText 0 2000 item.description),
    ("role", safeIdentifier 1 80 item.role),
    ("requested_capability", optionally (safeIdentifier 0 120) item.requestedCapability),
    ("priority", decide (0 ≤ item.priority ∧ item.priority ≤ 1000)),
    ("assigned_client_id", optionally (safeIdentifier 0 160) item.assignedClientId),
    ("lease_id", optionally (safeIdentifier 0 160) item.leaseId),
    ("evidence_digest", optionally isDigest item.evidenceDigest),
    ("blocked_reason", optionally (safeText 0 500) item.blockedReason),
    ("governance", item.governance.all (fun g => failedFields g.checks = []))]
  normalize_idem _ := rfl

/-- What `update_work_item` may replace; `none` leaves the field as it is. -/
structure WorkItemChange where
  status : Option WorkItemStatus := none
  assignedClientId : Option String := none
  leaseId : Option String := none
  evidenceDigest : Option String := none
  blockedReason : Option String := none
deriving DecidableEq, Repr

/-- The data `update_work_item` hands to the `WorkItem` constructor. -/
def updatedData (item : WorkItem) (c : WorkItemChange) (now : DateTime) : WorkItem :=
  { item with
    status := c.status.getD item.status
    assignedClientId := c.assignedClientId <|> item.assignedClientId
    leaseId := c.leaseId <|> item.leaseId
    evidenceDigest := c.evidenceDigest <|> item.evidenceDigest
    blockedReason := c.blockedReason <|> item.blockedReason
    updatedAt := now.normalizeTime }

/-- `update_work_item`: the changed data, validated again. -/
def updateWorkItem (item : WorkItem) (c : WorkItemChange) (now : DateTime) :
    Except PyError (Checked WorkItem) := Model.build (updatedData item c now)

/-- `model_copy(update={"assigned_client_id": None, "lease_id": None})`. -/
def WorkItem.withoutOwner (item : WorkItem) : WorkItem :=
  { item with assignedClientId := none, leaseId := none }

theorem WorkItem.withoutOwner_valid {item : WorkItem} (h : Model.Valid item) :
    Model.Valid item.withoutOwner := by
  refine ⟨rfl, failedFields_eq_nil.mpr ?_⟩
  have h := failedFields_eq_nil.mp h.2
  simp only [Model.checks, List.forall_mem_cons] at h ⊢
  obtain ⟨hid, hrun, htitle, htext, hrole, hcap, hprio, -, -, hdigest, hreason, hgov, hnil⟩ := h
  exact ⟨hid, hrun, htitle, htext, hrole, hcap, hprio, rfl, rfl, hdigest, hreason, hgov, hnil⟩

structure RunTaskState where
  runId : String
  taskId : String
  workItemId : Option String := none
  status : WorkItemStatus
  assignedClientId : Option String := none
  leaseId : Option String := none
  blockedReason : Option String := none
  evidenceDigest : Option String := none
  updatedAt : DateTime
deriving DecidableEq, Repr

instance : Model RunTaskState where
  name := "RunTaskState"
  normalize := id
  checks s := [
    ("run_id", safeIdentifier 1 160 s.runId),
    ("task_id", safeIdentifier 1 160 s.taskId),
    ("work_item_id", optionally (safeIdentifier 0 160) s.workItemId),
    ("assigned_client_id", optionally (safeIdentifier 0 160) s.assignedClientId),
    ("lease_id", optionally (safeIdentifier 0 160) s.leaseId),
    ("blocked_reason", optionally (lengthWithin 0 500) s.blockedReason),
    ("evidence_digest", optionally isDigest s.evidenceDigest)]
  normalize_idem _ := rfl

/-- The data of `RunTaskState.from_work_item`. -/
def RunTaskState.ofItem (item : WorkItem) : RunTaskState where
  runId := item.runId
  taskId := item.workItemId
  workItemId := some item.workItemId
  status := item.status
  assignedClientId := item.assignedClientId
  leaseId := item.leaseId
  blockedReason := item.blockedReason
  evidenceDigest := item.evidenceDigest
  updatedAt := item.updatedAt

/-- The mirror of a built work item passes its own checks: they are no stricter. -/
theorem RunTaskState.ofItem_valid {item : WorkItem} (h : Model.Valid item) :
    Model.Valid (RunTaskState.ofItem item) := by
  refine ⟨rfl, failedFields_eq_nil.mpr ?_⟩
  have h := failedFields_eq_nil.mp h.2
  simp only [Model.checks, List.forall_mem_cons] at h ⊢
  obtain ⟨hid, hrun, -, -, -, -, -, hassigned, hlease, hdigest, hreason, -⟩ := h
  have hid0 : safeIdentifier 0 160 item.workItemId = true := by
    simp only [safeIdentifier, lengthWithin, Bool.and_eq_true, decide_eq_true_eq] at hid ⊢
    exact ⟨⟨Nat.zero_le _, hid.1.2⟩, hid.2⟩
  have hreason0 : optionally (lengthWithin 0 500) item.blockedReason = true := by
    cases hr : item.blockedReason with
    | none => rfl
    | some r =>
      rw [hr] at hreason
      simp only [optionally, Option.all_some, safeText, Bool.and_eq_true] at hreason ⊢
      exact hreason.1
  exact ⟨hrun, hid, hid0, hassigned, hlease, hreason0, hdigest, fun _ hx => absurd hx List.not_mem_nil⟩

/-- `RunTaskState.from_work_item`. -/
def RunTaskState.fromWorkItem (item : Checked WorkItem) : Checked RunTaskState :=
  ⟨RunTaskState.ofItem item.1, RunTaskState.ofItem_valid item.2⟩

end Vad
