/-
  Task leases and the requests on them (`vad/control_plane/leases.py`).

  The lease methods assign attributes of a lease that was built before, and pydantic does not
  check assignments; their results are therefore plain `TaskLease` data.  The request for a
  release checks the holder's id only: its `reason` may contain what `TaskLease` refuses.
-/
import Vad.ControlPlane.Model

namespace Vad

inductive TaskLeaseStatus where
  | active | released | expired | blocked
deriving DecidableEq, Repr

def TaskLeaseStatus.value : TaskLeaseStatus → String
  | active => "active"
  | released => "released"
  | expired => "expired"
  | blocked => "blocked"

structure TaskLease where
  taskId : String
  runId : String
  clientId : String
  role : String
  actor : String
  acquiredAt : DateTime
  expiresAt : DateTime
  status : TaskLeaseStatus := .active
  releaseReason : Option String := none
deriving DecidableEq, Repr

instance : Model TaskLease where
  name := "TaskLease"
  normalize := id
  checks l := [
    ("task_id", safeIdentifier 1 160 l.taskId),
    ("run_id", safeIdentifier 1 160 l.runId),
    ("client_id", safeIdentifier 1 160 l.clientId),
    ("role", safeIdentifier 1 80 l.role),
    ("actor", safeIdentifier 1 160 l.actor),
    ("release_reason", optionally (safeText 0 300) l.releaseReason)]
  normalize_idem _ := rfl

namespace TaskLease

/-- `TaskLease.renew`: a new expiry time. -/
def renew (l : TaskLease) (now : DateTime) (ttlSeconds : Int) : Except PyError TaskLease :=
  if l.status = .active then .ok { l with expiresAt := now.normalizeTime.addSeconds ttlSeconds }
  else .error (.valueError "only active leases can be renewed")

/-- `TaskLease.release`: the reason is stored as the request has it. -/
def release (l : TaskLease) (reason : Option String) : Except PyError TaskLease :=
  if l.status = .active then .ok { l with status := .released, releaseReason := reason }
  else .error (.valueError "only active leases can be released")

/-- The two assignments that end a lease without its holder. -/
def expiredWith (l : TaskLease) (reason : String) : TaskLease :=
  { l with status := .expired, releaseReason := some reason }

/-- `TaskLease.expire`: an active lease ends when its time has come. -/
def expire (l : TaskLease) (now : DateTime) : TaskLease :=
  if l.status ≠ .active then l
  else if l.expiresAt.instant ≤ now.instant then l.expiredWith "lease expired"
  else l

/-- Another expiry time, or another status, leaves the lease as valid as it was; another release
    reason does so only when it passes the lease's own check. -/
theorem valid_of_same {l l' : TaskLease} (h : Model.Valid l) (htask : l'.taskId = l.taskId)
    (hrun : l'.runId = l.runId) (hclient : l'.clientId = l.clientId) (hrole : l'.role = l.role)
    (hactor : l'.actor = l.actor)
    (hreason : optionally (safeText 0 300) l'.releaseReason = true) : Model.Valid l' := by
  refine ⟨rfl, failedFields_eq_nil.mpr ?_⟩
  have h := failedFields_eq_nil.mp h.2
  simp only [Model.checks, List.forall_mem_cons] at h ⊢
  obtain ⟨h1, h2, h3, h4, h5, -, hnil⟩ := h
  rw [htask, hrun, hclient, hrole, hactor]
  exact ⟨h1, h2, h3, h4, h5, hreason, hnil⟩

theorem releaseReason_ok {l : TaskLease} (h : Model.Valid l) :
    optionally (safeText 0 300) l.releaseReason = true :=
  failedFields_eq_nil.mp h.2 ("release_reason", optionally (safeText 0 300) l.releaseReason)
    (by simp [Model.checks])

theorem expiredWith_valid {l : TaskLease} (h : Model.Valid l) {reason : String}
    (hreason : safeText 0 300 reason = true) : Model.Valid (l.expiredWith reason) :=
  valid_of_same h rfl rfl rfl rfl rfl hreason

end TaskLease

/-! ## Requests -/

structure TaskLeaseAcquireRequest where
  taskId : String
  runId : String
  clientId : String
  role : String
  actor : String
  ttlSeconds : Int := 300
deriving DecidableEq, Repr

instance : Model TaskLeaseAcquireRequest where
  name := "TaskLeaseAcquireRequest"
  normalize := id
  checks r := [
    ("task_id", safeIdentifier 1 160 r.taskId),
    ("run_id", safeIdentifier 1 160 r.runId),
    ("client_id", safeIdentifier 1 160 r.clientId),
    ("role", safeIdentifier 1 80 r.role),
    ("actor", safeIdentifier 1 160 r.actor),
    ("ttl_seconds", decide (0 < r.ttlSeconds ∧ r.ttlSeconds ≤ 86400))]
  normalize_idem _ := rfl

structure TaskLeaseRenewRequest where
  clientId : String
  ttlSeconds : Int := 300
deriving DecidableEq, Repr

instance : Model TaskLeaseRenewRequest where
  name := "TaskLeaseRenewRequest"
  normalize := id
  checks r := [
    ("client_id", safeIdentifier 1 160 r.clientId),
    ("ttl_seconds", decide (0 < r.ttlSeconds ∧ r.ttlSeconds ≤ 86400))]
  normalize_idem _ := rfl

structure TaskLeaseReleaseRequest where
  clientId : String
  reason : Option String := none
deriving DecidableEq, Repr

/-- `reason` is bounded in length and nothing else. -/
instance : Model TaskLeaseReleaseRequest where
  name := "TaskLeaseReleaseRequest"
  normalize := id
  checks r := [
    ("client_id", safeIdentifier 1 160 r.clientId),
    ("reason", optionally (lengthWithin 0 300) r.reason)]
  normalize_idem _ := rfl

/-- The data `new_task_lease` hands to the `TaskLease` constructor. -/
def newLeaseData (r : TaskLeaseAcquireRequest) (now : DateTime) : TaskLease where
  taskId := r.taskId
  runId := r.runId
  clientId := r.clientId
  role := r.role
  actor := r.actor
  acquiredAt := now.normalizeTime
  expiresAt := now.normalizeTime.addSeconds r.ttlSeconds

theorem newLeaseData_valid {r : TaskLeaseAcquireRequest} (h : Model.Valid r) (now : DateTime) :
    Model.Valid (newLeaseData r now) := by
  refine ⟨rfl, failedFields_eq_nil.mpr ?_⟩
  have h := failedFields_eq_nil.mp h.2
  simp only [Model.checks, List.forall_mem_cons] at h ⊢
  obtain ⟨h1, h2, h3, h4, h5, -, hnil⟩ := h
  exact ⟨h1, h2, h3, h4, h5, rfl, hnil⟩

/-- `new_task_lease`. -/
def newTaskLease (r : Checked TaskLeaseAcquireRequest) (now : DateTime) : Checked TaskLease :=
  ⟨newLeaseData r.1 now, newLeaseData_valid r.2 now⟩

end Vad
