/-
  The task-lease service (`vad/server/api/leases.py`).

  `acquire` reads the old lease, decides, and then writes with an upsert that overwrites whatever
  is there by then; its two continuations are definitions of their own (`denyAcquire`,
  `grantAcquire`).  The methods that change a stored lease change the loaded object and save it
  without building it again.
-/
import Vad.Server.Store

namespace Vad

open Atomic (Program)

structure TaskLeaseResult where
  statusCode : Nat
  lease : TaskLease
  event : Checked ControlPlaneEvent
  decision : PolicyDecision

/-- The envelope that `TaskLeaseService._append_event` builds. -/
def taskLeaseEvent (l : TaskLease) (summary : String) (status : ControlPlaneEventStatus)
    (now : DateTime) (sequence : Nat) : EventFields where
  sequence := sequence
  createdAt := now
  clientId := l.clientId
  runId := some l.runId
  taskId := some l.taskId
  kind := .taskLease
  status := status
  actor := l.actor
  role := l.role
  summary := summary

/-- `TaskLeaseService._append_event`. -/
def appendLeaseEvent (l : TaskLease) (summary : String) (status : ControlPlaneEventStatus)
    (now : DateTime) : Db (Checked ControlPlaneEvent) :=
  appendEvent (taskLeaseEvent l summary status now)

/-! ## Acquire -/

/-- `acquire` when the task has an active lease. -/
def denyAcquire (request : TaskLeaseAcquireRequest) (existing : Checked TaskLease)
    (now : DateTime) : Db TaskLeaseResult := do
  let event ← appendLeaseEvent existing.1 "Lease acquire denied because task is already active."
    .blocked now
  pure {
    statusCode := 409
    lease := existing.1
    event := event
    decision := {
      allow := false
      denials := ["task " ++ request.taskId ++ " already leased by " ++ existing.1.clientId]
      requiresHuman := true } }

/-- The calls of `acquire` that come after the lease was saved. -/
def recordAcquire (lease : TaskLease) (now : DateTime) : Db TaskLeaseResult := do
  let event ← appendLeaseEvent lease "Task lease acquired." .active now
  pure {
    statusCode := 201
    lease := lease
    event := event
    decision := { allow := true, reasons := ["task lease acquired"] } }

/-- `acquire` when the task has no active lease. -/
def grantAcquire (request : Checked TaskLeaseAcquireRequest) (now : DateTime) :
    Db TaskLeaseResult := do
  let lease ← saveTaskLease (newTaskLease request now).1
  recordAcquire lease now

/-- `acquire` after it looked for the old lease. -/
def acquireAfter (request : Checked TaskLeaseAcquireRequest) (now : DateTime)
    (existing : Option (Checked TaskLease)) : Db TaskLeaseResult :=
  match existing with
  | some lease =>
    if lease.1.status = .active then denyAcquire request.1 lease now else grantAcquire request now
  | none => grantAcquire request now

/-- `try: load_task_lease(...) except KeyError: None`. -/
def existingLease (taskId : String) : Db (Option (Checked TaskLease)) :=
  Program.handle
    (do let lease ← loadTaskLease taskId
        pure (some lease))
    (fun e => match e with
      | .keyError _ => pure none
      | e => Program.raise e)

/-- `TaskLeaseService.acquire` once its client is known. -/
def acquireLease (request : Checked TaskLeaseAcquireRequest) (now : DateTime) :
    Db TaskLeaseResult := do
  let existing ← existingLease request.1.taskId
  acquireAfter request now existing

/-- `TaskLeaseService.acquire`. -/
def acquire (request : Checked TaskLeaseAcquireRequest) (now : DateTime) : Db TaskLeaseResult := do
  let _ ← loadClientManifest request.1.clientId
  acquireLease request now

/-! ## Renew, release, expire -/

/-- `TaskLeaseService._require_holder`. -/
def requireHolder (l : TaskLease) (clientId : String) : Except PyError Unit :=
  if l.clientId ≠ clientId then .error (.permissionError ("task lease is held by " ++ l.clientId))
  else if l.status ≠ .active then .error (.valueError ("task lease is " ++ l.status.value))
  else .ok ()

/-- The save, the event and the result that end `renew`, `release` and `expire`. -/
def changeLease (l : TaskLease) (summary : String) (status : ControlPlaneEventStatus)
    (reason : String) (now : DateTime) : Db TaskLeaseResult := do
  let _ ← saveTaskLease l
  let event ← appendLeaseEvent l summary status now
  pure {
    statusCode := 200
    lease := l
    event := event
    decision := { allow := true, reasons := [reason] } }

/-- `TaskLeaseService.renew`. -/
def renew (taskId : String) (request : Checked TaskLeaseRenewRequest) (now : DateTime) :
    Db TaskLeaseResult := do
  let lease ← loadTaskLease taskId
  Program.done (requireHolder lease.1 request.1.clientId)
  let renewed ← Program.done (lease.1.renew now request.1.ttlSeconds)
  changeLease renewed "Task lease renewed." .active "task lease renewed" now

/-- `TaskLeaseService.release`. -/
def release (taskId : String) (request : Checked TaskLeaseReleaseRequest) (now : DateTime) :
    Db TaskLeaseResult := do
  let lease ← loadTaskLease taskId
  Program.done (requireHolder lease.1 request.1.clientId)
  let released ← Program.done (lease.1.release request.1.reason)
  changeLease released "Task lease released." .passed "task lease released" now

/-- `TaskLeaseService.expire`. -/
def expire (taskId : String) (now : DateTime) : Db TaskLeaseResult := do
  let lease ← loadTaskLease taskId
  changeLease (lease.1.expiredWith "lease expired") "Task lease expired." .stale
    "task lease expired" now

end Vad
