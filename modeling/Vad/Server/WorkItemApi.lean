/-
  The work-item routes of the HTTP API (`_work_item_create_response` and
  `_work_item_action_response` of `vad/server/app.py`), with a database configured.

  A handler answers with the status code of the service's result, or with an error of its own when
  the service raised one of the exceptions it catches.  Any other exception leaves the handler.
-/
import Vad.Server.Requests

namespace Vad

open Atomic (Program)

/-- What a work-item handler answers. -/
inductive WorkItemAnswer where
  | result (r : WorkItemTransitionResult)
  | scheduled (r : SchedulerDecisionResult)
  | error (code : Nat) (error : String)

def WorkItemAnswer.code : WorkItemAnswer → Nat
  | result r => r.statusCode
  | scheduled r => r.statusCode
  | error code _ => code

/-- A create or action call on a work item. -/
inductive WorkItemCall where
  | create (item : Checked WorkItem) (caller : Caller) (summary : Option String)
  | transition (c : TransitionCall)
  | schedule (id : String) (caller : Caller)

def WorkItemCall.perform (now : DateTime) : WorkItemCall → Db WorkItemAnswer
  | .create item caller summary => do pure (.result (← createWorkItem item caller summary now))
  | .transition c => do pure (.result (← c.perform now))
  | .schedule id caller => do pure (.scheduled (← scheduleWorkItem id caller now))

/-- The body of a create request: the item's data, and the optional arguments beside it. -/
structure CreateBody where
  workItem : WorkItem
  actor : Option String := none
  role : Option String := none
  clientId : Option String := none
  summary : Option String := none

/-- The body of an action request. -/
structure ActionBody where
  actor : Option String := none
  role : Option String := none
  clientId : Option String := none
  assignedClientId : Option String := none
  leaseId : Option String := none
  reason : Option String := none
  evidenceDigest : Option String := none

/-- `body.get("actor", "operator")` and the two lines after it. -/
def callerOf (actor role clientId : Option String) : Caller :=
  ⟨actor.getD "operator", role.getD "operator", clientId.getD "control-plane"⟩

/-- The two exceptions that `_work_item_create_response` catches. -/
def createError : PyError → Db WorkItemAnswer
  | .validationError _ _ => pure (.error 400 "invalid_work_item")
  | .integrityError => pure (.error 409 "duplicate_work_item")
  | e => Program.raise e

/-- `_work_item_create_response`. -/
def workItemCreateResponse (body : CreateBody) (now : DateTime) : Db WorkItemAnswer :=
  Program.handle
    (do let item ← Program.done (Model.build body.workItem)
        WorkItemCall.perform now
          (.create item (callerOf body.actor body.role body.clientId) body.summary))
    createError

/-- The `if action == …` chain: the call that an action name stands for. -/
def actionCall (workItemId action : String) (body : ActionBody) : Option WorkItemCall :=
  let caller := callerOf body.actor body.role body.clientId
  if action = "assign" then
    match body.assignedClientId with
    | some client =>
      if client = "" then some (.schedule workItemId caller)
      else some (.transition (.assign workItemId caller client body.leaseId none))
    | none => some (.schedule workItemId caller)
  else if action = "block" then
    some (.transition (.block workItemId caller (body.reason.getD "blocked")))
  else if action = "complete" then
    some (.transition (.complete workItemId caller body.evidenceDigest))
  else if action = "fail" then some (.transition (.fail workItemId caller))
  else if action = "cancel" then some (.transition (.cancel workItemId caller))
  else if action = "requeue" then some (.transition (.requeue workItemId caller none))
  else none

/-- The two exceptions that `_work_item_action_response` catches. -/
def actionError : PyError → Db WorkItemAnswer
  | .keyError _ => pure (.error 404 "work_item_not_found")
  | .validationError _ _ => pure (.error 400 "invalid_work_item")
  | e => Program.raise e

/-- `_work_item_action_response`, for the unquoted parts of the path. -/
def workItemActionResponse (parts : List String) (body : ActionBody) (now : DateTime) :
    Db WorkItemAnswer :=
  match parts with
  | [_, workItemId, action] =>
    match actionCall workItemId action body with
    | some call => Program.handle (call.perform now) actionError
    | none => pure (.error 404 "not_found")
  | _ => pure (.error 404 "not_found")

end Vad
