/-
  Approval events (`vad/server/db/store.py`, `vad/server/api/approvals.py`).

  The hash of an evidence bundle is a parameter of the code that checks it.
-/
import Vad.Evidence.Bundle
import Vad.Lib.Table

namespace Vad

open Keyed (RecordId)

structure ApprovalRequest where
  runId : String
  actor : String
  actorRole : String
  action : String := "approve_release"
  reason : Option String := none
deriving DecidableEq, Repr

structure ApprovalEvent where
  approvalId : RecordId
  runId : String
  actor : String
  action : String
  createdAt : String
  decision : PolicyDecision
  evidenceDigest : Option String := none
deriving DecidableEq, Repr

def authorizedApprovalRoles : List String := ["release_guardian"]

/-- `ApprovalService._decision`. -/
def approvalDecision (request : ApprovalRequest) (builder : String) : PolicyDecision :=
  let denials :=
    (if request.actorRole ∈ authorizedApprovalRoles then []
      else ["approval actor role is not authorized"]) ++
    (if request.actor = builder then ["builder may not approve own run"] else []) ++
    (if request.action = "approve_release" then [] else ["unsupported approval action"])
  if denials = [] then { allow := true, reasons := ["approval policy satisfied"] }
  else { allow := false, denials := denials, requiresHuman := true }

end Vad
