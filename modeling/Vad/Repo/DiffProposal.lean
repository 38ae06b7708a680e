/-
  Diff proposals (`vad/repo/diff_workflow.py`): the record of a proposed patch and its creation.

  SHA-256 is a parameter: `sha256` stands for the hexadecimal digest of the UTF-8 bytes of a text.
-/
import Vad.ControlPlane.Events
import Vad.Lib.Dict
import Vad.Lib.Text
import Mathlib.Data.List.Sort

namespace Vad

open Keyed (RecordId)

structure DiffProposal where
  proposalId : RecordId
  runId : String
  taskId : String
  submittedBy : String
  role : String
  patchText : String
  patchDigest : String
  changedFiles : List String
  createdAt : String
  summary : String
deriving DecidableEq, Repr

/-- Identifiers of a proposal are not bounded in length. -/
def proposalIdentifier (value : String) : Bool := !containsAny separators value

instance : Model DiffProposal where
  name := "DiffProposal"
  normalize := id
  checks p := [
    ("proposal_id", recordIdSafe p.proposalId),
    ("run_id", proposalIdentifier p.runId),
    ("task_id", proposalIdentifier p.taskId),
    ("submitted_by", proposalIdentifier p.submittedBy),
    ("role", proposalIdentifier p.role),
    ("patch_text", decide (1 ≤ p.patchText.length)),
    ("patch_digest", isDigest p.patchDigest),
    ("changed_files", decide (p.changedFiles ≠ [])),
    ("summary", lengthWithin 1 300 p.summary)]
  normalize_idem _ := rfl

/-- The outcome of one attempt to apply a proposal. -/
structure DiffApplyRecord where
  proposalId : RecordId
  runId : String
  taskId : String
  applied : Bool
  changedFiles : List String := []
  verifierDecision : PolicyDecision
  releaseGuardianDecision : PolicyDecision
  beforeDigest : Option String := none
  afterFileDigests : Dict String := []
  blocker : Option String := none
  createdAt : String
deriving DecidableEq, Repr

instance : Model DiffApplyRecord where
  name := "DiffApplyRecord"
  normalize := id
  checks r := [("before_digest", optionally isDigest r.beforeDigest)]
  normalize_idem _ := rfl

/-- `create_diff_proposal`'s arguments. -/
structure DiffProposalRequest where
  runId : String
  taskId : String
  submittedBy : String
  role : String
  patchText : String
  changedFiles : List String
  summary : String
deriving DecidableEq, Repr

/-- `path.replace("\\", "/")`. -/
def slashed (path : String) : List Char :=
  path.toList.map (fun c => if c = '\\' then '/' else c)

/-- One turn of `_normalize_changed_files`. -/
def normalizeChangedFile (path : String) : Except PyError String :=
  let cleaned := slashed path
  if cleaned.head? = some '/' ∨ ['.', '.'] ∈ cleaned.splitOn '/' then
    .error (.valueError ("unsafe changed file path: " ++ path))
  else .ok (String.ofList cleaned)

/-- `_normalize_changed_files`. -/
def normalizeChangedFiles : List String → Except PyError (List String)
  | [] => .ok []
  | path :: rest => do
    let cleaned ← normalizeChangedFile path
    let others ← normalizeChangedFiles rest
    pure (cleaned :: others)

/-- The data `create_diff_proposal` hands to the constructor. -/
def proposalData (sha256 : String → String) (r : DiffProposalRequest) (files : List String)
    (now : DateTime) (id : RecordId) : DiffProposal where
  proposalId := id
  runId := r.runId
  taskId := r.taskId
  submittedBy := r.submittedBy
  role := r.role
  patchText := r.patchText
  patchDigest := sha256 r.patchText
  changedFiles := files.insertionSort (· ≤ ·)
  createdAt := now.isoformat
  summary := r.summary

/-- A proposal that is complete but for the uuid in its id, which passes whatever it is. -/
abbrev UnnamedProposal : Type :=
  { p : RecordId → DiffProposal // (∀ k, (p k).proposalId = k) ∧
    ∀ n, Model.Valid (p (.generated n)) }

/-- `create_diff_proposal`. -/
def createDiffProposal (sha256 : String → String) (r : DiffProposalRequest) (now : DateTime) :
    Except PyError UnnamedProposal :=
  match normalizeChangedFiles r.changedFiles with
  | .error e => .error e
  | .ok files =>
    let data := proposalData sha256 r files now
    if h : failedFields (Model.checks (data (.generated 0))) = [] then
      .ok ⟨data, fun _ => rfl, fun _ => ⟨rfl, h⟩⟩
    else .error (.validationError "DiffProposal" (failedFields (Model.checks (data (.generated 0)))))

end Vad
