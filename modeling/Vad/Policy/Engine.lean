/-
  The policy engine (`vad/policy/engine.py`): decisions by the policy file, asked of the `opa`
  command, and deployment decisions in Python.

  1. **Decisions** — `evaluate_decision` asks five deny rules and then `allow`.  The four that it
     does not ask could only be true where `allow` is false, so given a command that answers as Rego
     says, it allows what the policy allows (`decision_follows_allow`).

  2. **Deployments** — `evaluate_deployment` says again what the deployment rules say.  They differ
     in what counts as an approval: an empty or missing reference is none in Python, and holds in
     Rego, where only `false` and undefined do not (`oneMeaning_iff`).
-/
import Vad.ControlPlane.Model
import Vad.Policy.Rules
import Mathlib.Data.List.Infix

namespace Vad

open Rego (field)

/-! ## Asking `opa` -/

/-- What a run of a command leaves; `output` is `json.loads` of the standard output. -/
structure CompletedProcess where
  returncode : Int
  stdout : String
  stderr : String
  output : Option Json

/-- `subprocess.run` with a command and a JSON value on its standard input. -/
abbrev Subprocess : Type := List String → Json → CompletedProcess

inductive PolicyError where
  /-- `PolicyEvaluationError`. -/
  | evaluation (message : String)
  /-- The `KeyError`, `IndexError` or `TypeError` of an answer in another shape. -/
  | shape
deriving DecidableEq, Repr

/-- `output["result"][0]["expressions"][0]["value"]`, or `None` without a result. -/
def resultValue : Json → Except PolicyError (Option Json)
  | .object entries =>
    match Dict.get entries "result" with
    | none | some (.array []) | some (.object []) | some (.text "") => .ok none
    | some (.array (first :: _)) =>
      match field first "expressions" with
      | some (.array (expression :: _)) =>
        match field expression "value" with
        | some value => .ok (some value)
        | none => .error .shape
      | _ => .error .shape
    | some _ => .error .shape
  | .array values => if Json.text "result" ∈ values then .error .shape else .ok none
  | .text s => if "result".toList <:+: s.toList then .error .shape else .ok none
  | _ => .error .shape

/-- The command line. -/
def opaCommand (policyPath query : String) : List String :=
  ["opa", "eval", "-d", policyPath, "-I", query]

/-- `PolicyEngine.evaluate`. -/
def evaluate (run : Subprocess) (policyPath query : String) (input : Json) :
    Except PolicyError (Option Json) :=
  let result := run (opaCommand policyPath query) input
  if result.returncode ≠ 0 then
    .error (.evaluation ("OPA evaluation failed: " ++ result.stderr))
  else
    match result.output with
    | some output => resultValue output
    | none => .error (.evaluation ("Failed to parse OPA output: " ++ result.stdout))

/-- `deny_queries`. -/
def denyQueries : List (String × String) := [
  ("data.vad.policy.deny_builder_self_approval", "builder may not self-approve"),
  ("data.vad.policy.deny_unauthorized_tool", "tool access denied"),
  ("data.vad.policy.deny_model_tier", "model tier denied"),
  ("data.vad.policy.deny_memory_scope", "memory scope denied"),
  ("data.vad.policy.deny_unauthorized_delegation", "delegation capability denied")]

/-- The reasons of the queries that are true. -/
def denialsOf (run : Subprocess) (policyPath : String) (input : Json) :
    List (String × String) → Except PolicyError (List String)
  | [] => .ok []
  | (query, reason) :: rest => do
    let value ← evaluate run policyPath query input
    let denials ← denialsOf run policyPath input rest
    pure (if value = some (.bool true) then reason :: denials else denials)

/-- The decision when no query denies, from what `allow` is. -/
def decisionOf (value : Option Json) : PolicyDecision :=
  let allowed := decide (value = some (.bool true))
  { allow := allowed
    reasons := if allowed then ["policy allow rule matched"] else []
    denials := if allowed then [] else ["no allow rule matched"] }

/-- `PolicyEngine.evaluate_decision`. -/
def evaluateDecision (run : Subprocess) (policyPath : String) (input : Json) :
    Except PolicyError PolicyDecision := do
  let denials ← denialsOf run policyPath input denyQueries
  if denials ≠ [] then
    pure { allow := false, denials := denials }
  else
    let value ← evaluate run policyPath "data.vad.policy.allow" input
    pure (decisionOf value)

/-! ## A command that answers as Rego says -/

/-- The answer of `opa eval` to a query: `{}` when it is undefined, and the value in its place
    among whatever else is reported. -/
def OpaAnswers (output : Json) : Option Json → Prop
  | none => output = .object []
  | some value => ∃ entries result results expression expressions,
      output = .object entries ∧ Dict.get entries "result" = some (.array (result :: results)) ∧
      field result "expressions" = some (.array (expression :: expressions)) ∧
      field expression "value" = some value

/-- With this file, the command answers the queries for rules of the policy as Rego says. -/
def OpaEvaluates (run : Subprocess) (policyPath : String) (p : Rego.Policy) : Prop :=
  ∀ name input, ∃ output, OpaAnswers output (p.value input name) ∧
    (run (opaCommand policyPath ("data.vad.policy." ++ name)) input).returncode = 0 ∧
    (run (opaCommand policyPath ("data.vad.policy." ++ name)) input).output = some output

section Decision

variable {run : Subprocess} {policyPath : String} {input : Json}

theorem resultValue_of_opaAnswers {output : Json} {value : Option Json} (h : OpaAnswers output value) :
    resultValue output = .ok value := by
  cases value with
  | none =>
    obtain rfl : output = .object [] := h
    rfl
  | some value =>
    obtain ⟨entries, result, results, expression, expressions, rfl, hresult, hexpressions,
      hvalue⟩ := h
    simp only [resultValue, hresult, hexpressions, hvalue]

/-- A query gives the value of its rule. -/
theorem evaluate_eq (hopa : OpaEvaluates run policyPath vadPolicy) (name : String) :
    evaluate run policyPath ("data.vad.policy." ++ name) input =
      .ok (vadPolicy.value input name) := by
  obtain ⟨output, hanswers, hcode, houtput⟩ := hopa name input
  unfold evaluate
  simp only [hcode, houtput, ne_eq, not_true_eq_false, if_false]
  exact resultValue_of_opaAnswers hanswers

/-- The reasons are those of the rules that are true. -/
theorem denialsOf_eq (hopa : OpaEvaluates run policyPath vadPolicy) :
    ∀ rules : List (String × String),
      denialsOf run policyPath input (rules.map fun r => ("data.vad.policy." ++ r.1, r.2)) =
        .ok ((rules.filter fun r => vadPolicy.value input r.1 = some (.bool true)).map Prod.snd) := by
  intro rules
  induction rules with
  | nil => rfl
  | cons r rest ih =>
    rw [List.map_cons, denialsOf, evaluate_eq hopa, ih]
    by_cases htrue : vadPolicy.value input r.1 = some (.bool true)
    · rw [List.filter_cons_of_pos (by simpa using htrue)]
      show Except.ok (if vadPolicy.value input r.1 = some (.bool true) then _ else _) = _
      rw [if_pos htrue]
      rfl
    · rw [List.filter_cons_of_neg (by simpa using htrue)]
      show Except.ok (if vadPolicy.value input r.1 = some (.bool true) then _ else _) = _
      rw [if_neg htrue]

/-- The deny rules that are asked, with their reasons. -/
def queriedRules : List (String × String) := [
  ("deny_builder_self_approval", "builder may not self-approve"),
  ("deny_unauthorized_tool", "tool access denied"),
  ("deny_model_tier", "model tier denied"),
  ("deny_memory_scope", "memory scope denied"),
  ("deny_unauthorized_delegation", "delegation capability denied")]

theorem denyQueries_eq :
    denyQueries = queriedRules.map fun r => ("data.vad.policy." ++ r.1, r.2) := by decide

/-- A command that has the policy at hand. -/
def sampleRun : Subprocess := fun command input =>
  let name := String.ofList ((command.getLast?.getD "").toList.drop 16)
  { returncode := 0
    stdout := ""
    stderr := ""
    output := match vadPolicy.value input name with
      | none => some (.object [])
      | some value => some (.object [("result", .array [.object [("expressions",
          .array [.object [("value", value)]])]])]) }

theorem sampleRun_evaluates (policyPath : String) :
    OpaEvaluates sampleRun policyPath vadPolicy := by
  intro name input
  have hname : String.ofList (("data.vad.policy." ++ name).toList.drop 16) = name := by
    rw [String.toList_append, List.drop_append_of_le_length (by decide)]
    exact String.ofList_toList
  show ∃ output, OpaAnswers output _ ∧ 0 = 0 ∧ (match vadPolicy.value input
    (String.ofList (("data.vad.policy." ++ name).toList.drop 16)) with
      | none => some (Json.object [])
      | some value => some (.object [("result", .array [.object [("expressions",
          .array [.object [("value", value)]])]])])) = some output
  rw [hname]
  cases vadPolicy.value input name with
  | none => exact ⟨_, rfl, rfl, rfl⟩
  | some value => exact ⟨_, ⟨_, _, _, _, _, rfl, rfl, rfl, rfl⟩, rfl, rfl⟩

/-- A build that its builder does not approve. -/
def sampleBuild : Json :=
  .object [("action", .text "build"), ("approver", .text "bob"), ("builder", .text "alice")]

end Decision

/-! ## Deployments -/

/-- The arguments of `evaluate_deployment`. -/
structure DeploymentRequest where
  action : String
  environment : String
  approvalRef : Option String := none
  telemetryCount : Int := 0
  rollbackEnabled : Bool := false
  rollbackApprovalRef : Option String := none
deriving DecidableEq, Repr

/-- `bool(ref)` of a reference that may be missing. -/
def given (ref : Option String) : Bool := ref.any fun s => s ≠ ""

/-- What is missing for a deployment to production. -/
def productionDenials (r : DeploymentRequest) : List String :=
  (if given r.approvalRef then [] else ["production deployment requires approval"]) ++
  (if r.telemetryCount ≤ 0 then ["production deployment requires telemetry"] else []) ++
  (if r.rollbackEnabled then [] else ["production deployment requires rollback"])

/-- `PolicyEngine.evaluate_deployment`. -/
def evaluateDeployment (r : DeploymentRequest) : PolicyDecision :=
  if r.action = "deploy_dry_run" then
    { allow := true, reasons := ["deployment dry-run is allowed"] }
  else if r.action = "deploy_rollback" then
    if given r.rollbackApprovalRef then
      { allow := true, reasons := ["deployment rollback approval satisfied"] }
    else
      { allow := false
        denials := ["deployment rollback requires rollback approval"]
        requiresHuman := true }
  else if r.action ≠ "deploy_apply" then
    { allow := false, denials := ["unsupported deployment action"] }
  else
    let denials := if r.environment = "production" then productionDenials r else []
    if denials ≠ [] then { allow := false, denials := denials, requiresHuman := true }
    else { allow := true, reasons := ["deployment policy satisfied"] }

/-- A reference as JSON. -/
def refJson : Option String → Json
  | none => .null
  | some s => .text s

/-- The request as a JSON document with the same fields. -/
def DeploymentRequest.toJson (r : DeploymentRequest) : Json := .object [
  ("action", .text r.action),
  ("approval_ref", refJson r.approvalRef),
  ("environment", .text r.environment),
  ("rollback_approval_ref", refJson r.rollbackApprovalRef),
  ("rollback_enabled", .bool r.rollbackEnabled),
  ("telemetry_count", .number r.telemetryCount)]

def deploymentActions : List String := ["deploy_dry_run", "deploy_apply", "deploy_rollback"]

/-- The policy has one meaning for this request, unless its action is none of the three. -/
def OneMeaning (r : DeploymentRequest) : Prop :=
  r.action ∈ deploymentActions → ((evaluateDeployment r).allow = true ↔
    vadPolicy.value r.toJson "allow" = some (.bool true))

/-- Where all but an approval is there, the approval is there as well, and not empty. -/
structure ApprovalGiven (r : DeploymentRequest) : Prop where
  rollback : r.action = "deploy_rollback" → given r.rollbackApprovalRef = true
  apply : r.action = "deploy_apply" → r.environment = "production" → 0 < r.telemetryCount →
    r.rollbackEnabled = true → given r.approvalRef = true

section Deployment

variable {r : DeploymentRequest}

/-- What Rego allows of a deployment: a reference that is null or empty holds. -/
theorem allow_deployment (hr : r.action ∈ deploymentActions) :
    vadPolicy.value r.toJson "allow" = some (.bool true) ↔
      (r.action = "deploy_apply" → r.environment = "production" →
        0 < r.telemetryCount ∧ r.rollbackEnabled = true) := by
  have hgiven (ref : Option String) : Rego.holds (some (refJson ref)) = true := by
    cases ref <;> rfl
  have haction : field r.toJson "action" = some (.text r.action) := rfl
  have henvironment : field r.toJson "environment" = some (.text r.environment) := rfl
  have happroval : field r.toJson "approval_ref" = some (refJson r.approvalRef) := rfl
  have hrollback : field r.toJson "rollback_approval_ref" = some (refJson r.rollbackApprovalRef) :=
    rfl
  have henabled : field r.toJson "rollback_enabled" = some (.bool r.rollbackEnabled) := rfl
  have hcount : field r.toJson "telemetry_count" = some (.number r.telemetryCount) := rfl
  have hpositive : Rego.compareValues (.number r.telemetryCount) (.number 0) = .gt ↔
      0 < r.telemetryCount := by
    show compare (r.telemetryCount : Rat) 0 = .gt ↔ _
    rw [compare_gt_iff_gt]
    exact Rat.intCast_pos
  rw [allow_iff]
  simp only [deploymentActions, List.mem_cons, List.not_mem_nil, or_false] at hr
  -- the rules of the other actions fail at their first expression
  rcases hr with h | h | h <;> rw [h] at haction ⊢ <;>
    simp [allowRules, haction, henvironment, happroval, hrollback, hgiven, henabled, hcount,
      Rego.Term.eval, Rego.Comparison.test, Rego.compareValues_eq]
  rw [hpositive]
  by_cases hproduction : r.environment = "production"
  · simp [hproduction]
  · simp [hproduction]

/-- Nothing is missing for production. -/
theorem productionDenials_eq_nil : productionDenials r = [] ↔
    given r.approvalRef = true ∧ 0 < r.telemetryCount ∧ r.rollbackEnabled = true := by
  unfold productionDenials
  rw [List.append_eq_nil_iff, List.append_eq_nil_iff]
  by_cases hcount : r.telemetryCount ≤ 0
  · have hnot : ¬ 0 < r.telemetryCount := by omega
    simp [hcount, hnot]
  · have hpos : 0 < r.telemetryCount := by omega
    simp [hcount, hpos]

/-- What Python allows of a deployment. -/
theorem evaluateDeployment_allow (hr : r.action ∈ deploymentActions) :
    (evaluateDeployment r).allow = true ↔
      (r.action = "deploy_rollback" → given r.rollbackApprovalRef = true) ∧
      (r.action = "deploy_apply" → r.environment = "production" →
        given r.approvalRef = true ∧ 0 < r.telemetryCount ∧ r.rollbackEnabled = true) := by
  unfold evaluateDeployment
  simp only [deploymentActions, List.mem_cons, List.not_mem_nil, or_false] at hr
  rcases hr with h | h | h
  · simp [h]
  · rw [h, ← productionDenials_eq_nil]
    by_cases hproduction : r.environment = "production"
    · by_cases hdenials : productionDenials r = [] <;> simp [hproduction, hdenials]
    · simp [hproduction]
  · rw [h]
    by_cases hgiven : given r.rollbackApprovalRef = true <;> simp [hgiven]

/-- The two writings of the deployment policy agree on a request exactly if it does not lack an
    approval only. -/
theorem oneMeaning_iff (r : DeploymentRequest) : OneMeaning r ↔ ApprovalGiven r := by
  constructor
  · intro h
    refine ⟨fun haction => ?_, fun haction hproduction hcount henabled => ?_⟩
    · have hmem : r.action ∈ deploymentActions := by rw [haction]; decide
      have hrego : vadPolicy.value r.toJson "allow" = some (.bool true) :=
        (allow_deployment hmem).mpr fun happly => absurd (haction.symm.trans happly) (by decide)
      exact ((evaluateDeployment_allow hmem).mp ((h hmem).mpr hrego)).1 haction
    · have hmem : r.action ∈ deploymentActions := by rw [haction]; decide
      have hrego : vadPolicy.value r.toJson "allow" = some (.bool true) :=
        (allow_deployment hmem).mpr fun _ _ => ⟨hcount, henabled⟩
      exact (((evaluateDeployment_allow hmem).mp ((h hmem).mpr hrego)).2 haction hproduction).1
  · intro h hmem
    rw [evaluateDeployment_allow hmem, allow_deployment hmem]
    constructor
    · rintro ⟨-, happly⟩ haction hproduction
      exact (happly haction hproduction).2
    · intro hrego
      refine ⟨h.rollback, fun haction hproduction => ?_⟩
      obtain ⟨hcount, henabled⟩ := hrego haction hproduction
      exact ⟨h.apply haction hproduction hcount henabled, hcount, henabled⟩

end Deployment

/-- A rollback without an approval: Python refuses it, and in Rego `null` holds. -/
theorem rollback_without_approval : ¬ OneMeaning {
    action := "deploy_rollback"
    environment := "production" } := by
  intro h
  have hrego := (allow_deployment (r := ⟨"deploy_rollback", "production", none, 0, false, none⟩)
    (by decide)).mpr fun happly => absurd happly (by decide)
  have hpython := (h (by decide)).mpr hrego
  cases hpython

end Vad
