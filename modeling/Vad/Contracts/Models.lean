/-
  The execution intent protocol (`vad/contracts/models.py`) and its normal form
  (`vad/contracts/normalize.py`).

  An `EIP` says what is to be built and under which proof obligations, budgets and release gates.
  Costs are exact rationals.  The normal form sorts every list whose order carries no meaning; the
  digest of an EIP is taken of its normal form, so that it does not depend on these orders.
-/
import Vad.ControlPlane.Model
import Vad.Lib.Text

namespace Vad

/-! ## The model -/

inductive RiskTier where
  | low | medium | high
deriving DecidableEq, Repr

inductive AutonomyTier where
  | manual | assisted | bounded | autonomous
deriving DecidableEq, Repr

inductive ProofKind where
  | unit | property | contract | security | performance | policy | release | telemetry | manualGate
deriving DecidableEq, Repr

def ProofKind.value : ProofKind → String
  | .unit => "unit"
  | .property => "property"
  | .contract => "contract"
  | .security => "security"
  | .performance => "performance"
  | .policy => "policy"
  | .release => "release"
  | .telemetry => "telemetry"
  | .manualGate => "manual_gate"

structure Goal where
  description : String
  successCriteria : List String
deriving DecidableEq, Repr

structure ProofObligation where
  id : String
  kind : ProofKind
  description : String
deriving DecidableEq, Repr

structure Invariants where
  security : List String := []
  performance : List String := []
  functional : List String := []
deriving DecidableEq, Repr

structure Constraints where
  security : List String := []
  privacy : List String := []
  operational : List String := []
deriving DecidableEq, Repr

structure ToolPermissions where
  allowed : List String := []
  denied : List String := []
deriving DecidableEq, Repr

structure MemoryRequirement where
  scope : String
  purpose : String
  maxPayloadSize : Int := 1024
deriving DecidableEq, Repr

structure ModelBudget where
  maxTokens : Int
  maxCost : Rat
  maxLoopDepth : Int
deriving DecidableEq, Repr

structure ReleaseRequirements where
  required : Bool
  strategy : Option String := none
  gates : List String := []
deriving DecidableEq, Repr

structure TelemetryRequirements where
  required : Bool
  signals : List String := []
deriving DecidableEq, Repr

structure EIP where
  version : String
  name : String
  goal : Goal
  nonGoals : List String
  riskTier : RiskTier
  autonomyTier : AutonomyTier
  scopeBoundaries : List String
  invariants : Invariants
  constraints : Constraints
  proofObligations : List ProofObligation
  toolPermissions : ToolPermissions
  memoryRequirements : List MemoryRequirement
  modelBudget : ModelBudget
  releaseRequirements : ReleaseRequirements
  telemetryRequirements : TelemetryRequirements
deriving DecidableEq, Repr

/-- `\d` of a pattern over Unicode text. -/
def isDecimal (c : Char) : Bool := (PyText.digitValue c).isSome

/-- `Field(pattern=r"^\d+\.\d+\.\d+$")`. -/
def isVersion (value : String) : Bool :=
  match value.toList.splitOn '.' with
  | [major, minor, patch] => [major, minor, patch].all (fun part => part ≠ [] && part.all isDecimal)
  | _ => false

instance : Model EIP where
  name := "EIP"
  normalize := id
  checks e := [
    ("version", isVersion e.version),
    ("memory_requirements.max_payload_size",
      e.memoryRequirements.all (fun r => decide (1 ≤ r.maxPayloadSize))),
    ("model_budget.max_tokens", decide (0 ≤ e.modelBudget.maxTokens)),
    ("model_budget.max_cost", decide (0 ≤ e.modelBudget.maxCost)),
    ("model_budget.max_loop_depth", decide (1 ≤ e.modelBudget.maxLoopDepth)),
    ("release_requirements",
      !(e.releaseRequirements.required && !e.telemetryRequirements.required))]
  normalize_idem _ := rfl

theorem EIP.maxTokens_nonneg (e : Checked EIP) : 0 ≤ e.1.modelBudget.maxTokens := by
  have h := failedFields_eq_nil.mp e.2.2
  have hcheck := h ("model_budget.max_tokens", decide (0 ≤ e.1.modelBudget.maxTokens))
    (by simp [Model.checks])
  exact of_decide_eq_true hcheck

/-- `require_telemetry_for_release`. -/
theorem EIP.telemetry_of_release (e : Checked EIP) (h : e.1.releaseRequirements.required = true) :
    e.1.telemetryRequirements.required = true := by
  have hall := failedFields_eq_nil.mp e.2.2
  have hcheck := hall ("release_requirements",
    !(e.1.releaseRequirements.required && !e.1.telemetryRequirements.required))
    (by simp [Model.checks])
  simpa [h] using hcheck

/-! ## The normal form -/

/-- `_sorted_scalars`. -/
def sortedScalars (values : List String) : List String := values.insertionSort (· ≤ ·)

def ProofObligation.before (a b : ProofObligation) : Bool :=
  orderedBy [compare a.id b.id, compare a.kind.value b.kind.value,
    compare a.description b.description]

def MemoryRequirement.before (a b : MemoryRequirement) : Bool :=
  orderedBy [compare a.scope b.scope, compare a.purpose b.purpose,
    compare a.maxPayloadSize b.maxPayloadSize]

/-- `normalize_eip`. -/
def normalizeEip (e : EIP) : EIP :=
  { e with
    nonGoals := sortedScalars e.nonGoals
    scopeBoundaries := sortedScalars e.scopeBoundaries
    invariants := {
      security := sortedScalars e.invariants.security
      performance := sortedScalars e.invariants.performance
      functional := sortedScalars e.invariants.functional }
    constraints := {
      security := sortedScalars e.constraints.security
      privacy := sortedScalars e.constraints.privacy
      operational := sortedScalars e.constraints.operational }
    proofObligations := e.proofObligations.insertionSort (fun a b => a.before b = true)
    toolPermissions := {
      allowed := sortedScalars e.toolPermissions.allowed
      denied := sortedScalars e.toolPermissions.denied }
    memoryRequirements := e.memoryRequirements.insertionSort (fun a b => a.before b = true)
    releaseRequirements := { e.releaseRequirements with
      gates := sortedScalars e.releaseRequirements.gates }
    telemetryRequirements := { e.telemetryRequirements with
      signals := sortedScalars e.telemetryRequirements.signals } }

end Vad
