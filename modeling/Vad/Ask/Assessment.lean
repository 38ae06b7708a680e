/-
  Asks (`vad/ask/classifier.py`, `vad/ask/questions.py`) and the intent made of them
  (`vad/ask/assessment.py`).

  An ask is classified by the words that occur in it, lower-cased; `lower` stands for `str.lower`.
  Whatever the ask says, the intent made of its assessment is valid and its obligations have
  distinct ids (`eip_of_ask`): what comes after an assessment never fails because of it.
-/
import Vad.Contracts.Models
import Mathlib.Data.List.Infix
import Mathlib.Tactic.IntervalCases

namespace Vad

open PyText (Text strip isSpace)

/-! ## The assessment -/

/-- `EffortType` of an ask. -/
inductive AskEffortType where
  | bugfix | feature | refactor | greenfield | test | migration
deriving DecidableEq, Repr

structure MeesBudget where
  minimumScore : Int := 70
  maxChangedFiles : Int := 5
  allowNewDependencies : Bool := false
  requiresJustification : Bool := false
deriving DecidableEq, Repr

structure AskAssessment where
  summary : String
  ambiguityScore : Int
  riskTier : RiskTier
  autonomyTier : AutonomyTier
  effortType : AskEffortType
  requiredProofKinds : List String
  toolNeeds : List String
  memoryNeeds : List String
  modelTier : String
  budget : Rat
  tokenBudget : Int
  loopDepth : Int
  releaseNeeded : Bool
  telemetryNeeded : Bool
  clarificationQuestions : List String
  meesBudget : MeesBudget
deriving DecidableEq, Repr

instance : Model AskAssessment where
  name := "AskAssessment"
  normalize := id
  checks a := [
    ("ambiguity_score", decide (0 ≤ a.ambiguityScore) && decide (a.ambiguityScore ≤ 100)),
    ("budget", decide (0 ≤ a.budget)),
    ("token_budget", decide (0 ≤ a.tokenBudget)),
    ("loop_depth", decide (1 ≤ a.loopDepth)),
    ("mees_budget.minimum_score",
      decide (0 ≤ a.meesBudget.minimumScore) && decide (a.meesBudget.minimumScore ≤ 100)),
    ("mees_budget.max_changed_files", decide (1 ≤ a.meesBudget.maxChangedFiles))]
  normalize_idem _ := rfl

theorem AskAssessment.minimumScore_bounds (a : Checked AskAssessment) :
    0 ≤ a.1.meesBudget.minimumScore ∧ a.1.meesBudget.minimumScore ≤ 100 := by
  have h := failedFields_eq_nil.mp a.2.2 ("mees_budget.minimum_score",
    decide (0 ≤ a.1.meesBudget.minimumScore) && decide (a.1.meesBudget.minimumScore ≤ 100))
    (by simp [Model.checks])
  simpa using h

/-- `blocks_autonomous_execution`. -/
def AskAssessment.blocksAutonomousExecution (a : AskAssessment) : Bool :=
  decide (a.clarificationQuestions ≠ []) || decide (a.autonomyTier = .manual)

/-! ## Classifying an ask -/

/-- `any(marker in text for marker in markers)`. -/
def occurs (markers : List String) (text : Text) : Bool :=
  markers.any fun marker => decide (marker.toList <:+: text)

/-- `clarification_questions`, of the lower-cased text. -/
def clarificationQuestions (text : Text) : List String :=
  (if occurs ["so that", "success", "acceptance", "done when", "must"] text then [] else
    ["What success criteria must be proven before this is complete?"]) ++
  (if occurs ["in ", "within ", "only ", "scope", "file", "module", "service"] text then [] else
    ["What code, service, or module boundaries define the scope?"]) ++
  (if occurs ["maybe", "somehow", "unclear", "tbd", "whatever"] text then
    ["Which ambiguous requirement should be resolved before autonomous work begins?"] else [])

/-- `_risk_tier`. -/
def riskTierOf (text : Text) : RiskTier :=
  if occurs ["security", "auth", "payment", "privacy", "production", "delete", "migration",
    "database"] text then .high
  else if occurs ["api", "release", "deploy", "integration"] text then .medium
  else .low

/-- `_effort_type`. -/
def effortTypeOf (text : Text) : AskEffortType :=
  if occurs ["fix", "bug", "regression", "broken"] text then .bugfix
  else if occurs ["refactor", "cleanup", "simplify"] text then .refactor
  else if occurs ["test", "coverage", "spec"] text then .test
  else if occurs ["migrate", "migration"] text then .migration
  else if occurs ["new project", "from scratch", "greenfield"] text then .greenfield
  else .feature

/-- `_autonomy_tier`. -/
def autonomyTierOf (risk : RiskTier) (questions : List String) (text : Text) : AutonomyTier :=
  if questions ≠ [] ∨ risk = .high ∨ occurs ["delete", "drop", "credential"] text then .manual
  else if risk = .medium then .bounded
  else .assisted

/-- `_proof_kinds`: a set of six names at most, sorted. -/
def proofKindsOf (text : Text) (releaseNeeded telemetryNeeded : Bool) : List String :=
  sortedScalars (["unit"] ++
    (if occurs ["invariant", "property", "random", "fuzz"] text then ["property"] else []) ++
    (if occurs ["api", "contract"] text then ["contract"] else []) ++
    (if occurs ["security", "auth", "privacy"] text then ["security"] else []) ++
    (if releaseNeeded then ["release"] else []) ++
    (if telemetryNeeded then ["telemetry"] else []))

/-- `_tool_needs`. -/
def toolNeedsOf (text : Text) : List String :=
  sortedScalars (["pytest"] ++ (if occurs ["docker"] text then ["docker"] else []) ++
    (if occurs ["git"] text then ["git"] else []))

/-- `_mees_budget`. -/
def meesBudgetOf (effort : AskEffortType) (risk : RiskTier) : MeesBudget where
  minimumScore := if risk = .high then 80 else 70
  maxChangedFiles := if effort = .bugfix then 3 else 5
  allowNewDependencies := false
  requiresJustification := decide (risk = .high)

/-- `text.split()`. -/
def words (text : Text) : List Text := (text.splitOnP isSpace).filter (fun w => w ≠ [])

/-- `_summary`. -/
def summaryOf (text : Text) : String :=
  String.ofList ((List.intercalate [' '] (words text)).take 200)

/-- What `assess_ask` hands to the constructor. -/
def assessmentData (lower : Text → Text) (ask : Text) : AskAssessment :=
  let text := strip ask
  let lowered := lower text
  let questions := clarificationQuestions lowered
  let risk := riskTierOf lowered
  let effort := effortTypeOf lowered
  let autonomy := autonomyTierOf risk questions lowered
  let releaseNeeded := occurs ["deploy", "release", "production", "rollout"] lowered
  let telemetryNeeded := releaseNeeded || decide (risk = .high)
  { summary := summaryOf text
    ambiguityScore := min 100 (questions.length * 35)
    riskTier := risk
    autonomyTier := autonomy
    effortType := effort
    requiredProofKinds := proofKindsOf lowered releaseNeeded telemetryNeeded
    toolNeeds := toolNeedsOf lowered
    memoryNeeds := ["project"]
    modelTier := if risk = .high then "tier2" else "tier1"
    budget := if risk = .high then 2 else 1
    tokenBudget := if risk = .high then 8000 else 10000
    loopDepth := if autonomy = .manual then 1 else 3
    releaseNeeded := releaseNeeded
    telemetryNeeded := telemetryNeeded
    clarificationQuestions := questions
    meesBudget := meesBudgetOf effort risk }

/-- `assess_ask`. -/
def assessAsk (lower : Text → Text) (ask : Text) : Except PyError (Checked AskAssessment) :=
  Model.build (assessmentData lower ask)

/-! ## The intent -/

/-- `ProofKind(value)`. -/
def ProofKind.ofValue (value : String) : Option ProofKind :=
  [.unit, .property, .contract, .security, .performance, .policy, .release, .telemetry,
    .manualGate].find? (fun kind => kind.value = value)

/-- The obligations of the required kinds, numbered from `index` on. -/
def obligationsFrom (summary : String) : Nat → List String → Except PyError (List ProofObligation)
  | _, [] => .ok []
  | index, kind :: rest =>
    match ProofKind.ofValue kind with
    | none => .error (.validationError "ProofObligation" ["kind"])
    | some proofKind =>
      match obligationsFrom summary (index + 1) rest with
      | .error e => .error e
      | .ok others => .ok ({
          id := "po-" ++ toString index
          kind := proofKind
          description := "Provide " ++ kind ++ " proof for: " ++ summary } :: others)

/-- What `eip_from_assessment` hands to the constructor. -/
def eipData (name : String) (a : AskAssessment) (obligations : List ProofObligation) : EIP where
  version := "1.0.0"
  name := name
  goal := ⟨a.summary, ["All proof obligations pass."]⟩
  nonGoals := []
  riskTier := a.riskTier
  autonomyTier := a.autonomyTier
  scopeBoundaries := []
  invariants := { functional := ["Implementation satisfies the assessed ask."] }
  constraints := { operational := a.clarificationQuestions }
  proofObligations := obligations
  toolPermissions := ⟨a.toolNeeds, ["network"]⟩
  memoryRequirements := a.memoryNeeds.map fun scope =>
    { scope := scope, purpose := "ask assessment context" }
  modelBudget := ⟨a.tokenBudget, a.budget, a.loopDepth⟩
  releaseRequirements := {
    required := a.releaseNeeded
    strategy := if a.releaseNeeded then some "gated" else none
    gates := if a.releaseNeeded then ["health"] else [] }
  telemetryRequirements := {
    required := a.telemetryNeeded
    signals := if a.telemetryNeeded then ["traces", "metrics"] else [] }

/-- `eip_from_assessment`. -/
def eipFromAssessment (name : String) (a : AskAssessment) : Except PyError (Checked EIP) :=
  match obligationsFrom a.summary 1 a.requiredProofKinds with
  | .error e => .error e
  | .ok obligations =>
    let manualGate : List ProofObligation :=
      if a.autonomyTier = .manual then [{
        id := "po-" ++ toString (obligations.length + 1)
        kind := .manualGate
        description := "Human approval required before autonomous implementation." }]
      else []
    Model.build (eipData name a (obligations ++ manualGate))

/-! ## The intent of an ask is valid -/

theorem obligationsFrom_ok {summary : String} {kinds : List String}
    (h : ∀ kind ∈ kinds, (ProofKind.ofValue kind).isSome = true) (index : Nat) :
    ∃ obligations, obligationsFrom summary index kinds = .ok obligations ∧
      obligations.map ProofObligation.id =
        (List.range' index kinds.length).map (fun i => "po-" ++ toString i) := by
  induction kinds generalizing index with
  | nil => exact ⟨[], rfl, rfl⟩
  | cons kind rest ih =>
    obtain ⟨proofKind, hkind⟩ := Option.isSome_iff_exists.mp (h kind (List.mem_cons_self ..))
    obtain ⟨others, hothers, hids⟩ := ih (fun k hk => h k (List.mem_cons_of_mem _ hk)) (index + 1)
    refine ⟨⟨"po-" ++ toString index, proofKind, "Provide " ++ kind ++ " proof for: " ++ summary⟩ ::
      others, ?_, ?_⟩
    · unfold obligationsFrom
      simp only [hkind, hothers]
    · rw [List.map_cons, hids]
      rfl

theorem proofKindsOf_known (text : Text) (releaseNeeded telemetryNeeded : Bool) :
    ∀ kind ∈ proofKindsOf text releaseNeeded telemetryNeeded,
      (ProofKind.ofValue kind).isSome = true := by
  have hknown : ∀ kind ∈ ["unit", "property", "contract", "security", "release", "telemetry"],
      (ProofKind.ofValue kind).isSome = true := by decide
  intro kind hkind
  have hmem := (List.mem_insertionSort _).mp hkind
  refine hknown kind ?_
  simp only [List.mem_append, List.mem_ite_nil_right, List.mem_cons, List.not_mem_nil, or_false] at hmem ⊢
  tauto

theorem proofKindsOf_length (text : Text) (releaseNeeded telemetryNeeded : Bool) :
    (proofKindsOf text releaseNeeded telemetryNeeded).length ≤ 6 := by
  have hone : ∀ (b : Bool) (kind : String), (if b then [kind] else []).length ≤ 1 := by
    intro b kind
    cases b
    · exact Nat.zero_le 1
    · exact Nat.le_refl 1
  unfold proofKindsOf sortedScalars
  rw [List.length_insertionSort]
  simp only [List.length_append, List.length_singleton]
  have h1 := hone (occurs ["invariant", "property", "random", "fuzz"] text) "property"
  have h2 := hone (occurs ["api", "contract"] text) "contract"
  have h3 := hone (occurs ["security", "auth", "privacy"] text) "security"
  have h4 := hone releaseNeeded "release"
  have h5 := hone telemetryNeeded "telemetry"
  omega

/-- Up to seven obligations have distinct ids. -/
theorem obligationIds_nodup {n : Nat} (h : n ≤ 7) :
    ((List.range' 1 n).map (fun i => "po-" ++ toString i)).Nodup := by
  interval_cases n <;> decide

/-- The assessment of an ask needs telemetry wherever it needs a release. -/
theorem assessmentData_telemetry (lower : Text → Text) (ask : Text)
    (h : (assessmentData lower ask).releaseNeeded = true) :
    (assessmentData lower ask).telemetryNeeded = true := by
  have hrelease : occurs ["deploy", "release", "production", "rollout"] (lower (strip ask)) = true :=
    h
  show (occurs _ _ || _) = true
  rw [hrelease]
  rfl

/-- **The intent made of an ask is valid, and its obligations have distinct ids.** -/
theorem eip_of_ask {lower : Text → Text} {ask : Text} {a : Checked AskAssessment}
    (h : assessAsk lower ask = .ok a) (name : String) :
    ∃ eip, eipFromAssessment name a.1 = .ok eip ∧
      (eip.1.proofObligations.map ProofObligation.id).Nodup := by
  have hdata : a.1 = assessmentData lower ask := Model.build_eq_ok h
  have hchecks := failedFields_eq_nil.mp a.2.2
  have htokens : 0 ≤ a.1.tokenBudget :=
    of_decide_eq_true (hchecks ("token_budget", decide (0 ≤ a.1.tokenBudget)) (by simp [Model.checks]))
  have hbudget : 0 ≤ a.1.budget :=
    of_decide_eq_true (hchecks ("budget", decide (0 ≤ a.1.budget)) (by simp [Model.checks]))
  have hdepth : 1 ≤ a.1.loopDepth :=
    of_decide_eq_true (hchecks ("loop_depth", decide (1 ≤ a.1.loopDepth)) (by simp [Model.checks]))
  have hkinds : a.1.requiredProofKinds = proofKindsOf (lower (strip ask))
      (assessmentData lower ask).releaseNeeded (assessmentData lower ask).telemetryNeeded := by
    rw [hdata]
    rfl
  have hknown : ∀ kind ∈ a.1.requiredProofKinds, (ProofKind.ofValue kind).isSome = true := by
    rw [hkinds]
    exact proofKindsOf_known _ _ _
  have hsix : a.1.requiredProofKinds.length ≤ 6 := by
    rw [hkinds]
    exact proofKindsOf_length _ _ _
  obtain ⟨obligations, hobligations, hids⟩ := @obligationsFrom_ok a.1.summary _ hknown 1
  have hlength : obligations.length = a.1.requiredProofKinds.length := by
    have := congrArg List.length hids
    simpa using this
  -- the intent passes its checks, whatever the obligations are
  have hvalid : ∀ obs, Model.Valid (eipData name a.1 obs) := by
    intro obs
    refine ⟨rfl, failedFields_eq_nil.mpr fun c hc => ?_⟩
    have htelemetry : (!(a.1.releaseNeeded && !a.1.telemetryNeeded)) = true := by
      have himp := assessmentData_telemetry lower ask
      rw [← hdata] at himp
      cases hrelease : a.1.releaseNeeded with
      | false => rfl
      | true => rw [himp hrelease]; rfl
    simp only [Model.checks, eipData, List.mem_cons, List.not_mem_nil, or_false] at hc
    rcases hc with rfl | rfl | rfl | rfl | rfl | rfl
    · show isVersion "1.0.0" = true
      decide
    · simp
    · exact decide_eq_true htokens
    · exact decide_eq_true hbudget
    · exact decide_eq_true hdepth
    · exact htelemetry
  unfold eipFromAssessment
  simp only [hobligations]
  refine ⟨_, Model.build_of_valid (hvalid _), ?_⟩
  show ((obligations ++ _).map ProofObligation.id).Nodup
  split
  · have hrange : obligations.map ProofObligation.id ++ ["po-" ++ toString (obligations.length + 1)] =
        (List.range' 1 (a.1.requiredProofKinds.length + 1)).map (fun i => "po-" ++ toString i) := by
      rw [hids, hlength, List.range'_concat, List.map_append, Nat.one_mul, Nat.add_comm 1]
      rfl
    rw [List.map_append]
    show (obligations.map ProofObligation.id ++ ["po-" ++ toString (obligations.length + 1)]).Nodup
    rw [hrange]
    exact obligationIds_nodup (by omega)
  · rw [List.append_nil, hids]
    exact obligationIds_nodup (by omega)

end Vad
