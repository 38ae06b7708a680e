/-
  Effort scores (`vad/effort/scoring.py`), token budgets (`vad/router/models.py`), and the evidence
  of a run (`vad/evidence/bundle.py`) as the recorder builds it (`vad/evidence/recorder.py`).

  The evidence carries its own check of the effort policy: a run with a score under 50 may only end
  in `needs_human` or `blocked`.  The recorder never fails on it when the caller keeps to that
  (`createRunEvidence_ok`).

  The events inside the evidence are JSON objects of a few fixed shapes, and are modelled as data;
  only the event of a provider is a JSON object of any shape.
-/
import Vad.Lib.Dict
import Vad.Verify.Runner

namespace Vad

/-! ## Effort -/

inductive EffortType where
  | bugfix | feature | refactor | greenfield | test | migration
deriving DecidableEq, Repr

def EffortType.value : EffortType → String
  | .bugfix => "bugfix"
  | .feature => "feature"
  | .refactor => "refactor"
  | .greenfield => "greenfield"
  | .test => "test"
  | .migration => "migration"

structure MeesPenalties where
  complexity : Int := 0
  maintainability : Int := 0
  diff : Int := 0
  spread : Int := 0
  dependency : Int := 0
  novelty : Int := 0
  risk : Int := 0
deriving DecidableEq, Repr

structure EffortScore where
  effortType : EffortType
  score : Int
  policy : String
  penalties : MeesPenalties
  warnings : List String := []
  requiresHuman : Bool := false
deriving DecidableEq, Repr

/-- `policy_for_score`. -/
def policyForScore (score : Int) : String :=
  if score < 50 then "block" else if score < 70 then "warn" else "pass"

/-- The bounds of the fields, and after them the two rules of `align_policy`. -/
instance : Model EffortScore where
  name := "EffortScore"
  normalize := id
  checks e := [
    ("score", decide (0 ≤ e.score ∧ e.score ≤ 100)),
    ("penalties.complexity", decide (0 ≤ e.penalties.complexity)),
    ("penalties.maintainability", decide (0 ≤ e.penalties.maintainability)),
    ("penalties.diff", decide (0 ≤ e.penalties.diff)),
    ("penalties.spread", decide (0 ≤ e.penalties.spread)),
    ("penalties.dependency", decide (0 ≤ e.penalties.dependency)),
    ("penalties.novelty", decide (0 ≤ e.penalties.novelty)),
    ("penalties.risk", decide (0 ≤ e.penalties.risk)),
    ("policy", decide (e.policy = policyForScore e.score)),
    ("policy", !(decide (e.policy = "block") && !e.requiresHuman))]
  normalize_idem _ := rfl

theorem EffortScore.score_bounds (e : Checked EffortScore) : 0 ≤ e.1.score ∧ e.1.score ≤ 100 := by
  have h := failedFields_eq_nil.mp e.2.2 ("score", decide (0 ≤ e.1.score ∧ e.1.score ≤ 100))
    (by simp [Model.checks])
  exact of_decide_eq_true h

theorem EffortScore.policy_eq (e : Checked EffortScore) : e.1.policy = policyForScore e.1.score := by
  have h := failedFields_eq_nil.mp e.2.2 ("policy", decide (e.1.policy = policyForScore e.1.score))
    (by simp [Model.checks])
  exact of_decide_eq_true h

structure DiffMetrics where
  changedFiles : Int
  insertions : Int
  deletions : Int
  dependencyFilesChanged : Int
  warnings : List String := []
deriving DecidableEq, Repr

instance : Model DiffMetrics where
  name := "DiffMetrics"
  normalize := id
  checks m := [
    ("changed_files", decide (0 ≤ m.changedFiles)),
    ("insertions", decide (0 ≤ m.insertions)),
    ("deletions", decide (0 ≤ m.deletions)),
    ("dependency_files_changed", decide (0 ≤ m.dependencyFilesChanged))]
  normalize_idem _ := rfl

/-- `DiffMetrics.line_delta`. -/
def DiffMetrics.lineDelta (m : DiffMetrics) : Int := m.insertions + m.deletions

theorem DiffMetrics.nonneg (m : Checked DiffMetrics) :
    0 ≤ m.1.changedFiles ∧ 0 ≤ m.1.lineDelta ∧ 0 ≤ m.1.dependencyFilesChanged := by
  have h := failedFields_eq_nil.mp m.2.2
  simp only [Model.checks, List.mem_cons, List.not_mem_nil, or_false, forall_eq_or_imp,
    forall_eq, decide_eq_true_eq] at h
  obtain ⟨hfiles, hins, hdel, hdeps⟩ := h
  exact ⟨hfiles, Int.add_nonneg hins hdel, hdeps⟩

/-! ## Token budgets -/

structure TokenBudget where
  budget : Int
  estimated : Int := 0
  used : Int := 0
  remaining : Int
  optimizationNotes : List String := []
  approvalRequired : Bool := false
deriving DecidableEq, Repr

instance : Model TokenBudget where
  name := "TokenBudget"
  normalize := id
  checks b := [
    ("budget", decide (0 ≤ b.budget)),
    ("estimated", decide (0 ≤ b.estimated)),
    ("used", decide (0 ≤ b.used)),
    ("remaining", decide (0 ≤ b.remaining))]
  normalize_idem _ := rfl

/-- `TokenBudget.create`. -/
def TokenBudget.create (budget : Int) (estimated : Int := 0) (optimizationNotes : List String := []) :
    Except PyError (Checked TokenBudget) :=
  Model.build {
    budget := budget
    estimated := estimated
    used := 0
    remaining := max 0 (budget - estimated)
    optimizationNotes := optimizationNotes
    approvalRequired := decide (estimated > budget) }

/-- `TokenBudget.record_usage`. -/
def TokenBudget.recordUsage (b : TokenBudget) (used : Int) : Except PyError (Checked TokenBudget) :=
  let totalUsed := b.used + used
  Model.build {
    budget := b.budget
    estimated := b.estimated
    used := totalUsed
    remaining := max 0 (b.budget - totalUsed)
    optimizationNotes := b.optimizationNotes
    approvalRequired := decide (totalUsed > b.budget) }

theorem TokenBudget.valid_iff {b : TokenBudget} :
    Model.Valid b ↔ 0 ≤ b.budget ∧ 0 ≤ b.estimated ∧ 0 ≤ b.used ∧ 0 ≤ b.remaining := by
  unfold Model.Valid
  rw [failedFields_eq_nil]
  simp [Model.normalize, Model.checks]

/-- A budget that is not negative can be created. -/
theorem TokenBudget.create_ok {budget : Int} (h : 0 ≤ budget) :
    ∃ b, TokenBudget.create budget = .ok b ∧ b.1.budget = budget ∧ b.1.used = 0 := by
  have hvalid : Model.Valid ({
      budget := budget
      remaining := max 0 (budget - 0)
      approvalRequired := decide (0 > budget) } : TokenBudget) :=
    TokenBudget.valid_iff.mpr ⟨h, Int.le_refl 0, Int.le_refl 0, Int.le_max_left ..⟩
  exact ⟨_, Model.build_of_valid hvalid, rfl, rfl⟩

/-- Usage that is not negative can be recorded. -/
theorem TokenBudget.recordUsage_ok (b : Checked TokenBudget) {used : Int} (h : 0 ≤ used) :
    ∃ b', TokenBudget.recordUsage b.1 used = .ok b' := by
  obtain ⟨hbudget, hestimated, hused, -⟩ := TokenBudget.valid_iff.mp b.2
  have hvalid : Model.Valid ({
      budget := b.1.budget
      estimated := b.1.estimated
      used := b.1.used + used
      remaining := max 0 (b.1.budget - (b.1.used + used))
      optimizationNotes := b.1.optimizationNotes
      approvalRequired := decide (b.1.used + used > b.1.budget) } : TokenBudget) :=
    TokenBudget.valid_iff.mpr ⟨hbudget, hestimated, Int.add_nonneg hused h, Int.le_max_left ..⟩
  exact ⟨_, Model.build_of_valid hvalid⟩

/-! ## Run evidence -/

structure AgentEvidence where
  builder : String
  verifier : String
deriving DecidableEq, Repr

structure VerificationEvidence where
  passed : Bool
  results : List VerifierResult := []
deriving DecidableEq, Repr

structure EffortEvidence where
  effortType : String
  mees : Int
  policy : String
  changedFiles : Int
  lineDelta : Int
  newDependencies : Int
  complexityDelta : Int
  maintainabilityDelta : Int
deriving DecidableEq, Repr

instance : Model EffortEvidence where
  name := "EffortEvidence"
  normalize := id
  checks e := [
    ("mees", decide (0 ≤ e.mees ∧ e.mees ≤ 100)),
    ("changed_files", decide (0 ≤ e.changedFiles)),
    ("line_delta", decide (0 ≤ e.lineDelta)),
    ("new_dependencies", decide (0 ≤ e.newDependencies))]
  normalize_idem _ := rfl

structure TokenEvidence where
  budget : Int
  estimated : Option Int := none
  used : Option Int := none
  remaining : Option Int := none
  optimizationNotes : List String := []
deriving DecidableEq, Repr

instance : Model TokenEvidence where
  name := "TokenEvidence"
  normalize := id
  checks t := [("budget", decide (0 ≤ t.budget))]
  normalize_idem _ := rfl

/-- `verification_tool_call`. -/
structure ToolCallEvent where
  obligationId : String
  call : ToolCall
deriving DecidableEq, Repr

/-- `model_budget`, or what a provider reported. -/
inductive RouteEvent where
  | budget (b : ModelBudget)
  | provider (event : Dict Json)

/-- `memory_requirement`, or `memory_requirements` when there is none. -/
inductive MemoryEvent where
  | none
  | requirement (r : MemoryRequirement)
deriving DecidableEq, Repr

/-- `release_gate`. -/
structure ReleaseEvent where
  required : Bool
  gates : List String
  decision : String
  error : Option String := none
deriving DecidableEq, Repr

structure RunEvidence where
  schemaVersion : String := "1.0.0"
  runId : String
  createdAt : String
  eipDigest : String
  proofPlanDigest : String
  agents : AgentEvidence
  policyDecisions : List PolicyDecision := []
  toolCalls : List ToolCallEvent := []
  modelRoutes : List RouteEvent := []
  memoryEvents : List MemoryEvent := []
  verification : Option VerificationEvidence := none
  release : Option ReleaseEvent := none
  effort : EffortEvidence
  tokens : TokenEvidence
  finalDecision : String
  blocker : Option String := none

/-- The decisions that leave the run to a person. -/
def held (finalDecision : String) : Bool :=
  decide (finalDecision = "needs_human" ∨ finalDecision = "blocked")

/-- The checks of the parts, and after them the two rules of `enforce_effort_policy`. -/
instance : Model RunEvidence where
  name := "RunEvidence"
  normalize := id
  checks e :=
    (Model.checks e.effort).map (fun c => ("effort." ++ c.1, c.2)) ++
    (Model.checks e.tokens).map (fun c => ("tokens." ++ c.1, c.2)) ++
    [("final_decision", !(decide (e.effort.mees < 50) && !held e.finalDecision)),
      ("final_decision", !(decide (e.effort.policy = "block") && !held e.finalDecision))]
  normalize_idem _ := rfl

theorem RunEvidence.valid_of_parts {e : RunEvidence} (heffort : Model.Valid e.effort)
    (htokens : Model.Valid e.tokens)
    (hpolicy : e.effort.mees < 50 ∨ e.effort.policy = "block" → held e.finalDecision = true) :
    Model.Valid e := by
  refine ⟨rfl, failedFields_eq_nil.mpr fun c hc => ?_⟩
  have heff := failedFields_eq_nil.mp heffort.2
  have htok := failedFields_eq_nil.mp htokens.2
  rcases List.mem_append.mp hc with hc | hc
  · rcases List.mem_append.mp hc with hc | hc
    · obtain ⟨x, hx, rfl⟩ := List.mem_map.mp hc
      exact heff x hx
    · obtain ⟨x, hx, rfl⟩ := List.mem_map.mp hc
      exact htok x hx
  · by_cases hheld : held e.finalDecision = true
    · simp only [List.mem_cons, List.not_mem_nil, or_false] at hc
      rcases hc with rfl | rfl <;> simp [hheld]
    · have hno : ¬ (e.effort.mees < 50 ∨ e.effort.policy = "block") := fun h => hheld (hpolicy h)
      simp only [not_or] at hno
      simp only [List.mem_cons, List.not_mem_nil, or_false] at hc
      rcases hc with rfl | rfl
      · simp [hno.1]
      · simp [hno.2]

/-! ## The recorder -/

/-- `_verification_evidence`. -/
def verificationEvidence (report : Option VerifierReport) : Option VerificationEvidence :=
  report.map fun r => { passed := r.passed, results := r.results }

/-- The data of `_effort_evidence`. -/
def effortData (score : Option EffortScore) (metrics : Option DiffMetrics) : EffortEvidence :=
  match score with
  | none => {
      effortType := "feature"
      mees := 100
      policy := "pass"
      changedFiles := 0
      lineDelta := 0
      newDependencies := 0
      complexityDelta := 0
      maintainabilityDelta := 0 }
  | some s => {
      effortType := s.effortType.value
      mees := s.score
      policy := s.policy
      changedFiles := (metrics.map DiffMetrics.changedFiles).getD 0
      lineDelta := (metrics.map DiffMetrics.lineDelta).getD 0
      newDependencies := (metrics.map DiffMetrics.dependencyFilesChanged).getD 0
      complexityDelta := s.penalties.complexity
      maintainabilityDelta := -s.penalties.maintainability }

/-- The data of `_token_evidence`. -/
def tokenData (eip : EIP) (tokenBudget : Option TokenBudget) : TokenEvidence :=
  match tokenBudget with
  | none => {
      budget := eip.modelBudget.maxTokens
      optimizationNotes := ["actual token usage unavailable in local reference loop"] }
  | some b => {
      budget := b.budget
      estimated := some b.estimated
      used := some b.used
      remaining := some b.remaining
      optimizationNotes := b.optimizationNotes }

/-- `_tool_call_events`. -/
def toolCallEvents (report : Option VerifierReport) : List ToolCallEvent :=
  match report with
  | none => []
  | some r => r.results.filterMap fun result =>
      result.toolCall.map fun call => ⟨result.obligationId, call⟩

/-- `_memory_events`. -/
def memoryEvents (eip : EIP) : List MemoryEvent :=
  if eip.memoryRequirements = [] then [.none] else eip.memoryRequirements.map .requirement

/-- `_release_event`. -/
def releaseEvent (eip : EIP) (finalDecision : String) : ReleaseEvent where
  required := eip.releaseRequirements.required
  gates := eip.releaseRequirements.gates
  decision := if eip.releaseRequirements.required then finalDecision else "not_required"

/-- The optional arguments of `create_run_evidence`. -/
structure EvidenceOptions where
  verification : Option VerifierReport := none
  blocker : Option String := none
  effortScore : Option (Checked EffortScore) := none
  effortMetrics : Option (Checked DiffMetrics) := none
  tokenBudget : Option (Checked TokenBudget) := none
  modelRoutes : Option (List RouteEvent) := none
  release : Option ReleaseEvent := none

/-- A new uuid and the time, as texts. -/
structure Stamp where
  runId : String
  createdAt : String

/-- `EvidenceRecorder.create_run_evidence`. -/
def createRunEvidence (sha256 : EIP → String) (stamp : Stamp) (eip : EIP) (plan : ProofPlan)
    (builder verifier finalDecision : String) (policyDecisions : List PolicyDecision)
    (options : EvidenceOptions) : Except PyError (Checked RunEvidence) := do
  let effort ← Model.build
    (effortData (options.effortScore.map Subtype.val) (options.effortMetrics.map Subtype.val))
  let tokens ← Model.build (tokenData eip (options.tokenBudget.map Subtype.val))
  Model.build {
    runId := stamp.runId
    createdAt := stamp.createdAt
    eipDigest := computeEipDigest sha256 eip
    proofPlanDigest := plan.eipDigest
    agents := ⟨builder, verifier⟩
    policyDecisions := policyDecisions
    toolCalls := toolCallEvents options.verification
    modelRoutes := options.modelRoutes.getD [.budget eip.modelBudget]
    memoryEvents := memoryEvents eip
    verification := verificationEvidence options.verification
    release := some (options.release.getD (releaseEvent eip finalDecision))
    effort := effort.1
    tokens := tokens.1
    finalDecision := finalDecision
    blocker := options.blocker }

theorem effortData_valid (score : Option (Checked EffortScore))
    (metrics : Option (Checked DiffMetrics)) :
    Model.Valid (effortData (score.map Subtype.val) (metrics.map Subtype.val)) := by
  refine ⟨rfl, failedFields_eq_nil.mpr ?_⟩
  cases score with
  | none => simp [Model.checks, effortData]
  | some s =>
    have hscore := EffortScore.score_bounds s
    cases metrics with
    | none => simp [Model.checks, effortData, hscore]
    | some m =>
      obtain ⟨hfiles, hlines, hdeps⟩ := DiffMetrics.nonneg m
      simp [Model.checks, effortData, hscore, hfiles, hlines, hdeps]

theorem tokenData_valid (eip : Checked EIP) (tokenBudget : Option (Checked TokenBudget)) :
    Model.Valid (tokenData eip.1 (tokenBudget.map Subtype.val)) := by
  refine ⟨rfl, failedFields_eq_nil.mpr ?_⟩
  cases tokenBudget with
  | none => simp [Model.checks, tokenData, EIP.maxTokens_nonneg eip]
  | some b => simp [Model.checks, tokenData, (TokenBudget.valid_iff.mp b.2).1]

/-- A score blocks exactly when it is under 50. -/
theorem effortData_blocks {score : Option (Checked EffortScore)}
    {metrics : Option (Checked DiffMetrics)}
    (h : (effortData (score.map Subtype.val) (metrics.map Subtype.val)).mees < 50 ∨
      (effortData (score.map Subtype.val) (metrics.map Subtype.val)).policy = "block") :
    ∃ s, score = some s ∧ s.1.score < 50 := by
  cases score with
  | none => simp [effortData] at h
  | some s =>
    refine ⟨s, rfl, ?_⟩
    rcases h with h | h
    · exact h
    · have hpolicy : policyForScore s.1.score = "block" := (EffortScore.policy_eq s).symm.trans h
      unfold policyForScore at hpolicy
      split at hpolicy
      · assumption
      · split at hpolicy <;> exact absurd hpolicy (by decide)

/-- The recorder builds the evidence of every run whose decision holds a score under 50. -/
theorem createRunEvidence_ok (sha256 : EIP → String) (stamp : Stamp) (eip : Checked EIP)
    (plan : ProofPlan) (builder verifier finalDecision : String)
    (policyDecisions : List PolicyDecision) (options : EvidenceOptions)
    (h : ∀ s, options.effortScore = some s → s.1.score < 50 → held finalDecision = true) :
    ∃ e, createRunEvidence sha256 stamp eip.1 plan builder verifier finalDecision policyDecisions
      options = .ok e ∧ e.1.finalDecision = finalDecision := by
  have heffort := effortData_valid options.effortScore options.effortMetrics
  have htokens := tokenData_valid eip options.tokenBudget
  unfold createRunEvidence
  rw [Model.build_of_valid heffort, Model.build_of_valid htokens]
  refine ⟨_, Model.build_of_valid (RunEvidence.valid_of_parts heffort htokens fun hlow => ?_), rfl⟩
  obtain ⟨s, hs, hscore⟩ := effortData_blocks hlow
  exact h s hs hscore

end Vad
