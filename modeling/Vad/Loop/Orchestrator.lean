/-
  The orchestrator (`vad/loop/orchestrator.py`).

  `VADOrchestrator.run` takes an EIP through planning, policy, an optional provider call,
  verification and release.  It has six exits, and all of them end alike: one last transition, the
  evidence, and the result (`conclude`).

  1. **Outside** — the policy engine, the provider and the commands are arbitrary, and what the
     first two raise goes through (`LoopError.outside`).

  2. **Exits** — `conclude` neither fails nor misreports, provided its transition is allowed and a
     score under 50 is held (`conclude_ok`); each exit meets that, because the effort blocker comes
     first and keeps scores under 50 from every later exit.

  3. **Safety** (`orchestrator_safe`) — the only errors are those from outside and an empty prompt,
     and every result is a traced path to a terminal status on which state, decision and evidence
     agree, and which is `passed` only for the right reasons.

  4. **Release** (`release_gated_iff`) — the same, for the gates that the EIP names.
-/
import Vad.Evidence.Bundle
import Vad.Loop.State
import Vad.Release.Gates

namespace Vad

/-! ## Outside -/

structure ProviderModel where
  name : String
deriving DecidableEq, Repr

structure ProviderCompletionRequest where
  prompt : String
  model : String
  maxOutputTokens : Int := 256
  timeoutSeconds : Rat := 5
deriving DecidableEq, Repr

instance : Model ProviderCompletionRequest where
  name := "ProviderCompletionRequest"
  normalize := id
  checks r := [
    ("prompt", decide (1 ≤ r.prompt.length)),
    ("max_output_tokens", decide (1 ≤ r.maxOutputTokens)),
    ("timeout_seconds", decide (0 < r.timeoutSeconds))]
  normalize_idem _ := rfl

/-- What a provider answers, with its event as a JSON object. -/
structure ProviderCompletionResult where
  allowed : Bool
  inputTokens : Int := 0
  outputTokens : Int := 0
  estimatedCost : Rat := 0
  evidence : Dict Json
  denial : Option String := none

instance : Model ProviderCompletionResult where
  name := "ProviderCompletionResult"
  normalize := id
  checks r := [
    ("input_tokens", decide (0 ≤ r.inputTokens)),
    ("output_tokens", decide (0 ≤ r.outputTokens)),
    ("estimated_cost", decide (0 ≤ r.estimatedCost))]
  normalize_idem _ := rfl

/-- A provider: its inventory has a model, and both calls may raise. -/
structure Provider (ε : Type) where
  inventory : Except ε { models : List ProviderModel // models ≠ [] }
  complete : ProviderCompletionRequest → Except ε (Checked ProviderCompletionResult)

/-- What a run finds outside: the digest of a canonical text, the text of a number, the stamp and
    time of the records, the outcome of commands, and the decision of the policy engine. -/
structure LoopWorld (ε : Type) where
  sha256 : EIP → String
  float : Rat → String
  stamp : Stamp
  now : DateTime
  execute : Execution
  policy : (policyPath builder approver : String) → Except ε PolicyDecision

/-- What a run raises: an exception of the loop's own code, or one from outside. -/
inductive LoopError (ε : Type) where
  | python (e : PyError)
  | outside (e : ε)

/-! ## The orchestrator -/

structure VADOrchestrator (ε : Type) where
  policyPath : String := "policies/vad.rego"
  effortScore : Option (Checked EffortScore) := none
  effortMetrics : Option (Checked DiffMetrics) := none
  effortJustification : Option String := none
  dependencyApproval : Bool := false
  releaseManager : ReleaseManager := {}
  releaseMetrics : Option Metrics := none
  provider : Option (Provider ε) := none
  providerModel : Option String := none

structure LoopResult where
  finalDecision : LoopStatus
  state : LoopState
  evidence : Checked RunEvidence

section Run

variable {ε : Type}

/-- `release_metrics or {"health": 1.0}`. -/
def VADOrchestrator.metrics (o : VADOrchestrator ε) : Metrics :=
  match o.releaseMetrics with
  | none => [("health", 1)]
  | some [] => [("health", 1)]
  | some metrics => metrics

/-- `VADOrchestrator._effort_blocker`. -/
def VADOrchestrator.effortBlocker (o : VADOrchestrator ε) : Option String :=
  if o.effortScore.any (fun s => decide (s.1.score < 50)) then
    some "MEES under 50 requires human review"
  else if o.effortMetrics.any (fun m => decide (m.1.changedFiles > 10)) &&
      orDefault o.effortJustification "" = "" then
    some "changed files over 10 require justification"
  else if o.effortMetrics.any (fun m => decide (m.1.dependencyFilesChanged > 0)) &&
      !o.dependencyApproval then
    some "new dependency requires explicit approval"
  else none

/-- A call of the loop's own code. -/
def own {α : Type} : Except PyError α → Except (LoopError ε) α
  | .ok a => .ok a
  | .error e => .error (.python e)

/-- A call to the outside. -/
def external {α : Type} : Except ε α → Except (LoopError ε) α
  | .ok a => .ok a
  | .error e => .error (.outside e)

/-- What a provider call leaves: a blocker, the events, and the budget after the usage. -/
structure ProviderCall where
  blocker : Option String
  modelRoutes : List RouteEvent
  tokenBudget : Checked TokenBudget

/-- Why the result of a provider stops the run. -/
def providerBlocker (eip : EIP) (r : ProviderCompletionResult) : Option String :=
  if r.allowed = false then some ("provider denied: " ++ r.denial.getD "None")
  else if r.estimatedCost > eip.modelBudget.maxCost then some "provider cost exceeds budget"
  else none

/-- The event of the call; one that costs too much is turned into a denial. -/
def providerEvent (eip : EIP) (r : ProviderCompletionResult) : Dict Json :=
  if r.allowed ∧ r.estimatedCost > eip.modelBudget.maxCost then
    (r.evidence.set "event" (.text "provider_denied")).set "denial"
      (.text "provider cost exceeds budget")
  else r.evidence

/-- The request of the call, from a provider's models. -/
def VADOrchestrator.providerRequest (o : VADOrchestrator ε) (eip : EIP)
    (models : { models : List ProviderModel // models ≠ [] }) : ProviderCompletionRequest where
  prompt := eip.goal.description
  model := orDefault o.providerModel (models.1.head models.2).name
  maxOutputTokens := min 256 eip.modelBudget.maxTokens

/-- The result of the provider, with the request validated first. -/
def VADOrchestrator.complete (o : VADOrchestrator ε) (p : Provider ε) (eip : EIP) :
    Except (LoopError ε) (Checked ProviderCompletionResult) := do
  let models ← external p.inventory
  let request ← own (Model.build (o.providerRequest eip models))
  external (p.complete request.1)

/-- `VADOrchestrator._call_provider`. -/
def VADOrchestrator.callProvider (o : VADOrchestrator ε) (p : Provider ε) (eip : EIP) :
    Except (LoopError ε) ProviderCall := do
  let result ← o.complete p eip
  let created ← own (TokenBudget.create eip.modelBudget.maxTokens)
  let tokenBudget ← own (created.1.recordUsage (result.1.inputTokens + result.1.outputTokens))
  pure {
    blocker := providerBlocker eip result.1
    modelRoutes := [.provider (providerEvent eip result.1)]
    tokenBudget := tokenBudget }

/-- The manager after the loop over the gates that the EIP names. -/
def VADOrchestrator.gated (o : VADOrchestrator ε) (eip : EIP) : ReleaseManager :=
  eip.releaseRequirements.gates.foldl (fun m gate => m.addGate ⟨gate, 19 / 20⟩) o.releaseManager

/-- `VADOrchestrator._evaluate_release`. -/
def VADOrchestrator.evaluateRelease (o : VADOrchestrator ε) (float : Rat → String) (eip : EIP) :
    ReleaseEvent × LoopStatus :=
  match (o.gated eip).evaluateRelease eip.name o.metrics eip.telemetryRequirements.required with
  | .ok _ => ({
      required := true
      gates := eip.releaseRequirements.gates
      decision := "passed" }, .passed)
  | .error e => ({
      required := true
      gates := eip.releaseRequirements.gates
      decision := "failed"
      error := some (e.message float) }, .failed)

/-- How every exit ends: the last transition, the evidence, the result. -/
def VADOrchestrator.conclude (o : VADOrchestrator ε) (w : LoopWorld ε) (eip : EIP)
    (plan : ProofPlan) (builder verifier : String) (state : LoopState) (final : LoopStatus)
    (policyDecisions : List PolicyDecision) (options : EvidenceOptions) :
    Except (LoopError ε) LoopResult := do
  let state ← own (state.transition final)
  let evidence ← own (createRunEvidence w.sha256 w.stamp eip plan builder verifier final.value
    policyDecisions { options with
      effortScore := o.effortScore
      effortMetrics := o.effortMetrics })
  pure ⟨final, state, evidence⟩

/-- `VADOrchestrator.run`, from the check of the policy's decision and of the provider on:
    verification, and release. -/
def VADOrchestrator.verifyAndRelease (o : VADOrchestrator ε) (w : LoopWorld ε) (eip : EIP)
    (plan : ProofPlan) (builder verifier : String) (state : LoopState)
    (policyDecisions : List PolicyDecision) (call : Option ProviderCall) :
    Except (LoopError ε) LoopResult := do
  let state ← own (state.transition .policyChecked)
  let state ← own (state.transition .verifying)
  let report := VerifierRunner.run w.sha256 w.execute eip plan w.now
  let options : EvidenceOptions := {
    verification := some report
    tokenBudget := call.map ProviderCall.tokenBudget
    modelRoutes := call.map ProviderCall.modelRoutes }
  if report.passed ∧ eip.releaseRequirements.required then
    let state ← own (state.transition .releasing)
    let (event, final) := o.evaluateRelease w.float eip
    o.conclude w eip plan builder verifier state final policyDecisions
      { options with release := some event }
  else
    o.conclude w eip plan builder verifier state (if report.passed then .passed else .failed)
      policyDecisions options

/-- `VADOrchestrator.run`. -/
def VADOrchestrator.run (o : VADOrchestrator ε) (w : LoopWorld ε) (eip : EIP) (plan : ProofPlan)
    (builder verifier : String) : Except (LoopError ε) LoopResult :=
  match o.effortBlocker with
  | some blocker =>
    o.conclude w eip plan builder verifier {} .blocked [] { blocker := some blocker }
  | none =>
    if eip.modelBudget.maxTokens = 0 ∨ eip.modelBudget.maxCost = 0 then
      o.conclude w eip plan builder verifier {} .blocked [] { blocker := some "budget exhausted" }
    else do
      let state ← own (({} : LoopState).transition .planned)
      let decision ← external (w.policy o.policyPath builder verifier)
      if decision.allow = false then
        let state ← own (state.transition .policyChecked)
        o.conclude w eip plan builder verifier state .needsHuman [decision] {}
      else
        match o.provider with
        | none => o.verifyAndRelease w eip plan builder verifier state [decision] none
        | some p => do
          let call ← o.callProvider p eip
          match call.blocker with
          | some blocker =>
            o.conclude w eip plan builder verifier state .blocked [decision] {
              blocker := some blocker
              tokenBudget := some call.tokenBudget
              modelRoutes := some call.modelRoutes }
          | none => o.verifyAndRelease w eip plan builder verifier state [decision] (some call)

/-! ## Safety -/

/-- The result is a traced path to a terminal status, on which state, decision and evidence
    agree. -/
structure LoopResult.Sound (r : LoopResult) : Prop where
  traced : r.state.Traced
  terminal : r.state.status.Terminal
  decided : r.finalDecision = r.state.status
  recorded : r.evidence.1.finalDecision = r.finalDecision.value

/-- Nothing stops the run before its release. -/
structure Cleared (o : VADOrchestrator ε) (w : LoopWorld ε) (eip : EIP) (plan : ProofPlan)
    (builder verifier : String) : Prop where
  effort : o.effortBlocker = none
  tokens : eip.modelBudget.maxTokens ≠ 0
  cost : eip.modelBudget.maxCost ≠ 0
  policy : ∃ d, w.policy o.policyPath builder verifier = .ok d ∧ d.allow = true
  provider : ∀ p, o.provider = some p → ∃ result, o.complete p eip = .ok result ∧
    result.1.allowed = true ∧ result.1.estimatedCost ≤ eip.modelBudget.maxCost
  verified : (VerifierRunner.run w.sha256 w.execute eip plan w.now).passed = true

/-- The release evaluation lets the run through. -/
def Released (o : VADOrchestrator ε) (eip : EIP) : Prop :=
  (o.gated eip).evaluateRelease eip.name o.metrics eip.telemetryRequirements.required = .ok true

/-- Everything that a run which ends in `passed` goes by. -/
structure PassedFor (o : VADOrchestrator ε) (w : LoopWorld ε) (eip : EIP) (plan : ProofPlan)
    (builder verifier : String) : Prop extends Cleared o w eip plan builder verifier where
  released : eip.releaseRequirements.required = true → Released o eip

/-- What may come of a run, or of the rest of one: a sound result with `Q`, or else `R` and an
    exception from outside or the refusal of an empty prompt. -/
def Outcome (Q : LoopResult → Prop) (R : Prop) : Except (LoopError ε) LoopResult → Prop
  | .ok r => r.Sound ∧ Q r
  | .error (.outside _) => R
  | .error (.python e) => e = .validationError "ProviderCompletionRequest" ["prompt"] ∧ R

theorem Outcome.mono {P Q : LoopResult → Prop} {R : Prop} (h : ∀ r, P r → Q r)
    {out : Except (LoopError ε) LoopResult} (hout : Outcome P R out) : Outcome Q R out := by
  match out with
  | .ok r => exact ⟨hout.1, h r hout.2⟩
  | .error (.outside _) => exact hout
  | .error (.python _) => exact hout

/-- What comes from outside may end the run. -/
theorem outcome_external {α : Type} {Q : LoopResult → Prop} {R : Prop} {x : Except ε α}
    {k : α → Except (LoopError ε) LoopResult} (h : ∀ a, x = .ok a → Outcome Q R (k a))
    (hraised : ∀ e, x = .error e → R) : Outcome Q R (external x >>= k) := by
  cases x with
  | ok a => exact h a rfl
  | error e => exact hraised e rfl

/-- An allowed transition does not end it. -/
theorem outcome_transition {Q : LoopResult → Prop} {R : Prop} {state : LoopState}
    {next : LoopStatus} {k : LoopState → Except (LoopError ε) LoopResult}
    (htraced : state.Traced) (hallowed : next ∈ state.status.allowed)
    (h : ∀ state', state'.Traced → state'.status = next → Outcome Q R (k state')) :
    Outcome Q R (own (state.transition next) >>= k) := by
  have hgo := transition_of_allowed hallowed
  obtain ⟨htraced', hstatus⟩ := transition_traced htraced hgo
  rw [hgo]
  exact h _ htraced' hstatus

section Exits

variable {o : VADOrchestrator ε} {w : LoopWorld ε} {eip : Checked EIP} {plan : ProofPlan}
  {builder verifier : String}

/-- Past the effort blocker, no score is under 50. -/
theorem score_of_noBlocker (h : o.effortBlocker = none) :
    ∀ s, o.effortScore = some s → ¬ s.1.score < 50 := by
  intro s hs hlow
  unfold VADOrchestrator.effortBlocker at h
  rw [hs] at h
  simp [hlow] at h

/-- An exit ends the run as it says, when its transition is allowed and a score under 50 is held. -/
theorem conclude_ok {state : LoopState} {final : LoopStatus} (htraced : state.Traced)
    (hallowed : final ∈ state.status.allowed) (hterminal : final.Terminal)
    (hheld : ∀ s, o.effortScore = some s → s.1.score < 50 → held final.value = true) (R : Prop)
    (decisions : List PolicyDecision) (options : EvidenceOptions) :
    Outcome (fun r => r.finalDecision = final) R
      (o.conclude w eip.1 plan builder verifier state final decisions options) := by
  refine outcome_transition htraced hallowed fun state' htraced' hstatus => ?_
  obtain ⟨e, he, hdecision⟩ := createRunEvidence_ok w.sha256 w.stamp eip plan builder verifier
    final.value decisions { options with
      effortScore := o.effortScore
      effortMetrics := o.effortMetrics } hheld
  rw [he]
  refine ⟨⟨htraced', ?_, hstatus.symm, hdecision⟩, rfl⟩
  show state'.status.Terminal
  rw [hstatus]
  exact hterminal

/-- An exit into `blocked` or `needs_human` ends the run whatever the score is, and it is right to
    when not all is well. -/
theorem conclude_held {state : LoopState} {final : LoopStatus} (htraced : state.Traced)
    (hallowed : final ∈ state.status.allowed) (hterminal : final.Terminal)
    (hheld : held final.value = true) (hfinal : final ≠ .passed) {Q R : Prop} (hnot : ¬ Q)
    (decisions : List PolicyDecision) (options : EvidenceOptions) :
    Outcome (fun r => r.finalDecision = .passed ↔ Q) R
      (o.conclude w eip.1 plan builder verifier state final decisions options) := by
  refine (conclude_ok htraced hallowed hterminal (fun _ _ _ => hheld) R decisions options).mono ?_
  intro r hr
  exact ⟨fun hpassed => absurd (hr.symm.trans hpassed) hfinal, fun h => absurd h hnot⟩

theorem evaluateRelease_status (o : VADOrchestrator ε) (float : Rat → String) (eip : EIP) :
    (Released o eip ∧ (o.evaluateRelease float eip).2 = .passed) ∨
      (¬ Released o eip ∧ (o.evaluateRelease float eip).2 = .failed) := by
  unfold VADOrchestrator.evaluateRelease Released
  cases hrel : (o.gated eip).evaluateRelease eip.name o.metrics
      eip.telemetryRequirements.required with
  | error e => exact Or.inr ⟨fun h => (by cases h), rfl⟩
  | ok b =>
    -- `evaluate_release` returns `True` or raises
    have htrue : b = true := by
      unfold ReleaseManager.evaluateRelease at hrel
      split at hrel
      · cases hrel
      · split at hrel
        · cases hrel
        · split at hrel
          · cases hrel
          · cases hrel
            rfl
    exact Or.inl ⟨by rw [htrue], rfl⟩

/-- Verification and release end the run, and end it in `passed` exactly when both were passed. -/
theorem verifyAndRelease_outcome {state : LoopState} (htraced : state.Traced)
    (hplanned : state.status = .planned) (hscore : ∀ s, o.effortScore = some s → ¬ s.1.score < 50)
    (R : Prop) (decisions : List PolicyDecision) (call : Option ProviderCall) :
    Outcome (fun r => r.finalDecision = .passed ↔
        (VerifierRunner.run w.sha256 w.execute eip.1 plan w.now).passed = true ∧
          (eip.1.releaseRequirements.required = true → Released o eip.1)) R
      (o.verifyAndRelease w eip.1 plan builder verifier state decisions call) := by
  have hfree : ∀ final : LoopStatus, ∀ s, o.effortScore = some s → s.1.score < 50 →
      held final.value = true := fun _ s hs hlow => absurd hlow (hscore s hs)
  refine outcome_transition htraced (by rw [hplanned]; decide) fun state₁ htraced₁ hstatus₁ => ?_
  refine outcome_transition htraced₁ (by rw [hstatus₁]; decide) fun state₂ htraced₂ hstatus₂ => ?_
  simp only
  split
  · rename_i hrelease
    refine outcome_transition htraced₂ (by rw [hstatus₂]; decide)
      fun state₃ htraced₃ hstatus₃ => ?_
    rcases evaluateRelease_status o w.float eip.1 with ⟨hok, hfinal⟩ | ⟨hnot, hfinal⟩
    · refine (conclude_ok htraced₃ (by rw [hstatus₃, hfinal]; decide) (by rw [hfinal]; rfl)
        (hfree _) R decisions _).mono fun r hr => ?_
      exact ⟨fun _ => ⟨hrelease.1, fun _ => hok⟩, fun _ => hr.trans hfinal⟩
    · refine (conclude_ok htraced₃ (by rw [hstatus₃, hfinal]; decide) (by rw [hfinal]; rfl)
        (hfree _) R decisions _).mono fun r hr => ?_
      rw [hfinal] at hr
      exact ⟨fun h => absurd (hr.symm.trans h) (by decide), fun h => absurd (h.2 hrelease.2) hnot⟩
  · rename_i hnorelease
    cases hpassed : (VerifierRunner.run w.sha256 w.execute eip.1 plan w.now).passed with
    | true =>
      refine (conclude_ok htraced₂ (by rw [hstatus₂]; decide) terminal_passed (hfree _) R decisions
        _).mono fun r hr => ?_
      exact ⟨fun _ => ⟨rfl, fun hreq => absurd ⟨hpassed, hreq⟩ hnorelease⟩, fun _ => hr⟩
    | false =>
      refine (conclude_ok htraced₂ (by rw [hstatus₂]; decide) terminal_failed (hfree _) R decisions
        _).mono fun r hr => ?_
      exact ⟨fun h => absurd (hr.symm.trans h) (by decide), fun h => (by cases h.1)⟩

/-- The request of a provider call fails only on an empty prompt. -/
theorem providerRequest_failed {models : { models : List ProviderModel // models ≠ [] }}
    (htokens : eip.1.modelBudget.maxTokens ≠ 0) {e : PyError}
    (h : Model.build (o.providerRequest eip.1 models) = .error e) :
    e = .validationError "ProviderCompletionRequest" ["prompt"] := by
  obtain ⟨hfailed, rfl⟩ := Model.build_eq_error.mp h
  have hpositive : 1 ≤ min 256 eip.1.modelBudget.maxTokens := by
    have hnonneg := EIP.maxTokens_nonneg eip
    omega
  have htimeout : (0 : Rat) < 5 := by decide
  by_cases hprompt : 1 ≤ eip.1.goal.description.length
  · refine absurd ?_ hfailed
    simp [failedFields, Model.normalize, Model.checks, VADOrchestrator.providerRequest, hprompt,
      hpositive, htimeout]
  · simp [failedFields, Model.name, Model.normalize, Model.checks, VADOrchestrator.providerRequest,
      hprompt, hpositive, htimeout]

theorem usedTokens_nonneg (result : Checked ProviderCompletionResult) :
    0 ≤ result.1.inputTokens + result.1.outputTokens := by
  have hall := failedFields_eq_nil.mp result.2.2
  simp only [Model.checks, List.mem_cons, List.not_mem_nil, or_false, forall_eq_or_imp,
    forall_eq, decide_eq_true_eq] at hall
  omega

/-- A provider call fails with what came from outside, or on an empty prompt; if it returns, its
    blocker is what the result calls for. -/
theorem outcome_callProvider {Q : LoopResult → Prop} {R : Prop} {p : Provider ε}
    (htokens : eip.1.modelBudget.maxTokens ≠ 0)
    {k : ProviderCall → Except (LoopError ε) LoopResult}
    (h : ∀ call result, o.complete p eip.1 = .ok result →
      call.blocker = providerBlocker eip.1 result.1 → Outcome Q R (k call))
    (hraised : ∀ e, o.complete p eip.1 = .error e → R) :
    Outcome Q R (o.callProvider p eip.1 >>= k) := by
  unfold VADOrchestrator.callProvider
  cases hcomplete : o.complete p eip.1 with
  | error e =>
    have hR := hraised e hcomplete
    -- the inventory, the request or the completion raised
    unfold VADOrchestrator.complete at hcomplete
    cases hinv : p.inventory with
    | error x => rw [hinv] at hcomplete; cases hcomplete; exact hR
    | ok models =>
      rw [hinv] at hcomplete
      change (own (Model.build (o.providerRequest eip.1 models)) >>= _) = _ at hcomplete
      cases hreq : Model.build (o.providerRequest eip.1 models) with
      | error x =>
        rw [hreq] at hcomplete
        cases hcomplete
        exact ⟨providerRequest_failed htokens hreq, hR⟩
      | ok request =>
        rw [hreq] at hcomplete
        change external (p.complete request.1) = _ at hcomplete
        cases hres : p.complete request.1 with
        | error x => rw [hres] at hcomplete; cases hcomplete; exact hR
        | ok result => rw [hres] at hcomplete; cases hcomplete
  | ok result =>
    have hused := usedTokens_nonneg result
    obtain ⟨created, hcreate, -, -⟩ := TokenBudget.create_ok (EIP.maxTokens_nonneg eip)
    obtain ⟨tokenBudget, hrecord⟩ := TokenBudget.recordUsage_ok created hused
    show Outcome Q R ((own (TokenBudget.create _) >>= _) >>= k)
    rw [hcreate]
    show Outcome Q R ((own (TokenBudget.recordUsage created.1 _) >>= _) >>= k)
    rw [hrecord]
    exact h _ result hcomplete rfl

/-- The result of a provider does not stop the run exactly when it is allowed and not too dear. -/
theorem providerBlocker_eq_none {eip : EIP} {r : ProviderCompletionResult} :
    providerBlocker eip r = none ↔
      r.allowed = true ∧ r.estimatedCost ≤ eip.modelBudget.maxCost := by
  unfold providerBlocker
  rw [← Rat.not_lt]
  cases r.allowed with
  | false => simp
  | true => by_cases h : eip.modelBudget.maxCost < r.estimatedCost <;> simp [h]

/-- What may come of a run: it passes exactly when everything is well, and it does not raise where
    nothing stops it before its release. -/
theorem run_outcome :
    Outcome (fun r => r.finalDecision = .passed ↔ PassedFor o w eip.1 plan builder verifier)
      (¬ Cleared o w eip.1 plan builder verifier) (o.run w eip.1 plan builder verifier) := by
  unfold VADOrchestrator.run
  cases hblocker : o.effortBlocker with
  | some blocker =>
    refine conclude_held traced_initial (by decide) terminal_blocked rfl (by decide)
      (fun h => ?_) _ _
    have hnone := h.effort
    rw [hblocker] at hnone
    cases hnone
  | none =>
    have hscore := score_of_noBlocker hblocker
    simp only
    split
    · rename_i hbudget
      refine conclude_held traced_initial (by decide) terminal_blocked rfl (by decide)
        (fun h => ?_) _ _
      exact hbudget.elim h.tokens h.cost
    · rename_i hbudget
      rw [not_or] at hbudget
      refine outcome_transition traced_initial (by decide) fun planned htraced hplanned => ?_
      refine outcome_external (fun decision hpolicy => ?_) fun e hraised h => ?_
      swap
      · obtain ⟨d, hd, -⟩ := h.policy
        rw [hraised] at hd
        cases hd
      split
      · rename_i hdenied
        refine outcome_transition htraced (by rw [hplanned]; decide)
          fun checked htraced' hchecked => ?_
        refine conclude_held htraced' (by rw [hchecked]; decide) terminal_needsHuman rfl
          (by decide) (fun h => ?_) _ _
        obtain ⟨d, hd, hallow⟩ := h.policy
        rw [hpolicy] at hd
        cases hd
        rw [hdenied] at hallow
        cases hallow
      · rename_i hallow
        have hallowed : decision.allow = true := by simpa using hallow
        -- what is left to ask when the run gets as far as verification
        have hrest : ∀ r : LoopResult,
            (∀ p, o.provider = some p → ∃ result, o.complete p eip.1 = .ok result ∧
              result.1.allowed = true ∧ result.1.estimatedCost ≤ eip.1.modelBudget.maxCost) →
            (r.finalDecision = .passed ↔
              (VerifierRunner.run w.sha256 w.execute eip.1 plan w.now).passed = true ∧
                (eip.1.releaseRequirements.required = true → Released o eip.1)) →
            (r.finalDecision = .passed ↔ PassedFor o w eip.1 plan builder verifier) := by
          intro r hprovider hr
          refine hr.trans ⟨fun h => ?_, fun h => ⟨h.verified, h.released⟩⟩
          exact ⟨⟨hblocker, hbudget.1, hbudget.2, ⟨decision, hpolicy, hallowed⟩, hprovider, h.1⟩, h.2⟩
        cases hprovider : o.provider with
        | none =>
          refine (verifyAndRelease_outcome htraced hplanned hscore _ [decision] none).mono
            fun r => hrest r fun p hp => ?_
          rw [hprovider] at hp
          cases hp
        | some p =>
          refine outcome_callProvider hbudget.1 (fun call result hresult hcall => ?_)
            fun e hraised h => ?_
          · cases hstop : call.blocker with
            | some blocker =>
              refine conclude_held htraced (by rw [hplanned]; decide) terminal_blocked rfl
                (by decide) (fun h => ?_) _ _
              obtain ⟨result', hresult', hfine⟩ := h.provider p hprovider
              rw [hresult] at hresult'
              cases hresult'
              rw [hcall, providerBlocker_eq_none.mpr hfine] at hstop
              cases hstop
            | none =>
              refine (verifyAndRelease_outcome htraced hplanned hscore _ [decision]
                (some call)).mono fun r => hrest r fun p' hp' => ?_
              obtain rfl : p = p' := Option.some.inj (hprovider.symm.trans hp')
              rw [hstop] at hcall
              exact ⟨result, hresult, providerBlocker_eq_none.mp hcall.symm⟩
          · obtain ⟨result, hresult, -⟩ := h.provider p hprovider
            rw [hraised] at hresult
            cases hresult

end Exits

/-- A run of an EIP that requires a release passes only with every gate that the EIP names measured,
    and at least 0.95. -/
def GatesMeasured (o : VADOrchestrator ε) (w : LoopWorld ε) (eip : EIP) (plan : ProofPlan)
    (builder verifier : String) : Prop :=
  ∀ r, o.run w eip plan builder verifier = .ok r → r.finalDecision = .passed →
    eip.releaseRequirements.required = true → ∀ gate ∈ eip.releaseRequirements.gates,
      ∃ value, Dict.get o.metrics gate = some value ∧ 19 / 20 ≤ value

/-- If nothing else stops the run or its release, the metric of every gate of the EIP is there. -/
def NoEipGatePassedOver (o : VADOrchestrator ε) (w : LoopWorld ε) (eip : EIP) (plan : ProofPlan)
    (builder verifier : String) : Prop :=
  Cleared o w eip plan builder verifier → eip.releaseRequirements.required = true →
    (o.gated eip).flags.isEnabled eip.name = true →
    (∀ gate ∈ (o.gated eip).gates, gate.Measured o.metrics → gate.Met o.metrics) →
      ∀ gate ∈ eip.releaseRequirements.gates, (Dict.get o.metrics gate).isSome = true

theorem gated_gates (o : VADOrchestrator ε) (eip : EIP) :
    (o.gated eip).gates = o.releaseManager.gates ++
      eip.releaseRequirements.gates.map (fun gate => ⟨gate, 19 / 20⟩) := by
  unfold VADOrchestrator.gated
  generalize eip.releaseRequirements.gates = gates
  generalize o.releaseManager = m
  induction gates generalizing m with
  | nil => simp
  | cons gate rest ih =>
    rw [List.foldl_cons, ih, List.map_cons]
    simp [ReleaseManager.addGate]

/-- A gate of the EIP is a gate of the release. -/
theorem mem_gated {o : VADOrchestrator ε} {eip : EIP} {gate : String}
    (h : gate ∈ eip.releaseRequirements.gates) :
    (⟨gate, 19 / 20⟩ : RolloutGate) ∈ (o.gated eip).gates := by
  rw [gated_gates]
  exact List.mem_append_right _ (List.mem_map_of_mem h)

/-- Release gating holds exactly where no gate is passed over: of every evaluation, and of every run
    of the orchestrator. -/
theorem release_gated_iff :
    (∀ (m : ReleaseManager) (name : String) (metrics : Metrics) (hasTelemetry : Bool),
      Gated m name metrics hasTelemetry ↔ NoGatePassedOver m name metrics hasTelemetry) ∧
    (∀ (o : VADOrchestrator ε) (w : LoopWorld ε) (eip : Checked EIP) (plan : ProofPlan)
      (builder verifier : String),
      GatesMeasured o w eip.1 plan builder verifier ↔
        NoEipGatePassedOver o w eip.1 plan builder verifier) := by
  refine ⟨fun m name metrics hasTelemetry => gated_iff, fun o w eip plan builder verifier => ?_⟩
  have hrun : Outcome (fun r => r.finalDecision = .passed ↔
      PassedFor o w eip.1 plan builder verifier) (¬ Cleared o w eip.1 plan builder verifier)
      (o.run w eip.1 plan builder verifier) := run_outcome
  constructor
  · intro h hcleared hrequired hflag hmet gate hgate
    have htelemetry := EIP.telemetry_of_release eip hrequired
    have hpassed : PassedFor o w eip.1 plan builder verifier :=
      ⟨hcleared, fun _ => evaluateRelease_true.mpr ⟨htelemetry, hflag, hmet⟩⟩
    -- such a run returns, and it returns `passed`
    cases hout : o.run w eip.1 plan builder verifier with
    | ok r =>
      rw [hout] at hrun
      obtain ⟨value, hvalue, -⟩ := h r hout (hrun.2.mpr hpassed) hrequired gate hgate
      rw [hvalue]
      rfl
    | error e =>
      rw [hout] at hrun
      cases e with
      | outside x => exact absurd hcleared hrun
      | python x => exact absurd hcleared hrun.2
  · intro h r hout hfinal hrequired gate hgate
    rw [hout] at hrun
    have hpassed := hrun.2.mp hfinal
    obtain ⟨-, hflag, hmet⟩ := evaluateRelease_true.mp (hpassed.released hrequired)
    have hmeasured := h hpassed.toCleared hrequired hflag hmet gate hgate
    exact hmet _ (mem_gated hgate) hmeasured

end Run

end Vad
