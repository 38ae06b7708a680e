/-
  The tokens that a run uses, and its budget.

  A provider call is checked for its cost and for being allowed.  Its tokens are only recorded: the
  budget object notes an overrun in a flag that nothing reads.

  1. **Exits** — a run that returns does so through `conclude`, at one of six exits, with the options
     that the exit gives it (`Exit`, `run_exit`).  One lemma says what the evidence then holds
     (`conclude_evidence`).

  2. **Arithmetic** — what a provider call records is the sum of both counts, and what is left of the
     budget, never less than nothing (`callProvider_budget`).

  3. **The gap** — so the recorded numbers always add up, and a run that passes has kept its budget
     exactly if the provider did (`tokensBounded_iff`).
-/
import Vad.Loop.Orchestrator

namespace Vad

section Exits

variable {ε : Type} {o : VADOrchestrator ε} {w : LoopWorld ε} {eip : EIP} {plan : ProofPlan}
  {builder verifier : String}

/-! ## Calls that return -/

theorem bind_ok {ε α β : Type} {x : Except ε α} {k : α → Except ε β} {b : β} :
    (x >>= k) = .ok b ↔ ∃ a, x = .ok a ∧ k a = .ok b := by
  cases x with
  | ok a => exact ⟨fun h => ⟨a, rfl, h⟩, fun ⟨_, ha, h⟩ => by cases ha; exact h⟩
  | error e => exact ⟨fun h => (by cases h), fun ⟨_, ha, _⟩ => (by cases ha)⟩

theorem own_ok {α : Type} {x : Except PyError α} {a : α} :
    (own x : Except (LoopError ε) α) = .ok a ↔ x = .ok a := by
  cases x with
  | ok b => exact ⟨fun h => congrArg _ (Except.ok.inj h), fun h => congrArg _ (Except.ok.inj h)⟩
  | error e => exact ⟨fun h => (by cases h), fun h => (by cases h)⟩

theorem external_ok {α : Type} {x : Except ε α} {a : α} :
    (external x : Except (LoopError ε) α) = .ok a ↔ x = .ok a := by
  cases x with
  | ok b => exact ⟨fun h => congrArg _ (Except.ok.inj h), fun h => congrArg _ (Except.ok.inj h)⟩
  | error e => exact ⟨fun h => (by cases h), fun h => (by cases h)⟩

/-! ## Exits -/

/-- What a run has with a provider when it gets as far as verification. -/
def Called (o : VADOrchestrator ε) (eip : EIP) (call : Option ProviderCall) : Prop :=
  match o.provider with
  | none => call = none
  | some p => ∃ c, o.callProvider p eip = .ok c ∧ c.blocker = none ∧ call = some c

/-- The exits of a run: when it takes them, the decision, and what of the evidence depends on the
    exit. -/
inductive Exit (o : VADOrchestrator ε) (w : LoopWorld ε) (eip : EIP) (plan : ProofPlan)
    (builder verifier : String) : LoopStatus → EvidenceOptions → Prop where
  | effort {blocker : String} : o.effortBlocker = some blocker →
    Exit o w eip plan builder verifier .blocked { blocker := some blocker }
  | exhausted : eip.modelBudget.maxTokens = 0 ∨ eip.modelBudget.maxCost = 0 →
    Exit o w eip plan builder verifier .blocked { blocker := some "budget exhausted" }
  | denied {d : PolicyDecision} : w.policy o.policyPath builder verifier = .ok d →
    d.allow = false → Exit o w eip plan builder verifier .needsHuman {}
  | provider {p : Provider ε} {call : ProviderCall} {blocker : String} :
    o.provider = some p → o.callProvider p eip = .ok call → call.blocker = some blocker →
    Exit o w eip plan builder verifier .blocked {
      blocker := some blocker
      tokenBudget := some call.tokenBudget
      modelRoutes := some call.modelRoutes }
  | verified {call : Option ProviderCall} {report : VerifierReport} : Called o eip call →
    report = VerifierRunner.run w.sha256 w.execute eip plan w.now →
    ¬ (report.passed ∧ eip.releaseRequirements.required) →
    Exit o w eip plan builder verifier (if report.passed then .passed else .failed) {
      verification := some report
      tokenBudget := call.map ProviderCall.tokenBudget
      modelRoutes := call.map ProviderCall.modelRoutes }
  | released {call : Option ProviderCall} {report : VerifierReport} : Called o eip call →
    report = VerifierRunner.run w.sha256 w.execute eip plan w.now →
    report.passed ∧ eip.releaseRequirements.required →
    Exit o w eip plan builder verifier (o.evaluateRelease w.float eip).2 {
      verification := some report
      tokenBudget := call.map ProviderCall.tokenBudget
      modelRoutes := call.map ProviderCall.modelRoutes
      release := some (o.evaluateRelease w.float eip).1 }

/-- Verification and release end in one of the last two exits. -/
theorem verifyAndRelease_exit {state : LoopState} {decisions : List PolicyDecision}
    {call : Option ProviderCall} {r : LoopResult} (hcall : Called o eip call)
    (h : o.verifyAndRelease w eip plan builder verifier state decisions call = .ok r) :
    ∃ state' final options, Exit o w eip plan builder verifier final options ∧
      o.conclude w eip plan builder verifier state' final decisions options = .ok r := by
  obtain ⟨checked, -, h⟩ := bind_ok.mp h
  obtain ⟨verifying, -, h⟩ := bind_ok.mp h
  simp only at h
  split at h
  · rename_i hrelease
    obtain ⟨releasing, -, h⟩ := bind_ok.mp h
    exact ⟨releasing, _, _, .released hcall rfl hrelease, h⟩
  · rename_i hnorelease
    exact ⟨verifying, _, _, .verified hcall rfl hnorelease, h⟩

/-- A run that returns does so at an exit. -/
theorem run_exit {r : LoopResult} (h : o.run w eip plan builder verifier = .ok r) :
    ∃ state final decisions options, Exit o w eip plan builder verifier final options ∧
      o.conclude w eip plan builder verifier state final decisions options = .ok r := by
  unfold VADOrchestrator.run at h
  split at h
  · rename_i blocker hblocker
    exact ⟨_, _, _, _, .effort hblocker, h⟩
  · split at h
    · rename_i hbudget
      exact ⟨_, _, _, _, .exhausted hbudget, h⟩
    · obtain ⟨planned, -, h⟩ := bind_ok.mp h
      obtain ⟨decision, hdecision, h⟩ := bind_ok.mp h
      split at h
      · rename_i hdenied
        obtain ⟨checked, -, h⟩ := bind_ok.mp h
        exact ⟨_, _, _, _, .denied (external_ok.mp hdecision) hdenied, h⟩
      · split at h
        · rename_i hnone
          have hcall : Called o eip none := by
            unfold Called
            rw [hnone]
          obtain ⟨state, final, options, hexit, h⟩ := verifyAndRelease_exit hcall h
          exact ⟨state, final, _, options, hexit, h⟩
        · rename_i p hp
          obtain ⟨call, hcalled, h⟩ := bind_ok.mp h
          split at h
          · rename_i blocker hblocker
            exact ⟨_, _, _, _, .provider hp hcalled hblocker, h⟩
          · rename_i hfree
            have hcall : Called o eip (some call) := by
              unfold Called
              rw [hp]
              exact ⟨call, hcalled, hfree, rfl⟩
            obtain ⟨state, final, options, hexit, h⟩ := verifyAndRelease_exit hcall h
            exact ⟨state, final, _, options, hexit, h⟩

/-- The decision of the result, and the tokens and the release event of its evidence. -/
theorem conclude_evidence {state : LoopState} {final : LoopStatus}
    {decisions : List PolicyDecision} {options : EvidenceOptions} {r : LoopResult}
    (h : o.conclude w eip plan builder verifier state final decisions options = .ok r) :
    r.finalDecision = final ∧
      r.evidence.1.tokens = tokenData eip (options.tokenBudget.map Subtype.val) ∧
      r.evidence.1.release = some (options.release.getD (releaseEvent eip final.value)) := by
  obtain ⟨next, -, h⟩ := bind_ok.mp h
  obtain ⟨evidence, hevidence, h⟩ := bind_ok.mp h
  cases h
  refine ⟨rfl, ?_⟩
  obtain ⟨effort, heffort, hevidence⟩ := bind_ok.mp (own_ok.mp hevidence)
  obtain ⟨tokens, htokens, hevidence⟩ := bind_ok.mp hevidence
  rw [Model.build_eq_ok hevidence]
  exact ⟨Model.build_eq_ok htokens, rfl⟩

/-! ## What a provider call records -/

/-- The budget after a provider call. -/
theorem callProvider_budget {p : Provider ε} {call : ProviderCall}
    (h : o.callProvider p eip = .ok call) : ∃ result, o.complete p eip = .ok result ∧
      call.blocker = providerBlocker eip result.1 ∧
      call.tokenBudget.1.budget = eip.modelBudget.maxTokens ∧
      call.tokenBudget.1.used = result.1.inputTokens + result.1.outputTokens ∧
      call.tokenBudget.1.remaining =
        max 0 (eip.modelBudget.maxTokens - (result.1.inputTokens + result.1.outputTokens)) := by
  obtain ⟨result, hresult, h⟩ := bind_ok.mp h
  obtain ⟨created, hcreated, h⟩ := bind_ok.mp h
  obtain ⟨recorded, hrecorded, h⟩ := bind_ok.mp h
  cases h
  have hcreated := Model.build_eq_ok (own_ok.mp hcreated)
  have hrecorded := Model.build_eq_ok (own_ok.mp hrecorded)
  have hbudget : created.1.budget = eip.modelBudget.maxTokens := by rw [hcreated]; rfl
  have hused : created.1.used = 0 := by rw [hcreated]; rfl
  refine ⟨result, hresult, rfl, ?_⟩
  rw [hrecorded]
  show created.1.budget = _ ∧ created.1.used + _ = _ ∧ max 0 (created.1.budget -
    (created.1.used + (result.1.inputTokens + result.1.outputTokens))) = _
  rw [hbudget, hused, Int.zero_add]
  exact ⟨rfl, rfl, rfl⟩

/-- Where tokens were recorded, a provider was called. -/
theorem Exit.recorded {final : LoopStatus} {options : EvidenceOptions}
    (h : Exit o w eip plan builder verifier final options) {b : Checked TokenBudget}
    (hb : options.tokenBudget = some b) : ∃ p call, o.provider = some p ∧
      o.callProvider p eip = .ok call ∧ b = call.tokenBudget := by
  have hcalled {call : Option ProviderCall} (h : Called o eip call)
      (hb : call.map ProviderCall.tokenBudget = some b) : ∃ p c, o.provider = some p ∧
        o.callProvider p eip = .ok c ∧ b = c.tokenBudget := by
    unfold Called at h
    split at h
    · subst h
      cases hb
    · rename_i p hp
      obtain ⟨c, hc, -, rfl⟩ := h
      exact ⟨p, c, hp, hc, (Option.some.inj hb).symm⟩
  cases h with
  | effort => cases hb
  | exhausted => cases hb
  | denied => cases hb
  | provider hp hcall => exact ⟨_, _, hp, hcall, (Option.some.inj hb).symm⟩
  | verified hcall => exact hcalled hcall hb
  | released hcall => exact hcalled hcall hb

/-- A run that passes with a provider has recorded the tokens of its call. -/
theorem Exit.called {final : LoopStatus} {options : EvidenceOptions}
    (h : Exit o w eip plan builder verifier final options) (hpassed : final = .passed) :
    ∃ call, Called o eip call ∧ options.tokenBudget = call.map ProviderCall.tokenBudget := by
  cases h with
  | effort => cases hpassed
  | exhausted => cases hpassed
  | denied => cases hpassed
  | provider => cases hpassed
  | verified hcall => exact ⟨_, hcall, rfl⟩
  | released hcall => exact ⟨_, hcall, rfl⟩

end Exits

/-! ## The budget of a run -/

section Budget

variable {ε : Type}

/-- Whenever the run returns: if it passes, the tokens recorded are within the budget of the EIP;
    and what is recorded as used and as remaining adds up to the budget at least. -/
def TokensBounded (o : VADOrchestrator ε) (w : LoopWorld ε) (eip : EIP) (plan : ProofPlan)
    (builder verifier : String) : Prop :=
  ∀ r, o.run w eip plan builder verifier = .ok r → ∀ used, r.evidence.1.tokens.used = some used →
    (r.finalDecision = .passed → used ≤ eip.modelBudget.maxTokens) ∧
    r.evidence.1.tokens.budget = eip.modelBudget.maxTokens ∧
    r.evidence.1.tokens.remaining = some (max 0 (r.evidence.1.tokens.budget - used)) ∧
    r.evidence.1.tokens.budget ≤ used + max 0 (r.evidence.1.tokens.budget - used)

/-- If everything lets the run pass, the tokens that the provider reports are within the budget. -/
def ProviderWithinBudget (o : VADOrchestrator ε) (w : LoopWorld ε) (eip : EIP) (plan : ProofPlan)
    (builder verifier : String) : Prop :=
  PassedFor o w eip plan builder verifier → ∀ p result, o.provider = some p →
    o.complete p eip = .ok result →
      result.1.inputTokens + result.1.outputTokens ≤ eip.modelBudget.maxTokens

/-- What a run records of the tokens is what its provider call reported. -/
theorem tokens_of_run {o : VADOrchestrator ε} {w : LoopWorld ε} {eip : EIP} {plan : ProofPlan}
    {builder verifier : String} {r : LoopResult} (h : o.run w eip plan builder verifier = .ok r)
    {used : Int} (hused : r.evidence.1.tokens.used = some used) :
    ∃ p result, o.provider = some p ∧ o.complete p eip = .ok result ∧
      used = result.1.inputTokens + result.1.outputTokens ∧
      r.evidence.1.tokens.budget = eip.modelBudget.maxTokens ∧
      r.evidence.1.tokens.remaining = some (max 0 (eip.modelBudget.maxTokens - used)) := by
  obtain ⟨state, final, decisions, options, hexit, hconclude⟩ := run_exit h
  obtain ⟨-, htokens, -⟩ := conclude_evidence hconclude
  rw [htokens] at hused ⊢
  cases hb : options.tokenBudget with
  | none =>
    rw [hb] at hused
    cases hused
  | some b =>
    rw [hb] at hused
    obtain ⟨p, call, hp, hcall, rfl⟩ := hexit.recorded hb
    obtain ⟨result, hresult, -, hbudget, hsum, hremaining⟩ := callProvider_budget hcall
    have hsame : call.tokenBudget.1.used = used := Option.some.inj hused
    rw [hsum] at hsame
    refine ⟨p, result, hp, hresult, hsame.symm, hbudget, ?_⟩
    rw [← hsame, ← hremaining]
    rfl

/-- The tokens of a run are bounded by its budget exactly if those of its provider are. -/
theorem tokensBounded_iff (o : VADOrchestrator ε) (w : LoopWorld ε) (eip : Checked EIP)
    (plan : ProofPlan) (builder verifier : String) :
    TokensBounded o w eip.1 plan builder verifier ↔
      ProviderWithinBudget o w eip.1 plan builder verifier := by
  have hrun : Outcome (fun r => r.finalDecision = .passed ↔
      PassedFor o w eip.1 plan builder verifier) (¬ Cleared o w eip.1 plan builder verifier)
      (o.run w eip.1 plan builder verifier) := run_outcome
  constructor
  · intro h hpassed p result hp hresult
    -- such a run returns, and its evidence has the tokens of the call
    cases hout : o.run w eip.1 plan builder verifier with
    | error e =>
      rw [hout] at hrun
      cases e with
      | outside x => exact absurd hpassed.toCleared hrun
      | python x => exact absurd hpassed.toCleared hrun.2
    | ok r =>
      rw [hout] at hrun
      have hfinal := hrun.2.mpr hpassed
      obtain ⟨state, final, decisions, options, hexit, hconclude⟩ := run_exit hout
      obtain ⟨hdecision, htokens, -⟩ := conclude_evidence hconclude
      obtain ⟨call, hcalled, hbudget⟩ := hexit.called (hdecision.symm.trans hfinal)
      unfold Called at hcalled
      rw [hp] at hcalled
      obtain ⟨c, hc, -, rfl⟩ := hcalled
      obtain ⟨result', hresult', -, -, hused, -⟩ := callProvider_budget hc
      obtain rfl : result = result' := Except.ok.inj (hresult.symm.trans hresult')
      have hrecorded : r.evidence.1.tokens.used =
          some (result.1.inputTokens + result.1.outputTokens) := by
        rw [htokens, hbudget, ← hused]
        rfl
      exact (h r hout _ hrecorded).1 hfinal
  · intro h r hout used hused
    obtain ⟨p, result, hp, hresult, hsum, hbudget, hremaining⟩ := tokens_of_run hout hused
    rw [hout] at hrun
    refine ⟨fun hfinal => ?_, hbudget, ?_, ?_⟩
    · rw [hsum]
      exact h (hrun.2.mp hfinal) p result hp hresult
    · rw [hbudget]
      exact hremaining
    · omega

end Budget

/-! ## A provider over the budget -/

/-- A provider that reports 1200 tokens at no cost. -/
def thirstyProvider : Provider Empty where
  inventory := .ok ⟨[⟨"model"⟩], by simp⟩
  complete _ := .ok ⟨{ allowed := true, inputTokens := 600, outputTokens := 600, evidence := [] },
    rfl, by decide⟩

/-- An orchestrator that has nothing but the provider. -/
def thirstyOrchestrator : VADOrchestrator Empty := { provider := some thirstyProvider }

/-- A policy engine that allows everything, and commands that all fail. -/
def sampleWorld : LoopWorld Empty where
  sha256 _ := ""
  float _ := "0.5"
  stamp := ⟨"run-1", "2026-07-02T00:00:00"⟩
  now := ⟨0, none⟩
  execute _ _ := .error ""
  policy _ _ _ := .ok { allow := true }

/-- The sample EIP with a budget of 1000 tokens, as a checked value. -/
def checkedEip : Checked EIP := ⟨sampleEip .manualGate, rfl, by decide⟩

/-- The run passes with 1200 tokens of 1000. -/
theorem overrun_passes :
    ¬ TokensBounded thirstyOrchestrator sampleWorld checkedEip.1 listedPlan "alice" "bob" := by
  intro h
  have hout : (thirstyOrchestrator.run sampleWorld checkedEip.1 listedPlan "alice" "bob").toOption.map
      (fun r => (r.finalDecision, r.evidence.1.tokens.used)) = some (.passed, some 1200) := by
    decide
  obtain ⟨r, hr, hshown⟩ := Option.map_eq_some_iff.mp hout
  obtain ⟨hfinal, hused⟩ := Prod.mk.inj hshown
  have hreturned : thirstyOrchestrator.run sampleWorld checkedEip.1 listedPlan "alice" "bob" =
      .ok r := by
    revert hr
    cases thirstyOrchestrator.run sampleWorld checkedEip.1 listedPlan "alice" "bob" with
    | ok r' => exact fun hr => congrArg Except.ok (Option.some.inj hr)
    | error e => exact fun hr => (by cases hr)
  have hbound := (h r hreturned 1200 hused).1 hfinal
  exact absurd hbound (by decide)

end Vad
