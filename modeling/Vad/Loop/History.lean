/-
  Runs one after another on one orchestrator.

  The orchestrator keeps its release manager, and every run that gets to its release adds the gates
  of its EIP to it.  Nothing takes them out again, so a later release is evaluated against the gates
  of earlier EIPs as well, and these come first.

  1. **History** — the manager after a run (`VADOrchestrator.after`), and after several: the same one
     with the gates of the runs that got to their release (`foldl_after`).

  2. **One run** — what a run gives depends on the manager only through the evaluation of its
     release (`outcome_congr`), and that changes with earlier gates exactly if the first of them to
     fail is not also the first own gate to fail (`outcome_eq_iff`).

  3. **The result** (`runs_independent_iff`) — so the runs of a history are independent exactly if
     this never happens.
-/
import Vad.Loop.TokenUse

namespace Vad

section History

variable {ε : Type}

/-! ## Runs in sequence -/

/-- The arguments of one run, with what it finds outside. -/
structure LoopJob (ε : Type) where
  world : LoopWorld ε
  eip : Checked EIP
  plan : ProofPlan
  builder : String
  verifier : String

/-- The run of a job. -/
def VADOrchestrator.runJob (o : VADOrchestrator ε) (job : LoopJob ε) :
    Except (LoopError ε) LoopResult :=
  o.run job.world job.eip.1 job.plan job.builder job.verifier

/-- Does the run get to `_evaluate_release`? -/
def VADOrchestrator.reachesRelease (o : VADOrchestrator ε) (job : LoopJob ε) : Bool :=
  o.effortBlocker.isNone &&
  decide (job.eip.1.modelBudget.maxTokens ≠ 0) && decide (job.eip.1.modelBudget.maxCost ≠ 0) &&
  (match job.world.policy o.policyPath job.builder job.verifier with
    | .ok d => d.allow
    | .error _ => false) &&
  (match o.provider with
    | none => true
    | some p =>
      match o.callProvider p job.eip.1 with
      | .ok call => call.blocker.isNone
      | .error _ => false) &&
  (VerifierRunner.run job.world.sha256 job.world.execute job.eip.1 job.plan job.world.now).passed &&
  job.eip.1.releaseRequirements.required

/-- The orchestrator after the run: its release manager has been given the gates of the EIP. -/
def VADOrchestrator.after (o : VADOrchestrator ε) (job : LoopJob ε) : VADOrchestrator ε :=
  if o.reachesRelease job then { o with releaseManager := o.gated job.eip.1 } else o

/-- The final decision and the release event of a run. -/
def outcomeOf (r : Except (LoopError ε) LoopResult) :
    Except (LoopError ε) (LoopStatus × Option ReleaseEvent) :=
  r.map fun r => (r.finalDecision, r.evidence.1.release)

/-- The outcomes of the runs, each on what the ones before have left. -/
def VADOrchestrator.history (o : VADOrchestrator ε) :
    List (LoopJob ε) → List (Except (LoopError ε) (LoopStatus × Option ReleaseEvent))
  | [] => []
  | job :: rest => outcomeOf (o.runJob job) :: (o.after job).history rest

/-- Every run of the history has the outcome that it has alone on a fresh orchestrator. -/
def Independent (o : VADOrchestrator ε) (jobs : List (LoopJob ε)) : Prop :=
  o.history jobs = jobs.map fun job => outcomeOf (o.runJob job)

/-! ## What earlier runs leave -/

/-- The gates that runs have added. -/
def VADOrchestrator.earlierGates (o : VADOrchestrator ε) (jobs : List (LoopJob ε)) : List String :=
  (jobs.filter o.reachesRelease).flatMap fun job => job.eip.1.releaseRequirements.gates

/-- The gate that a run adds for a name. -/
def eipGate (name : String) : RolloutGate := ⟨name, 19 / 20⟩

/-- The orchestrator with further gates in its release manager. -/
def VADOrchestrator.withGates (o : VADOrchestrator ε) (names : List String) : VADOrchestrator ε :=
  { o with releaseManager :=
    { o.releaseManager with gates := o.releaseManager.gates ++ names.map eipGate } }

/-- Whether a run gets to its release does not depend on the manager. -/
theorem reachesRelease_withGates (o : VADOrchestrator ε) (names : List String) (job : LoopJob ε) :
    (o.withGates names).reachesRelease job = o.reachesRelease job := rfl

theorem withGates_nil (o : VADOrchestrator ε) : o.withGates [] = o := by
  unfold VADOrchestrator.withGates
  rw [List.map_nil, List.append_nil]

theorem withGates_withGates (o : VADOrchestrator ε) (names more : List String) :
    (o.withGates names).withGates more = o.withGates (names ++ more) := by
  unfold VADOrchestrator.withGates
  rw [List.map_append, ← List.append_assoc]

theorem gated_eq (o : VADOrchestrator ε) (eip : EIP) :
    { o with releaseManager := o.gated eip } = o.withGates eip.releaseRequirements.gates := by
  have hflags : (o.gated eip).flags = o.releaseManager.flags := by
    unfold VADOrchestrator.gated
    generalize eip.releaseRequirements.gates = gates
    generalize o.releaseManager = m
    induction gates generalizing m with
    | nil => rfl
    | cons gate rest ih => exact ih (m.addGate ⟨gate, 19 / 20⟩)
  have hgates := gated_gates o eip
  unfold VADOrchestrator.withGates
  generalize o.gated eip = m at hflags hgates
  obtain ⟨flags, gates⟩ := m
  obtain rfl : flags = o.releaseManager.flags := hflags
  obtain rfl : gates = _ := hgates
  rfl

theorem after_eq (o : VADOrchestrator ε) (job : LoopJob ε) :
    o.after job = o.withGates (o.earlierGates [job]) := by
  unfold VADOrchestrator.after VADOrchestrator.earlierGates
  cases h : o.reachesRelease job with
  | true =>
    rw [if_pos rfl, gated_eq, List.filter_cons_of_pos h]
    simp
  | false =>
    rw [List.filter_cons_of_neg (by simp [h])]
    exact (withGates_nil o).symm

/-- After several runs, the manager has the gates of those that got to their release. -/
theorem foldl_after (o : VADOrchestrator ε) (jobs : List (LoopJob ε)) :
    jobs.foldl VADOrchestrator.after o = o.withGates (o.earlierGates jobs) := by
  induction jobs using List.reverseRecOn with
  | nil => exact (withGates_nil o).symm
  | append_singleton jobs job ih =>
    rw [List.foldl_append, ih]
    show (o.withGates (o.earlierGates jobs)).after job = _
    rw [after_eq, withGates_withGates]
    unfold VADOrchestrator.earlierGates
    rw [List.filter_append, List.flatMap_append]
    rfl

/-! ## A run that gets to its release -/

variable {o : VADOrchestrator ε} {job : LoopJob ε} {names : List String}

/-- The answer of a provider lets the run go on exactly when it is allowed and not too dear. -/
theorem callProvider_free {p : Provider ε} {eip : Checked EIP} :
    (match o.callProvider p eip.1 with
      | .ok call => call.blocker.isNone
      | .error _ => false) = true ↔
    ∃ result, o.complete p eip.1 = .ok result ∧ result.1.allowed = true ∧
      result.1.estimatedCost ≤ eip.1.modelBudget.maxCost := by
  constructor
  · intro h
    cases hcall : o.callProvider p eip.1 with
    | error e =>
      rw [hcall] at h
      cases h
    | ok call =>
      rw [hcall] at h
      obtain ⟨result, hresult, hblocker, -⟩ := callProvider_budget hcall
      have hnone : call.blocker = none := Option.isNone_iff_eq_none.mp h
      exact ⟨result, hresult, providerBlocker_eq_none.mp (hblocker.symm.trans hnone)⟩
  · rintro ⟨result, hresult, hfine⟩
    have hused := usedTokens_nonneg result
    obtain ⟨created, hcreate, -, -⟩ := TokenBudget.create_ok (EIP.maxTokens_nonneg eip)
    obtain ⟨tokenBudget, hrecord⟩ := TokenBudget.recordUsage_ok created hused
    have hcall : o.callProvider p eip.1 = .ok {
        blocker := providerBlocker eip.1 result.1
        modelRoutes := [.provider (providerEvent eip.1 result.1)]
        tokenBudget := tokenBudget } :=
      bind_ok.mpr ⟨result, hresult, bind_ok.mpr ⟨created, own_ok.mpr hcreate,
        bind_ok.mpr ⟨tokenBudget, own_ok.mpr hrecord, rfl⟩⟩⟩
    rw [hcall]
    show (providerBlocker eip.1 result.1).isNone = true
    rw [providerBlocker_eq_none.mpr hfine]
    rfl

/-- A run gets to its release exactly if nothing stops it before, and the EIP requires one. -/
theorem reachesRelease_iff : o.reachesRelease job = true ↔
    Cleared o job.world job.eip.1 job.plan job.builder job.verifier ∧
      job.eip.1.releaseRequirements.required = true := by
  have hpolicy : (match job.world.policy o.policyPath job.builder job.verifier with
      | .ok d => d.allow
      | .error _ => false) = true ↔
      ∃ d, job.world.policy o.policyPath job.builder job.verifier = .ok d ∧ d.allow = true := by
    cases job.world.policy o.policyPath job.builder job.verifier <;> simp
  have hprovider : (match o.provider with
      | none => true
      | some p =>
        match o.callProvider p job.eip.1 with
        | .ok call => call.blocker.isNone
        | .error _ => false) = true ↔
      ∀ p, o.provider = some p → ∃ result, o.complete p job.eip.1 = .ok result ∧
        result.1.allowed = true ∧ result.1.estimatedCost ≤ job.eip.1.modelBudget.maxCost := by
    cases o.provider with
    | none => simp
    | some p =>
      refine callProvider_free.trans ⟨fun h p' hp' => ?_, fun h => h p rfl⟩
      obtain rfl : p = p' := Option.some.inj hp'
      exact h
  unfold VADOrchestrator.reachesRelease
  rw [Bool.and_eq_true, Bool.and_eq_true, Bool.and_eq_true, Bool.and_eq_true, Bool.and_eq_true,
    Bool.and_eq_true, hpolicy, hprovider, decide_eq_true_eq, decide_eq_true_eq,
    Option.isNone_iff_eq_none]
  constructor
  · rintro ⟨⟨⟨⟨⟨⟨heffort, htokens⟩, hcost⟩, hallowed⟩, hanswer⟩, hpassed⟩, hrequired⟩
    exact ⟨⟨heffort, htokens, hcost, hallowed, hanswer, hpassed⟩, hrequired⟩
  · rintro ⟨h, hrequired⟩
    exact ⟨⟨⟨⟨⟨⟨h.effort, h.tokens⟩, h.cost⟩, h.policy⟩, h.provider⟩, h.verified⟩, hrequired⟩

/-- A run that gets to its release ends with what the evaluation gives. -/
theorem outcome_released (h : o.reachesRelease job = true) :
    outcomeOf (o.runJob job) = .ok ((o.evaluateRelease job.world.float job.eip.1).2,
      some (o.evaluateRelease job.world.float job.eip.1).1) := by
  obtain ⟨hcleared, hrequired⟩ := reachesRelease_iff.mp h
  have hrun : Outcome (fun r => r.finalDecision = .passed ↔
      PassedFor o job.world job.eip.1 job.plan job.builder job.verifier)
      (¬ Cleared o job.world job.eip.1 job.plan job.builder job.verifier) (o.runJob job) :=
    run_outcome
  cases hout : o.runJob job with
  | error e =>
    rw [hout] at hrun
    cases e with
    | outside x => exact absurd hcleared hrun
    | python x => exact absurd hcleared hrun.2
  | ok r =>
    obtain ⟨state, final, decisions, options, hexit, hconclude⟩ := run_exit hout
    obtain ⟨hfinal, -, hrelease⟩ := conclude_evidence hconclude
    show Except.ok (r.finalDecision, r.evidence.1.release) = _
    rw [hfinal, hrelease]
    -- the other exits are for runs that something stops
    cases hexit with
    | effort hblocker =>
      rw [hcleared.effort] at hblocker
      cases hblocker
    | exhausted hbudget => exact absurd hbudget (not_or.mpr ⟨hcleared.tokens, hcleared.cost⟩)
    | denied hpolicy hdenied =>
      obtain ⟨d, hd, hallow⟩ := hcleared.policy
      obtain rfl := Except.ok.inj (hpolicy.symm.trans hd)
      rw [hdenied] at hallow
      cases hallow
    | provider hp hcall hblocker =>
      obtain ⟨result, hresult, hfine⟩ := hcleared.provider _ hp
      obtain ⟨result', hresult', hstop, -⟩ := callProvider_budget hcall
      obtain rfl : result = result' := Except.ok.inj (hresult.symm.trans hresult')
      rw [hstop, providerBlocker_eq_none.mpr hfine] at hblocker
      cases hblocker
    | verified hcall hreport hnorelease =>
      rw [hreport] at hnorelease
      exact absurd ⟨hcleared.verified, hrequired⟩ hnorelease
    | released => rfl

/-! ## Earlier gates and the run -/

theorem withGates_effortBlocker : (o.withGates names).effortBlocker = o.effortBlocker := rfl

theorem withGates_metrics : (o.withGates names).metrics = o.metrics := rfl

theorem withGates_provider : (o.withGates names).provider = o.provider := rfl

theorem withGates_conclude : (o.withGates names).conclude = o.conclude := rfl

/-- Verification and release are the same if a release has the same evaluation. -/
theorem withGates_verifyAndRelease {w : LoopWorld ε} {eip : EIP} {plan : ProofPlan}
    {builder verifier : String} {state : LoopState} {decisions : List PolicyDecision}
    {call : Option ProviderCall}
    (h : (VerifierRunner.run w.sha256 w.execute eip plan w.now).passed = true →
      eip.releaseRequirements.required = true →
        (o.withGates names).evaluateRelease w.float eip = o.evaluateRelease w.float eip) :
    (o.withGates names).verifyAndRelease w eip plan builder verifier state decisions call =
      o.verifyAndRelease w eip plan builder verifier state decisions call := by
  unfold VADOrchestrator.verifyAndRelease
  simp only [withGates_conclude]
  refine bind_congr fun _ => bind_congr fun _ => ?_
  split
  · rename_i hrelease
    rw [h hrelease.1 hrelease.2]
  · rfl

/-- A run depends on the manager only through the evaluation of its release. -/
theorem withGates_runJob (h : o.reachesRelease job = true →
      (o.withGates names).evaluateRelease job.world.float job.eip.1 =
        o.evaluateRelease job.world.float job.eip.1) :
    (o.withGates names).runJob job = o.runJob job := by
  rw [reachesRelease_iff] at h
  unfold VADOrchestrator.runJob VADOrchestrator.run
  rw [withGates_effortBlocker, withGates_conclude]
  cases hblocker : o.effortBlocker with
  | some blocker => rfl
  | none =>
    simp only
    split
    · rfl
    · rename_i hbudget
      rw [not_or] at hbudget
      refine bind_congr fun planned => ?_
      show external (job.world.policy o.policyPath job.builder job.verifier) >>= _ = _
      cases hpolicy : job.world.policy o.policyPath job.builder job.verifier with
      | error e => rfl
      | ok decision =>
        show ite _ _ _ = ite _ _ _
        split
        · rfl
        · rename_i hallow
          have hallowed : decision.allow = true := by simpa using hallow
          have hcleared (hprovider : ∀ p, o.provider = some p → ∃ result,
              o.complete p job.eip.1 = .ok result ∧ result.1.allowed = true ∧
                result.1.estimatedCost ≤ job.eip.1.modelBudget.maxCost)
              (hpassed : (VerifierRunner.run job.world.sha256 job.world.execute job.eip.1 job.plan
                job.world.now).passed = true) :
              Cleared o job.world job.eip.1 job.plan job.builder job.verifier :=
            ⟨hblocker, hbudget.1, hbudget.2, ⟨decision, hpolicy, hallowed⟩, hprovider, hpassed⟩
          rw [withGates_provider]
          cases hp : o.provider with
          | none =>
            refine withGates_verifyAndRelease fun hpassed hrequired => ?_
            refine h ⟨hcleared (fun p hp' => ?_) hpassed, hrequired⟩
            rw [hp] at hp'
            cases hp'
          | some p =>
            show (o.callProvider p job.eip.1 >>= _) = (o.callProvider p job.eip.1 >>= _)
            cases hcall : o.callProvider p job.eip.1 with
            | error e => rfl
            | ok call =>
              dsimp only [bind, Except.bind]
              cases hstop : call.blocker with
              | some blocker => rfl
              | none =>
                refine withGates_verifyAndRelease fun hpassed hrequired => ?_
                refine h ⟨hcleared (fun p' hp' => ?_) hpassed, hrequired⟩
                obtain rfl : p = p' := Option.some.inj (hp.symm.trans hp')
                obtain ⟨result, hresult, hsame, -⟩ := callProvider_budget hcall
                exact ⟨result, hresult, providerBlocker_eq_none.mp (hsame.symm.trans hstop)⟩

/-! ## The first gate to fail -/

/-- The first of the names whose metric is under the threshold that a gate of an EIP has. -/
def firstFailing (metrics : Metrics) (names : List String) : Option String :=
  names.find? fun name => (Dict.get metrics name).any fun value => decide (value < 19 / 20)

theorem checkGates_cons {metrics : Metrics} {gate : RolloutGate} {rest : List RolloutGate} :
    checkGates metrics (gate :: rest) =
      match Dict.get metrics gate.metricName with
      | some value =>
        if value < gate.minimumHealthThreshold then
          .error (.rollback gate.metricName value gate.minimumHealthThreshold)
        else checkGates metrics rest
      | none => checkGates metrics rest := rfl

theorem checkGates_append {metrics : Metrics} {gates more : List RolloutGate} :
    checkGates metrics (gates ++ more) = checkGates metrics gates >>= fun _ =>
      checkGates metrics more := by
  induction gates with
  | nil => rfl
  | cons gate rest ih =>
    rw [List.cons_append, checkGates_cons, checkGates_cons]
    cases Dict.get metrics gate.metricName with
    | none => exact ih
    | some value =>
      show ite _ _ _ = (ite _ _ _ >>= _)
      split
      · rfl
      · exact ih

/-- What the gates of EIPs come to is decided by the first that fails. -/
theorem checkGates_named {metrics : Metrics} :
    checkGates metrics (names.map eipGate) =
      match firstFailing metrics names with
      | none => .ok ()
      | some name => .error (.rollback name ((Dict.get metrics name).getD 0) (19 / 20)) := by
  induction names with
  | nil => rfl
  | cons name rest ih =>
    unfold firstFailing
    rw [List.map_cons, checkGates_cons, List.find?_cons]
    show (match Dict.get metrics name with | some value => _ | none => _) = _
    cases hvalue : Dict.get metrics name with
    | none => exact ih
    | some value =>
      show ite (value < 19 / 20) _ _ = _
      by_cases hlow : value < 19 / 20
      · rw [if_pos hlow, Option.any_some, decide_eq_true hlow]
        show _ = Except.error (ReleaseError.rollback name ((Dict.get metrics name).getD 0) _)
        rw [hvalue]
        rfl
      · rw [if_neg hlow, Option.any_some, decide_eq_false hlow]
        exact ih

/-- The event and the status of a release by the first gate that fails. -/
def verdict (metrics : Metrics) (float : Rat → String) (eip : EIP) :
    Option String → ReleaseEvent × LoopStatus
  | none => ({
      required := true
      gates := eip.releaseRequirements.gates
      decision := "passed" }, .passed)
  | some name => ({
      required := true
      gates := eip.releaseRequirements.gates
      decision := "failed"
      error := some ((ReleaseError.rollback name ((Dict.get metrics name).getD 0)
        (19 / 20)).message float) }, .failed)

/-- Everything of the manager but its gates is the same, and these come before those of the EIP. -/
theorem withGates_gated (eip : EIP) : ((o.withGates names).gated eip).flags = o.releaseManager.flags ∧
    ((o.withGates names).gated eip).gates =
      o.releaseManager.gates ++ (names ++ eip.releaseRequirements.gates).map eipGate := by
  have h := gated_eq (o.withGates names) eip
  rw [withGates_withGates] at h
  have hmanager : (o.withGates names).gated eip =
      (o.withGates (names ++ eip.releaseRequirements.gates)).releaseManager :=
    congrArg VADOrchestrator.releaseManager h
  rw [hmanager]
  exact ⟨rfl, rfl⟩

/-- A release that its flag and the manager's first gates let through goes by the gates of the
    EIPs. -/
theorem evaluateRelease_withGates {float : Rat → String} {eip : EIP}
    (htelemetry : eip.telemetryRequirements.required = true)
    (hflag : o.releaseManager.flags.isEnabled eip.name = true)
    (hbase : checkGates o.metrics o.releaseManager.gates = .ok ()) :
    (o.withGates names).evaluateRelease float eip =
      verdict o.metrics float eip
        (firstFailing o.metrics (names ++ eip.releaseRequirements.gates)) := by
  obtain ⟨hflags, hgates⟩ := @withGates_gated _ o names eip
  have hchecked : checkGates o.metrics (o.releaseManager.gates ++
      (names ++ eip.releaseRequirements.gates).map eipGate) =
      match firstFailing o.metrics (names ++ eip.releaseRequirements.gates) with
      | none => .ok ()
      | some name => .error (.rollback name ((Dict.get o.metrics name).getD 0) (19 / 20)) := by
    rw [checkGates_append, hbase]
    exact checkGates_named
  unfold VADOrchestrator.evaluateRelease ReleaseManager.evaluateRelease
  rw [hflags, hgates, htelemetry, hflag, if_neg (by decide), if_neg (by decide),
    withGates_metrics, hchecked]
  cases firstFailing o.metrics (names ++ eip.releaseRequirements.gates) with
  | none => rfl
  | some name => rfl

/-- A release that these stop is stopped alike. -/
theorem evaluateRelease_stopped {float : Rat → String} {eip : EIP}
    (h : ¬ (o.releaseManager.flags.isEnabled eip.name = true ∧
      checkGates o.metrics o.releaseManager.gates = .ok ())) :
    (o.withGates names).evaluateRelease float eip = o.evaluateRelease float eip := by
  have hsame : ((o.withGates names).gated eip).evaluateRelease eip.name o.metrics
      eip.telemetryRequirements.required = (o.gated eip).evaluateRelease eip.name o.metrics
      eip.telemetryRequirements.required := by
    obtain ⟨hflags, hgates⟩ := @withGates_gated _ o names eip
    obtain ⟨hflags', hgates'⟩ := @withGates_gated _ o [] eip
    rw [withGates_nil] at hflags' hgates'
    unfold ReleaseManager.evaluateRelease
    rw [hflags, hgates, hflags', hgates']
    split
    · rfl
    · split
      · rfl
      · rename_i hflag
        have hon : o.releaseManager.flags.isEnabled eip.name = true := by simpa using hflag
        rw [checkGates_append, checkGates_append]
        cases hbase : checkGates o.metrics o.releaseManager.gates with
        | ok u => exact absurd ⟨hon, hbase⟩ h
        | error e => rfl
  unfold VADOrchestrator.evaluateRelease
  rw [withGates_metrics, hsame]

/-! ## Messages -/

/-- The last quote of a text tells what stands before it. -/
theorem before_last_quote {before before' after after' : List Char}
    (h : '\'' ∉ after) (h' : '\'' ∉ after')
    (heq : before ++ '\'' :: after = before' ++ '\'' :: after') : before = before' := by
  rcases List.append_eq_append_iff.mp heq with ⟨more, hbefore, hafter⟩ | ⟨more, hbefore, hafter⟩
  · cases more with
    | nil => rw [hbefore, List.append_nil]
    | cons c more =>
      rw [(List.cons.inj hafter).2] at h
      exact absurd (List.mem_append_right _ List.mem_cons_self) h
  · cases more with
    | nil => rw [hbefore, List.append_nil]
    | cons c more =>
      rw [(List.cons.inj hafter).2] at h'
      exact absurd (List.mem_append_right _ List.mem_cons_self) h'

/-- The message of a rollback tells the metric, as no number is written with a quote. -/
theorem metric_of_message {float : Rat → String} (hfloat : ∀ q, '\'' ∉ (float q).toList)
    {metric metric' : String} {value value' threshold : Rat}
    (h : (ReleaseError.rollback metric value threshold).message float =
      (ReleaseError.rollback metric' value' threshold).message float) : metric = metric' := by
  have htext (m : String) (v : Rat) : ((ReleaseError.rollback m v threshold).message float).toList =
      ("Rollback triggered: '".toList ++ m.toList) ++ '\'' :: (" health (".toList ++
        (float v).toList ++ ") is below threshold (".toList ++ (float threshold).toList ++
          ").".toList) := by
    unfold ReleaseError.message
    simp [String.toList_append, List.append_assoc]
  have hclean (v : Rat) : '\'' ∉ " health (".toList ++ (float v).toList ++
      ") is below threshold (".toList ++ (float threshold).toList ++ ").".toList := by
    simp [hfloat]
  have hlists := congrArg String.toList h
  rw [htext, htext] at hlists
  exact String.toList_inj.mp
    (List.append_cancel_left (before_last_quote (hclean value) (hclean value') hlists))

theorem verdict_inj {metrics : Metrics} {float : Rat → String} {eip : EIP}
    (hfloat : ∀ q, '\'' ∉ (float q).toList) {failing failing' : Option String}
    (h : verdict metrics float eip failing = verdict metrics float eip failing') :
    failing = failing' := by
  cases failing with
  | none =>
    cases failing' with
    | none => rfl
    | some name' => cases congrArg Prod.snd h
  | some name =>
    cases failing' with
    | none => cases congrArg Prod.snd h
    | some name' =>
      have herror := congrArg (fun v : ReleaseEvent × LoopStatus => v.1.error) h
      exact congrArg some (metric_of_message hfloat (Option.some.inj herror))

/-! ## Independence -/

/-- Where a release goes by the gates of EIPs, the first earlier gate that fails is also the first
    own gate that fails. -/
def KeepsVerdict (o : VADOrchestrator ε) (names : List String) (job : LoopJob ε) : Prop :=
  o.reachesRelease job = true → o.releaseManager.flags.isEnabled job.eip.1.name = true →
    (∀ gate ∈ o.releaseManager.gates, gate.Measured o.metrics → gate.Met o.metrics) →
      ∀ name, firstFailing o.metrics names = some name →
        firstFailing o.metrics job.eip.1.releaseRequirements.gates = some name

/-- Earlier gates leave the outcome of a run alone exactly where they keep its verdict. -/
theorem outcome_eq_iff (hfloat : ∀ q, '\'' ∉ (job.world.float q).toList) :
    outcomeOf ((o.withGates names).runJob job) = outcomeOf (o.runJob job) ↔
      KeepsVerdict o names job := by
  unfold KeepsVerdict
  cases hreaches : o.reachesRelease job with
  | false =>
    refine ⟨fun _ h => (by cases h), fun _ => congrArg _ (withGates_runJob fun h => ?_)⟩
    rw [hreaches] at h
    cases h
  | true =>
    have htelemetry := EIP.telemetry_of_release job.eip (reachesRelease_iff.mp hreaches).2
    rw [← checkGates_ok]
    by_cases hlets : o.releaseManager.flags.isEnabled job.eip.1.name = true ∧
        checkGates o.metrics o.releaseManager.gates = .ok ()
    · have hwith := @evaluateRelease_withGates _ o names job.world.float _
        htelemetry hlets.1 hlets.2
      have halone := @evaluateRelease_withGates _ o [] job.world.float _
        htelemetry hlets.1 hlets.2
      rw [withGates_nil, List.nil_append] at halone
      have hfind : firstFailing o.metrics (names ++ job.eip.1.releaseRequirements.gates) =
          (firstFailing o.metrics names).or
            (firstFailing o.metrics job.eip.1.releaseRequirements.gates) := List.find?_append
      rw [outcome_released hreaches,
        outcome_released ((reachesRelease_withGates o names job).trans hreaches), hwith, halone,
        hfind]
      constructor
      · intro heq _ _ _ name hname
        obtain ⟨hstatus, hevent⟩ := Prod.mk.inj (Except.ok.inj heq)
        have hsame := verdict_inj hfloat (Prod.ext (Option.some.inj hevent) hstatus)
        rw [hname] at hsame
        exact hsame.symm
      · intro hkeeps
        cases hname : firstFailing o.metrics names with
        | none => rfl
        | some name =>
          rw [hkeeps rfl hlets.1 hlets.2 name hname]
          rfl
    · refine ⟨fun _ _ hflag hbase => absurd ⟨hflag, hbase⟩ hlets, fun _ => congrArg _ ?_⟩
      exact withGates_runJob fun _ => evaluateRelease_stopped hlets

theorem earlierGates_cons (job : LoopJob ε) (jobs : List (LoopJob ε)) :
    o.earlierGates (job :: jobs) = o.earlierGates [job] ++ o.earlierGates jobs := by
  unfold VADOrchestrator.earlierGates
  rw [← List.flatMap_append, ← List.filter_append]
  rfl

/-- The runs of a history with earlier gates have the outcomes that they have alone exactly if each
    keeps its verdict. -/
theorem history_withGates {jobs : List (LoopJob ε)}
    (hfloat : ∀ job ∈ jobs, ∀ q, '\'' ∉ (job.world.float q).toList) (names : List String) :
    (o.withGates names).history jobs = jobs.map (fun job => outcomeOf (o.runJob job)) ↔
      ∀ done job rest, jobs = done ++ job :: rest →
        KeepsVerdict o (names ++ o.earlierGates done) job := by
  induction jobs generalizing names with
  | nil =>
    refine ⟨fun _ done job rest h => ?_, fun _ => rfl⟩
    simp at h
  | cons job rest ih =>
    obtain ⟨hhead, htail⟩ := List.forall_mem_cons.mp hfloat
    have hafter : (o.withGates names).after job = o.withGates (names ++ o.earlierGates [job]) :=
      (after_eq _ job).trans (withGates_withGates o names _)
    show outcomeOf ((o.withGates names).runJob job) :: ((o.withGates names).after job).history rest =
      outcomeOf (o.runJob job) :: rest.map _ ↔ _
    rw [List.cons_eq_cons, outcome_eq_iff hhead, hafter, ih htail]
    constructor
    · rintro ⟨hfirst, hrest⟩ done job' rest' heq
      cases done with
      | nil =>
        obtain ⟨rfl, rfl⟩ := List.cons_eq_cons.mp heq
        show KeepsVerdict o (names ++ []) job
        rw [List.append_nil]
        exact hfirst
      | cons job'' done =>
        obtain ⟨rfl, hrest'⟩ := List.cons_eq_cons.mp heq
        rw [earlierGates_cons, ← List.append_assoc]
        exact hrest done job' rest' hrest'
    · intro h
      refine ⟨?_, fun done job' rest' heq => ?_⟩
      · have hfirst := h [] job rest rfl
        rw [show o.earlierGates [] = [] from rfl, List.append_nil] at hfirst
        exact hfirst
      · have hlater := h (job :: done) job' rest' (congrArg (job :: ·) heq)
        rw [earlierGates_cons, ← List.append_assoc] at hlater
        exact hlater

/-- The runs of a history are independent exactly if each keeps its verdict with the gates that the
    runs before it have added. -/
theorem runs_independent_iff (o : VADOrchestrator ε) (jobs : List (LoopJob ε))
    (hfloat : ∀ job ∈ jobs, ∀ q, '\'' ∉ (job.world.float q).toList) :
    Independent o jobs ↔ ∀ done job rest, jobs = done ++ job :: rest →
      KeepsVerdict o (o.earlierGates done) job := by
  have h := history_withGates (o := o) hfloat []
  rw [withGates_nil] at h
  exact h

end History

/-! ## A gate that stays -/

/-- An EIP with a release that names the gates. -/
def releasedEip (gates : List String) : EIP :=
  { sampleEip .manualGate with
    releaseRequirements := { required := true, gates := gates }
    telemetryRequirements := { required := true } }

/-- A run of such an EIP. -/
def releaseJob (eip : Checked EIP) : LoopJob Empty where
  world := sampleWorld
  eip := eip
  plan := listedPlan
  builder := "alice"
  verifier := "bob"

/-- The run of an EIP that names a gate. -/
def gatedJob : LoopJob Empty := releaseJob ⟨releasedEip ["latency"], rfl, by decide⟩

/-- The run of one that names none. -/
def ungatedJob : LoopJob Empty := releaseJob ⟨releasedEip [], rfl, by decide⟩

/-- An orchestrator with the flag on, and a metric under the threshold. -/
def slowOrchestrator : VADOrchestrator Empty where
  releaseManager := { flags := [("candidate", true)] }
  releaseMetrics := some [("latency", 1 / 2)]

/-- The EIP without gates passes alone, and fails after the one with a gate. -/
theorem gate_outlives_run : ¬ Independent slowOrchestrator [gatedJob, ungatedJob] := by
  intro h
  have hsecond := congrArg (fun outcomes => outcomes[1]?) h
  have hafter : outcomeOf ((slowOrchestrator.after gatedJob).runJob ungatedJob) =
      outcomeOf (slowOrchestrator.runJob ungatedJob) := Option.some.inj hsecond
  have hfailed : (outcomeOf ((slowOrchestrator.after gatedJob).runJob ungatedJob)).toOption.map
      Prod.fst = some .failed := by decide +kernel
  have hpassed : (outcomeOf (slowOrchestrator.runJob ungatedJob)).toOption.map
      Prod.fst = some .passed := by decide
  rw [hafter, hpassed] at hfailed
  exact absurd hfailed (by decide)

/-- In the other order both have the outcomes that they have alone. -/
theorem runs_independent_iff_sample : Independent slowOrchestrator [ungatedJob, gatedJob] := by
  refine (runs_independent_iff slowOrchestrator [ungatedJob, gatedJob] ?_).mpr ?_
  · intro job hjob q
    rcases List.mem_pair.mp hjob with rfl | rfl
    · show '\'' ∉ "0.5".toList
      decide
    · show '\'' ∉ "0.5".toList
      decide
  · intro done job rest heq _ _ _ name hname
    have hnone : slowOrchestrator.earlierGates [ungatedJob] = [] := by decide
    cases done with
    | nil => cases hname
    | cons first done =>
      obtain ⟨rfl, hrest⟩ := List.cons_eq_cons.mp heq
      cases done with
      | nil =>
        rw [hnone] at hname
        cases hname
      | cons second done => simp at hrest

end Vad
