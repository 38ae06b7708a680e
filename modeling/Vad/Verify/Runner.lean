/-
  The verifier (`vad/verify/runner.py`).

  `VerifierRunner.run` collects three kinds of results — the plan is of another EIP, an obligation
  is not covered, a mapped command was run — and one boolean, on which everything after it rests.

  1. **The oracle** — what splitting and running a command gives is arbitrary, and may differ from
     one obligation to the next: `execute i command` is the outcome at the `i`-th obligation, the
     text of an exception included.

  2. **What the boolean says** (`passed_iff`) — the plan is of this EIP, every obligation is covered,
     and every command that is mapped to one was allowed and exited with 0.

  3. **The gap** — coverage goes by the id alone.  An obligation that a person need not check is
     covered as soon as its id is listed among the manual gates.  The claim that every obligation of
     another kind is mapped and ran holds exactly when the plan lists no such id (`verified_iff`);
     the plans of the mapper never do.
-/
import Vad.Proof.Plan

namespace Vad

/-! ## Reports -/

structure ExecutionResult where
  command : List String
  allowed : Bool
  cwd : Option String := none
  exitCode : Option Int := none
  stdout : String := ""
  stderr : String := ""
  decision : PolicyDecision
deriving DecidableEq, Repr

structure ToolCall where
  command : List String
  cwd : Option String
  allowed : Bool
  exitCode : Option Int
  policyDecision : PolicyDecision
deriving DecidableEq, Repr

structure VerifierResult where
  obligationId : String
  status : VerifyStatus
  output : String
  error : Option String := none
  toolCall : Option ToolCall := none
deriving DecidableEq, Repr

structure VerifierReport where
  timestamp : DateTime
  results : List VerifierResult
  passed : Bool
deriving DecidableEq, Repr

/-- What `execution_guard.run(shlex.split(command))` gives at each obligation. -/
abbrev Execution : Type := Nat → String → Except String ExecutionResult

/-! ## The run -/

/-- `VerifierRunner._check_plan_matches_eip`. -/
def checkPlanMatchesEip (sha256 : EIP → String) (eip : EIP) (plan : ProofPlan) :
    List VerifierResult :=
  let errors :=
    (if plan.eipVersion ≠ eip.version then ["ProofPlan EIP version does not match EIP version."]
      else []) ++
    (if plan.eipDigest ≠ computeEipDigest sha256 eip then
      ["ProofPlan EIP digest does not match EIP content."] else [])
  errors.map fun error =>
    { obligationId := "proof-plan", status := .fail, output := "", error := some error }

/-- The result for an obligation that the plan does not cover. -/
def unmappedResult (ob : ProofObligation) : VerifierResult where
  obligationId := ob.id
  status := .unmapped
  output := ""
  error := some ("Obligation " ++ ob.id ++ " is unmapped in ProofPlan.")

/-- `VerifierRunner._check_unmapped`. -/
def checkUnmapped (eip : EIP) (plan : ProofPlan) : List VerifierResult :=
  (eip.proofObligations.filter (fun ob => !plan.coversObligation ob.id)).map unmappedResult

/-- Was the command allowed, and did it exit with 0? -/
def ExecutionResult.succeeded (r : ExecutionResult) : Bool :=
  r.allowed && decide (r.exitCode = some 0)

/-- The result for a command that was run, or that raised. -/
def executedResult (id : String) : Except String ExecutionResult → VerifierResult
  | .ok r => {
      obligationId := id
      status := if r.succeeded then .pass else .fail
      output := r.stdout
      error := if r.succeeded then none else some r.stderr
      toolCall := some ⟨r.command, r.cwd, r.allowed, r.exitCode, r.decision⟩ }
  | .error e => { obligationId := id, status := .fail, output := "", error := some e }

/-- Did the run of a command discharge its obligation? -/
def discharges : Except String ExecutionResult → Bool
  | .ok r => r.succeeded
  | .error _ => false

/-- The loop over the mapped obligations, from the `i`-th on: the results, and what is left of
    `passed`. -/
def runMapped (execute : Execution) (plan : ProofPlan) :
    Nat → List ProofObligation → Bool → List VerifierResult × Bool
  | _, [], passed => ([], passed)
  | i, ob :: rest, passed =>
    match plan.getMapping ob.id with
    | none => runMapped execute plan (i + 1) rest passed
    | some mapping =>
      let outcome := execute i mapping.testCommand
      let (results, passed') :=
        runMapped execute plan (i + 1) rest (passed && discharges outcome)
      (executedResult ob.id outcome :: results, passed')

/-- `VerifierRunner.run`. -/
def VerifierRunner.run (sha256 : EIP → String) (execute : Execution) (eip : EIP) (plan : ProofPlan)
    (now : DateTime) : VerifierReport :=
  let results := checkPlanMatchesEip sha256 eip plan ++ checkUnmapped eip plan
  let (executed, passed) :=
    runMapped execute plan 0 eip.proofObligations (decide (results.length = 0))
  { timestamp := now, results := results ++ executed, passed := passed }

/-! ## What the boolean says -/

section Passed

variable {sha256 : EIP → String} {execute : Execution} {eip : EIP} {plan : ProofPlan}
  {now : DateTime}

/-- The plan was made for this EIP. -/
def PlanMatches (sha256 : EIP → String) (eip : EIP) (plan : ProofPlan) : Prop :=
  plan.eipVersion = eip.version ∧ plan.eipDigest = computeEipDigest sha256 eip

/-- The command of every mapped obligation discharges it. -/
def MappedDischarged (execute : Execution) (eip : EIP) (plan : ProofPlan) : Prop :=
  ∀ i ob, eip.proofObligations[i]? = some ob → ∀ m, plan.getMapping ob.id = some m →
    discharges (execute i m.testCommand) = true

theorem checkPlanMatchesEip_eq_nil :
    checkPlanMatchesEip sha256 eip plan = [] ↔ PlanMatches sha256 eip plan := by
  unfold checkPlanMatchesEip PlanMatches
  rw [List.map_eq_nil_iff, List.append_eq_nil_iff]
  by_cases hv : plan.eipVersion = eip.version <;>
    by_cases hd : plan.eipDigest = computeEipDigest sha256 eip <;> simp [hv, hd]

theorem checkUnmapped_eq_nil :
    checkUnmapped eip plan = [] ↔
      ∀ ob ∈ eip.proofObligations, plan.coversObligation ob.id = true := by
  simp [checkUnmapped, List.filter_eq_nil_iff]

/-- The loop keeps `passed` exactly when every command that it runs discharges its obligation. -/
theorem runMapped_passed (i : Nat) (obs : List ProofObligation) (passed : Bool) :
    (runMapped execute plan i obs passed).2 = true ↔
      passed = true ∧ ∀ j ob, obs[j]? = some ob → ∀ m, plan.getMapping ob.id = some m →
        discharges (execute (i + j) m.testCommand) = true := by
  induction obs generalizing i passed with
  | nil => simp [runMapped]
  | cons ob rest ih =>
    -- the tail starts one position later
    have htail : ∀ b, (runMapped execute plan (i + 1) rest b).2 = true ↔
        b = true ∧ ∀ j x, rest[j]? = some x → ∀ m, plan.getMapping x.id = some m →
          discharges (execute (i + (j + 1)) m.testCommand) = true := by
      intro b
      rw [ih (i + 1) b]
      have hshift : ∀ j, i + 1 + j = i + (j + 1) := fun j => by omega
      simp only [hshift]
    unfold runMapped
    cases hm : plan.getMapping ob.id with
    | none =>
      show (runMapped execute plan (i + 1) rest passed).2 = true ↔ _
      rw [htail]
      refine and_congr_right fun _ => ⟨fun h j x hx m hxm => ?_, fun h j x hx => h (j + 1) x hx⟩
      cases j with
      | zero =>
        obtain rfl : ob = x := by simpa using hx
        rw [hm] at hxm
        cases hxm
      | succ j => exact h j x hx m hxm
    | some m =>
      show (runMapped execute plan (i + 1) rest
        (passed && discharges (execute i m.testCommand))).2 = true ↔ _
      rw [htail, Bool.and_eq_true, and_assoc]
      refine and_congr_right fun _ => ⟨fun h j x hx m' hxm => ?_, fun h => ⟨?_, ?_⟩⟩
      · cases j with
        | zero =>
          obtain rfl : ob = x := by simpa using hx
          rw [hm] at hxm
          cases hxm
          exact h.1
        | succ j => exact h.2 j x hx m' hxm
      · exact h 0 ob rfl m hm
      · exact fun j x hx => h (j + 1) x hx

/-- The report passes exactly when the plan is of this EIP, covers every obligation, and every
    mapped command was allowed and exited with 0. -/
theorem passed_iff :
    (VerifierRunner.run sha256 execute eip plan now).passed = true ↔
      PlanMatches sha256 eip plan ∧
      (∀ ob ∈ eip.proofObligations, plan.coversObligation ob.id = true) ∧
      MappedDischarged execute eip plan := by
  have hloop := @runMapped_passed execute plan 0 eip.proofObligations
    (decide ((checkPlanMatchesEip sha256 eip plan ++ checkUnmapped eip plan).length = 0))
  have hstart : decide ((checkPlanMatchesEip sha256 eip plan ++ checkUnmapped eip plan).length = 0)
      = true ↔ PlanMatches sha256 eip plan ∧
        ∀ ob ∈ eip.proofObligations, plan.coversObligation ob.id = true := by
    rw [decide_eq_true_iff, List.length_eq_zero_iff, List.append_eq_nil_iff,
      checkPlanMatchesEip_eq_nil, checkUnmapped_eq_nil]
  rw [hstart, and_assoc] at hloop
  simp only [Nat.zero_add] at hloop
  exact hloop

end Passed

/-! ## What it should say -/

/-- An obligation that no person checks has a command, which was allowed and exited with 0; so did
    every other mapped command; and every manual gate is mapped or listed. -/
structure Verified (sha256 : EIP → String) (execute : Execution) (eip : EIP) (plan : ProofPlan) :
    Prop where
  matching : PlanMatches sha256 eip plan
  automatic : ∀ i ob, eip.proofObligations[i]? = some ob → ob.kind ≠ .manualGate →
    ∃ m, plan.getMapping ob.id = some m ∧ discharges (execute i m.testCommand) = true
  mapped : MappedDischarged execute eip plan
  manual : ∀ ob ∈ eip.proofObligations, ob.kind = .manualGate →
    (plan.getMapping ob.id).isSome = true ∨ ob.id ∈ plan.requiredManualGates

/-- An obligation of another kind that has no command is reported as unmapped. -/
def UnmappedReported (report : VerifierReport) (eip : EIP) (plan : ProofPlan) : Prop :=
  ∀ ob ∈ eip.proofObligations, ob.kind ≠ .manualGate → plan.getMapping ob.id = none →
    ∃ r ∈ report.results, r.obligationId = ob.id ∧ r.status = .unmapped

/-- No obligation of another kind is listed as a manual gate in place of a command. -/
def GatesAreManual (eip : EIP) (plan : ProofPlan) : Prop :=
  ∀ ob ∈ eip.proofObligations, ob.kind ≠ .manualGate → ob.id ∈ plan.requiredManualGates →
    (plan.getMapping ob.id).isSome = true

section Verified

variable {sha256 : EIP → String} {execute : Execution} {eip : EIP} {plan : ProofPlan}

theorem coversObligation_iff {id : String} :
    plan.coversObligation id = true ↔
      (plan.getMapping id).isSome = true ∨ id ∈ plan.requiredManualGates := by
  simp [ProofPlan.coversObligation]

/-- Where the manual gates are manual, coverage is what it should be. -/
theorem verified_of_passed (hgates : GatesAreManual eip plan)
    (hmatch : PlanMatches sha256 eip plan)
    (hcovers : ∀ ob ∈ eip.proofObligations, plan.coversObligation ob.id = true)
    (hmapped : MappedDischarged execute eip plan) : Verified sha256 execute eip plan := by
  refine ⟨hmatch, fun i ob hob hkind => ?_, hmapped, fun ob hob _ =>
    coversObligation_iff.mp (hcovers ob hob)⟩
  have hmem := List.mem_of_getElem? hob
  have hsome : (plan.getMapping ob.id).isSome = true := by
    rcases coversObligation_iff.mp (hcovers ob hmem) with h | h
    · exact h
    · exact hgates ob hmem hkind h
  obtain ⟨m, hm⟩ := Option.isSome_iff_exists.mp hsome
  exact ⟨m, hm, hmapped i ob hob m hm⟩

theorem covers_of_verified (h : Verified sha256 execute eip plan) :
    ∀ ob ∈ eip.proofObligations, plan.coversObligation ob.id = true := by
  intro ob hob
  rw [coversObligation_iff]
  by_cases hkind : ob.kind = .manualGate
  · exact h.manual ob hob hkind
  · obtain ⟨i, hi⟩ := List.getElem?_of_mem hob
    obtain ⟨m, hm, -⟩ := h.automatic i ob hi hkind
    exact Or.inl (by rw [hm]; rfl)

theorem mem_results_of_uncovered {now : DateTime} {ob : ProofObligation}
    (hob : ob ∈ eip.proofObligations) (h : plan.coversObligation ob.id = false) :
    unmappedResult ob ∈ (VerifierRunner.run sha256 execute eip plan now).results := by
  have hmem : unmappedResult ob ∈ checkUnmapped eip plan :=
    List.mem_map_of_mem (List.mem_filter.mpr ⟨hob, by simp [h]⟩)
  exact List.mem_append_left _ (List.mem_append_right _ hmem)

/-- Only the check for uncovered obligations reports something as unmapped. -/
theorem unmapped_of_mem {now : DateTime} {r : VerifierResult}
    (hr : r ∈ (VerifierRunner.run sha256 execute eip plan now).results)
    (hstatus : r.status = .unmapped) :
    ∃ ob ∈ eip.proofObligations, r.obligationId = ob.id ∧ plan.coversObligation ob.id = false := by
  have hexecuted : ∀ (obs : List ProofObligation) (i : Nat) (passed : Bool),
      ∀ r ∈ (runMapped execute plan i obs passed).1, r.status ≠ .unmapped := by
    intro obs
    induction obs with
    | nil => exact fun _ _ r hr => absurd hr List.not_mem_nil
    | cons ob rest ih =>
      intro i passed r hr
      unfold runMapped at hr
      split at hr
      · exact ih _ _ r hr
      · rcases List.mem_cons.mp hr with rfl | hr
        · unfold executedResult
          split
          · show (if _ then VerifyStatus.pass else VerifyStatus.fail) ≠ _
            split <;> exact fun h => by cases h
          · exact fun h => by cases h
        · exact ih _ _ r hr
  rcases List.mem_append.mp hr with hr | hr
  · rcases List.mem_append.mp hr with hr | hr
    · obtain ⟨error, -, rfl⟩ := List.mem_map.mp hr
      cases hstatus
    · obtain ⟨ob, hob, rfl⟩ := List.mem_map.mp hr
      obtain ⟨hob, hcover⟩ := List.mem_filter.mp hob
      exact ⟨ob, hob, rfl, by simpa using hcover⟩
  · exact absurd hstatus (hexecuted _ _ _ r hr)

/-- The report passes exactly when the EIP is verified, and nothing but a command or a person's
    check covers an obligation, exactly when no obligation that wants a command is listed as a
    manual gate instead. -/
theorem verified_iff (sha256 : EIP → String) (execute : Execution) (eip : EIP) (plan : ProofPlan)
    (now : DateTime) :
    (((VerifierRunner.run sha256 execute eip plan now).passed = true ↔
        Verified sha256 execute eip plan) ∧
      UnmappedReported (VerifierRunner.run sha256 execute eip plan now) eip plan) ↔
      GatesAreManual eip plan := by
  constructor
  · rintro ⟨-, hreported⟩ ob hob hkind hlisted
    -- a listed obligation is covered, and nothing covered is reported as unmapped
    by_contra hnone
    have hnomap : plan.getMapping ob.id = none := by simpa using hnone
    obtain ⟨r, hr, hid, hstatus⟩ := hreported ob hob hkind hnomap
    obtain ⟨x, -, hx, huncovered⟩ := unmapped_of_mem hr hstatus
    have hcovered : plan.coversObligation x.id = true :=
      coversObligation_iff.mpr (Or.inr (by rw [← hx, hid]; exact hlisted))
    rw [hcovered] at huncovered
    cases huncovered
  · intro hgates
    refine ⟨⟨fun h => ?_, fun h => ?_⟩, fun ob hob hkind hnone => ?_⟩
    · obtain ⟨hmatch, hcovers, hmapped⟩ := passed_iff.mp h
      exact verified_of_passed hgates hmatch hcovers hmapped
    · exact passed_iff.mpr ⟨h.matching, covers_of_verified h, h.mapped⟩
    · have huncovered : plan.coversObligation ob.id = false := by
        have hnotlisted : ob.id ∉ plan.requiredManualGates := fun hlisted => by
          have hsome := hgates ob hob hkind hlisted
          rw [hnone] at hsome
          cases hsome
        simp [ProofPlan.coversObligation, hnone, hnotlisted]
      exact ⟨_, mem_results_of_uncovered hob huncovered, rfl, rfl⟩

end Verified

/-! ## A unit proof that nobody runs -/

/-- An EIP with one obligation. -/
def sampleEip (kind : ProofKind) : EIP where
  version := "1.0.0"
  name := "candidate"
  goal := ⟨"build it", ["it works"]⟩
  nonGoals := []
  riskTier := .low
  autonomyTier := .manual
  scopeBoundaries := []
  invariants := {}
  constraints := {}
  proofObligations := [⟨"o1", kind, "it works"⟩]
  toolPermissions := {}
  memoryRequirements := []
  modelBudget := ⟨1000, 1, 1⟩
  releaseRequirements := { required := false }
  telemetryRequirements := { required := false }

/-- A plan that lists the obligation as a manual gate and runs nothing. -/
def listedPlan : ProofPlan where
  eipVersion := "1.0.0"
  eipDigest := ""
  mappings := []
  requiredManualGates := ["o1"]

/-- A listed unit obligation passes without any command. -/
theorem listed_unit_passes :
    ¬ ((VerifierRunner.run (fun _ => "") (fun _ _ => .error "") (sampleEip .unit) listedPlan
        ⟨0, none⟩).passed = true ↔
      Verified (fun _ => "") (fun _ _ => .error "") (sampleEip .unit) listedPlan) := by
  intro h
  have hverified := h.mp rfl
  obtain ⟨m, hm, -⟩ := hverified.automatic 0 _ rfl (by decide)
  cases hm

end Vad
