/-
  From an ask to its proof plan (`vad/ask`, `vad/proof/mapper.py`).

  The stages fit together whatever the ask says: the assessment passes its checks, the intent made
  of it passes those of the contract, and the mapper knows a command for each of its obligations
  (`ask_to_plan`).
-/
import Vad.Ask.Assessment
import Vad.Proof.Plan

namespace Vad

open PyText (Text strip)

/-! ## The assessment -/

/-- The assessment of an ask passes its checks. -/
theorem assessmentData_valid (lower : Text → Text) (ask : Text) :
    Model.Valid (assessmentData lower ask) := by
  refine ⟨rfl, failedFields_eq_nil.mpr fun c hc => ?_⟩
  simp only [Model.checks, List.mem_cons, List.not_mem_nil, or_false] at hc
  rcases hc with rfl | rfl | rfl | rfl | rfl | rfl
  · simp [assessmentData]
  · show decide (0 ≤ if _ then (2 : Rat) else 1) = true
    split <;> decide
  · show decide (0 ≤ if _ then (8000 : Int) else 10000) = true
    split <;> decide
  · show decide (1 ≤ if _ then (1 : Int) else 3) = true
    split <;> decide
  · show (decide (0 ≤ if _ then (80 : Int) else 70) && decide ((if _ then (80 : Int) else 70) ≤ 100)) =
      true
    split <;> decide
  · show decide (1 ≤ if _ then (3 : Int) else 5) = true
    split <;> decide

/-- High risk or an open question leaves no autonomy. -/
theorem autonomyTierOf_manual {risk : RiskTier} {questions : List String} {text : Text}
    (h : risk = .high ∨ questions ≠ []) : autonomyTierOf risk questions text = .manual := by
  unfold autonomyTierOf
  rw [if_pos]
  rcases h with hrisk | hquestions
  · exact Or.inr (Or.inl hrisk)
  · exact Or.inl hquestions

/-! ## The intent -/

/-- The intent has the obligations of the required kinds and, in the manual tier, a manual gate. -/
theorem eipFromAssessment_eq_ok {name : String} {a : AskAssessment} {eip : Checked EIP}
    (h : eipFromAssessment name a = .ok eip) : ∃ obligations gate,
      obligationsFrom a.summary 1 a.requiredProofKinds = .ok obligations ∧
      eip.1 = eipData name a (obligations ++ gate) ∧
      (a.autonomyTier = .manual → ∃ ob ∈ gate, ob.kind = .manualGate) := by
  unfold eipFromAssessment at h
  split at h
  · cases h
  rename_i obligations hobligations
  refine ⟨obligations, _, hobligations, Model.build_eq_ok h, fun hmanual => ?_⟩
  rw [if_pos hmanual]
  exact ⟨_, List.mem_singleton_self _, rfl⟩

/-- The unit proof is always required. -/
theorem proofKindsOf_ne_nil (text : Text) (releaseNeeded telemetryNeeded : Bool) :
    proofKindsOf text releaseNeeded telemetryNeeded ≠ [] := by
  refine List.ne_nil_of_mem (a := "unit") ((List.mem_insertionSort _).mpr ?_)
  simp

/-- **Whatever the ask**: it is assessed, the intent made of the assessment is valid, its
    obligations have distinct ids, and it is mapped to a plan that covers each of them once; high
    risk or an open question puts it in the manual tier, behind a manual gate; and it requires
    telemetry where it requires a release. -/
theorem ask_to_plan (lower : Text → Text) (sha256 : EIP → String) (name : String) (ask : Text) :
    ∃ a eip plan, assessAsk lower ask = .ok a ∧ eipFromAssessment name a.1 = .ok eip ∧
      (eip.1.proofObligations.map ProofObligation.id).Nodup ∧
      mapProofs sha256 eip.1 = .ok plan ∧
      (∀ ob ∈ eip.1.proofObligations, plan.1.timesCovered ob.id = 1) ∧
      (a.1.riskTier = .high ∨ a.1.clarificationQuestions ≠ [] →
        eip.1.autonomyTier = .manual ∧ ∃ ob ∈ eip.1.proofObligations, ob.kind = .manualGate) ∧
      (eip.1.releaseRequirements.required = true →
        eip.1.telemetryRequirements.required = true) := by
  let a : Checked AskAssessment := ⟨assessmentData lower ask, assessmentData_valid lower ask⟩
  have hassess : assessAsk lower ask = .ok a := Model.build_of_valid a.2
  obtain ⟨eip, heip, hids⟩ := eip_of_ask hassess name
  obtain ⟨obligations, gate, hobligations, hdata, hgate⟩ := eipFromAssessment_eq_ok heip
  have hsome : eip.1.proofObligations ≠ [] := by
    rw [hdata]
    show obligations ++ gate ≠ []
    intro hnil
    obtain ⟨hnone, -⟩ := List.append_eq_nil_iff.mp hnil
    rw [hnone] at hobligations
    -- no obligation would mean that no kind is required
    cases hkinds : a.1.requiredProofKinds with
    | nil => exact proofKindsOf_ne_nil _ _ _ hkinds
    | cons kind rest =>
      rw [hkinds] at hobligations
      unfold obligationsFrom at hobligations
      split at hobligations
      · cases hobligations
      · split at hobligations
        · cases hobligations
        · cases hobligations
  obtain ⟨plan, hplan, hcovered⟩ := mapProofs_ok sha256 hsome hids
  refine ⟨a, eip, plan, hassess, heip, hids, hplan, hcovered, fun hrisky => ?_,
    EIP.telemetry_of_release eip⟩
  have hmanual : a.1.autonomyTier = .manual := autonomyTierOf_manual hrisky
  obtain ⟨ob, hob, hkind⟩ := hgate hmanual
  rw [hdata]
  exact ⟨hmanual, ob, List.mem_append_right _ hob, hkind⟩

end Vad
