/-
  Proof plans (`vad/proof/plan.py`) and the mapper that makes them (`vad/proof/mapper.py`).

  A plan names a test command for each proof obligation, by the obligation's id, and lists the ids
  that a person checks by hand.  The mapper lists only obligations of the kind `manual_gate`
  (`mapProofs_mapsAll`); a plan that comes from elsewhere may list any id.
-/
import Vad.Contracts.Models

namespace Vad

inductive VerifyStatus where
  | pass | fail | pending | unmapped
deriving DecidableEq, Repr

structure ProofMapping where
  obligationId : String
  testCommand : String
deriving DecidableEq, Repr

structure ProofPlan where
  schemaVersion : String := "1.0.0"
  eipVersion : String
  eipDigest : String
  mappings : List ProofMapping
  requiredManualGates : List String := []
deriving DecidableEq, Repr

/-- `reject_duplicate_mappings`. -/
instance : Model ProofPlan where
  name := "ProofPlan"
  normalize := id
  checks p := [("mappings", decide (p.mappings.map ProofMapping.obligationId).Nodup)]
  normalize_idem _ := rfl

namespace ProofPlan

/-- `ProofPlan.get_mapping`. -/
def getMapping (p : ProofPlan) (obligationId : String) : Option ProofMapping :=
  p.mappings.find? (fun m => m.obligationId = obligationId)

/-- `ProofPlan.covers_obligation`: by the id alone. -/
def coversObligation (p : ProofPlan) (obligationId : String) : Bool :=
  (p.getMapping obligationId).isSome || decide (obligationId ∈ p.requiredManualGates)

theorem getMapping_isSome {p : ProofPlan} {id : String} :
    (p.getMapping id).isSome = true ↔ ∃ m ∈ p.mappings, m.obligationId = id := by
  simp [getMapping, List.find?_isSome]

end ProofPlan

/-- `compute_eip_digest`: `sha256` stands for the digest of the canonical JSON text. -/
def computeEipDigest (sha256 : EIP → String) (e : EIP) : String := sha256 (normalizeEip e)

/-! ## The mapper -/

/-- `COMMANDS_BY_KIND`. -/
def commandsByKind : ProofKind → Option String
  | .unit => some "pytest"
  | .property => some "pytest"
  | .contract => some "pytest -m contract"
  | .security => some "pytest -m security"
  | .performance => some "pytest -m performance"
  | .policy => some "pytest -m policy"
  | .release => some "pytest -m release"
  | .telemetry => some "pytest -m telemetry"
  | .manualGate => none

/-- The loop of `map_proofs`: the mappings and the manual gates, in order. -/
def mapObligations : List ProofObligation → Except PyError (List ProofMapping × List String)
  | [] => .ok ([], [])
  | ob :: rest => do
    let (mappings, gates) ← mapObligations rest
    if ob.kind = .manualGate then pure (mappings, ob.id :: gates)
    else
      match commandsByKind ob.kind with
      | some command => pure (⟨ob.id, command⟩ :: mappings, gates)
      | none => .error (.valueError ("Unsupported proof kind: " ++ ob.kind.value))

/-- `_ensure_proof_coverage`. -/
def ensureProofCoverage (e : EIP) : Except PyError Unit :=
  let stated := e.invariants.security ++ e.invariants.performance ++ e.invariants.functional ++
    e.goal.successCriteria
  if stated ≠ [] ∧ e.proofObligations = [] then
    .error (.valueError
      "EIP has success criteria or invariants but no proof obligations.")
  else .ok ()

/-- `map_proofs`. -/
def mapProofs (sha256 : EIP → String) (e : EIP) : Except PyError (Checked ProofPlan) := do
  ensureProofCoverage e
  let sorted := e.proofObligations.insertionSort (fun a b => a.id ≤ b.id)
  let (mappings, gates) ← mapObligations sorted
  Model.build {
    eipVersion := e.version
    eipDigest := computeEipDigest sha256 e
    mappings := mappings
    requiredManualGates := gates }

/-- Every obligation of another kind gets a command. -/
theorem mapObligations_mapsAll {obs : List ProofObligation} {mappings : List ProofMapping}
    {gates : List String} (h : mapObligations obs = .ok (mappings, gates)) :
    ∀ ob ∈ obs, ob.kind ≠ .manualGate → ∃ m ∈ mappings, m.obligationId = ob.id := by
  induction obs generalizing mappings gates with
  | nil => exact fun ob hob => absurd hob List.not_mem_nil
  | cons ob obs ih =>
    unfold mapObligations at h
    cases hrest : mapObligations obs with
    | error e => rw [hrest] at h; cases h
    | ok found =>
      obtain ⟨mappings', gates'⟩ := found
      rw [hrest] at h
      intro x hx hkind
      change (if ob.kind = .manualGate then _ else _) = _ at h
      split at h
      · rename_i hmanual
        cases h
        rcases List.mem_cons.mp hx with rfl | hx
        · exact absurd hmanual hkind
        · exact ih hrest x hx hkind
      · split at h
        · cases h
          rcases List.mem_cons.mp hx with rfl | hx
          · exact ⟨_, List.mem_cons_self .., rfl⟩
          · obtain ⟨m, hm, hid⟩ := ih hrest x hx hkind
            exact ⟨m, List.mem_cons_of_mem _ hm, hid⟩
        · cases h

/-- A plan that the mapper made gives a command to every obligation that is no manual gate. -/
theorem mapProofs_mapsAll {sha256 : EIP → String} {e : EIP} {plan : Checked ProofPlan}
    (h : mapProofs sha256 e = .ok plan) :
    ∀ ob ∈ e.proofObligations, ob.kind ≠ .manualGate → (plan.1.getMapping ob.id).isSome = true := by
  unfold mapProofs at h
  cases hensure : ensureProofCoverage e with
  | error err => rw [hensure] at h; cases h
  | ok u =>
    rw [hensure] at h
    change (mapObligations _ >>= _) = _ at h
    cases hmap : mapObligations (e.proofObligations.insertionSort (fun a b => a.id ≤ b.id)) with
    | error err => rw [hmap] at h; cases h
    | ok found =>
      obtain ⟨mappings, gates⟩ := found
      rw [hmap] at h
      have hval := Model.build_eq_ok h
      intro ob hob hkind
      have hsorted : ob ∈ e.proofObligations.insertionSort (fun a b => a.id ≤ b.id) :=
        (List.mem_insertionSort _).mpr hob
      rw [ProofPlan.getMapping_isSome, hval]
      exact mapObligations_mapsAll hmap ob hsorted hkind

/-! ## What the mapper covers -/

/-- How often a plan covers an id: by a mapping, or by a manual gate. -/
def ProofPlan.timesCovered (p : ProofPlan) (obligationId : String) : Nat :=
  (p.mappings.map ProofMapping.obligationId).count obligationId +
    p.requiredManualGates.count obligationId

/-- Every kind but one has a command, so the loop of the mapper never fails; what it lists are the
    ids of the obligations, each once. -/
theorem mapObligations_ok (obs : List ProofObligation) : ∃ mappings gates,
    mapObligations obs = .ok (mappings, gates) ∧
      (mappings.map ProofMapping.obligationId ++ gates).Perm (obs.map ProofObligation.id) := by
  induction obs with
  | nil => exact ⟨[], [], rfl, List.Perm.refl _⟩
  | cons ob rest ih =>
    obtain ⟨mappings, gates, hmap, hperm⟩ := ih
    by_cases hmanual : ob.kind = .manualGate
    · refine ⟨mappings, ob.id :: gates, ?_, List.perm_middle.trans (hperm.cons ob.id)⟩
      unfold mapObligations
      rw [hmap]
      exact if_pos hmanual
    · obtain ⟨command, hcommand⟩ : ∃ command, commandsByKind ob.kind = some command := by
        cases hkind : ob.kind with
        | manualGate => exact absurd hkind hmanual
        | _ => exact ⟨_, rfl⟩
      refine ⟨⟨ob.id, command⟩ :: mappings, gates, ?_, hperm.cons ob.id⟩
      unfold mapObligations
      rw [hmap]
      show (if ob.kind = .manualGate then _ else _) = _
      rw [if_neg hmanual, hcommand]
      rfl

/-- Obligations with distinct ids are mapped to a plan that covers each of them once. -/
theorem mapProofs_ok (sha256 : EIP → String) {e : EIP} (hsome : e.proofObligations ≠ [])
    (hids : (e.proofObligations.map ProofObligation.id).Nodup) :
    ∃ plan, mapProofs sha256 e = .ok plan ∧
      ∀ ob ∈ e.proofObligations, plan.1.timesCovered ob.id = 1 := by
  let sorted := e.proofObligations.insertionSort (fun a b => a.id ≤ b.id)
  have hsorted : (sorted.map ProofObligation.id).Perm (e.proofObligations.map ProofObligation.id) :=
    (List.perm_insertionSort _ _).map _
  obtain ⟨mappings, gates, hmap, hperm⟩ := mapObligations_ok sorted
  have hcovered := hperm.trans hsorted
  have hnodup : (mappings.map ProofMapping.obligationId).Nodup :=
    (List.nodup_append.mp (hcovered.nodup_iff.mpr hids)).1
  have hvalid : Model.Valid ({
      eipVersion := e.version
      eipDigest := computeEipDigest sha256 e
      mappings := mappings
      requiredManualGates := gates } : ProofPlan) :=
    ⟨rfl, failedFields_eq_nil.mpr fun c hc => by
      rw [List.mem_singleton.mp hc]
      exact decide_eq_true hnodup⟩
  refine ⟨⟨_, hvalid⟩, ?_, fun ob hob => ?_⟩
  · have hensure : ensureProofCoverage e = .ok () := if_neg fun h => hsome h.2
    unfold mapProofs
    rw [hensure]
    show (mapObligations sorted >>= _) = _
    rw [hmap]
    exact Model.build_of_valid hvalid
  · show (mappings.map ProofMapping.obligationId).count ob.id + gates.count ob.id = 1
    rw [← List.count_append, hcovered.count_eq]
    exact List.count_eq_one_of_mem hids (List.mem_map_of_mem hob)

end Vad
