/-
  Release gating (`vad/release/gates.py`, `vad/release/flags.py`).

  A release needs telemetry, its feature flag, and the metric of every rollout gate at or above the
  gate's threshold.  The loop looks up each gate's metric and passes over a gate whose metric was
  not measured; the release is gated by every gate exactly when no such gate is passed over
  (`gated_iff`).

  Metrics and thresholds are exact rationals.
-/
import Vad.Lib.Dict

namespace Vad

/-! ## The manager -/

structure RolloutGate where
  metricName : String
  minimumHealthThreshold : Rat
deriving DecidableEq, Repr

/-- `FeatureFlags`: `_flags`. -/
abbrev FeatureFlags : Type := Dict Bool

/-- `FeatureFlags.is_enabled`. -/
def FeatureFlags.isEnabled (flags : FeatureFlags) (flagName : String) : Bool :=
  (Dict.get flags flagName).getD false

structure ReleaseManager where
  flags : FeatureFlags := []
  gates : List RolloutGate := []
deriving DecidableEq, Repr

/-- `ReleaseManager.add_gate`. -/
def ReleaseManager.addGate (m : ReleaseManager) (gate : RolloutGate) : ReleaseManager :=
  { m with gates := m.gates ++ [gate] }

/-- What `evaluate_release` raises. -/
inductive ReleaseError where
  | missingTelemetry (candidate : String)
  | flagOff (candidate : String)
  | rollback (metric : String) (value threshold : Rat)
deriving DecidableEq, Repr

/-- The message; `float` writes a number as Python does. -/
def ReleaseError.message (float : Rat → String) : ReleaseError → String
  | .missingTelemetry candidate =>
    "Release candidate '" ++ candidate ++ "' rejected: Missing telemetry integration."
  | .flagOff candidate => "Release candidate '" ++ candidate ++ "' rejected: Feature flag is off."
  | .rollback metric value threshold =>
    "Rollback triggered: '" ++ metric ++ "' health (" ++ float value ++ ") is below threshold (" ++
      float threshold ++ ")."

/-- The metrics of a run, by name. -/
abbrev Metrics : Type := Dict Rat

/-- The loop of `evaluate_release` over the gates. -/
def checkGates (metrics : Metrics) : List RolloutGate → Except ReleaseError Unit
  | [] => .ok ()
  | gate :: rest =>
    match Dict.get metrics gate.metricName with
    | some value =>
      if value < gate.minimumHealthThreshold then
        .error (.rollback gate.metricName value gate.minimumHealthThreshold)
      else checkGates metrics rest
    -- a gate whose metric was not measured is passed over
    | none => checkGates metrics rest

/-- `ReleaseManager.evaluate_release`. -/
def ReleaseManager.evaluateRelease (m : ReleaseManager) (candidateName : String)
    (metrics : Metrics) (hasTelemetry : Bool := true) : Except ReleaseError Bool :=
  if hasTelemetry = false then .error (.missingTelemetry candidateName)
  else if m.flags.isEnabled candidateName = false then .error (.flagOff candidateName)
  else
    match checkGates metrics m.gates with
    | .error e => .error e
    | .ok () => .ok true

/-! ## What a release goes by -/

/-- The metric of the gate was measured, and is at least the threshold. -/
def RolloutGate.Met (metrics : Metrics) (gate : RolloutGate) : Prop :=
  ∃ value, Dict.get metrics gate.metricName = some value ∧ gate.minimumHealthThreshold ≤ value

/-- The metric of the gate was measured. -/
def RolloutGate.Measured (metrics : Metrics) (gate : RolloutGate) : Prop :=
  (Dict.get metrics gate.metricName).isSome = true

theorem RolloutGate.Met.measured {metrics : Metrics} {gate : RolloutGate} (h : gate.Met metrics) :
    gate.Measured metrics := by
  obtain ⟨value, hvalue, -⟩ := h
  unfold Measured
  rw [hvalue]
  rfl

section Gates

variable {metrics : Metrics}

/-- The loop ends without an error exactly when the measured gates are met. -/
theorem checkGates_ok {gates : List RolloutGate} :
    checkGates metrics gates = .ok () ↔
      ∀ gate ∈ gates, gate.Measured metrics → gate.Met metrics := by
  induction gates with
  | nil => simp [checkGates]
  | cons gate rest ih =>
    unfold checkGates
    rw [List.forall_mem_cons, ← ih]
    cases hvalue : Dict.get metrics gate.metricName with
    | none =>
      refine ⟨fun h => ⟨fun hm => ?_, h⟩, fun h => h.2⟩
      unfold RolloutGate.Measured at hm
      rw [hvalue] at hm
      cases hm
    | some value =>
      have hmeasured : gate.Measured metrics := by
        unfold RolloutGate.Measured
        rw [hvalue]
        rfl
      have hmet : gate.Met metrics ↔ ¬ value < gate.minimumHealthThreshold := by
        rw [Rat.not_lt]
        refine ⟨?_, fun h => ⟨value, hvalue, h⟩⟩
        rintro ⟨v, hv, hle⟩
        rw [hvalue] at hv
        cases hv
        exact hle
      show (if value < gate.minimumHealthThreshold then _ else _) = _ ↔ _
      split
      · rename_i hlt
        refine ⟨fun h => (by cases h), fun h => absurd hlt (hmet.mp (h.1 hmeasured))⟩
      · rename_i hnot
        exact ⟨fun h => ⟨fun _ => hmet.mpr hnot, h⟩, fun h => h.2⟩

/-- A release is let through exactly with telemetry, with its flag on, and with every measured gate
    met. -/
theorem evaluateRelease_true {m : ReleaseManager} {name : String} {hasTelemetry : Bool} :
    m.evaluateRelease name metrics hasTelemetry = .ok true ↔
      hasTelemetry = true ∧ m.flags.isEnabled name = true ∧
        ∀ gate ∈ m.gates, gate.Measured metrics → gate.Met metrics := by
  unfold ReleaseManager.evaluateRelease
  rw [← checkGates_ok]
  cases hasTelemetry with
  | false => simp
  | true =>
    cases m.flags.isEnabled name with
    | false => simp
    | true => cases checkGates metrics m.gates <;> simp

/-- A release that is let through has telemetry, its flag on, and every gate met. -/
def Gated (m : ReleaseManager) (name : String) (metrics : Metrics) (hasTelemetry : Bool) : Prop :=
  m.evaluateRelease name metrics hasTelemetry = .ok true →
    hasTelemetry = true ∧ m.flags.isEnabled name = true ∧ ∀ gate ∈ m.gates, gate.Met metrics

/-- Something stops the release, or no gate is passed over. -/
def NoGatePassedOver (m : ReleaseManager) (name : String) (metrics : Metrics)
    (hasTelemetry : Bool) : Prop :=
  hasTelemetry = true → m.flags.isEnabled name = true →
    (∀ gate ∈ m.gates, gate.Measured metrics → gate.Met metrics) →
      ∀ gate ∈ m.gates, gate.Measured metrics

theorem gated_iff {m : ReleaseManager} {name : String} {hasTelemetry : Bool} :
    Gated m name metrics hasTelemetry ↔ NoGatePassedOver m name metrics hasTelemetry := by
  unfold Gated NoGatePassedOver
  rw [evaluateRelease_true]
  constructor
  · intro h htel hflag hmet gate hgate
    exact ((h ⟨htel, hflag, hmet⟩).2.2 gate hgate).measured
  · rintro h ⟨htel, hflag, hmet⟩
    exact ⟨htel, hflag, fun gate hgate => hmet gate hgate (h htel hflag hmet gate hgate)⟩

end Gates

/-! ## A gate that nobody measured -/

/-- A manager with the flag on and one gate. -/
def sampleManager : ReleaseManager where
  flags := [("app", true)]
  gates := [⟨"latency", 19 / 20⟩]

/-- The release goes through although the metric of its only gate was not measured. -/
theorem unmeasured_gate_passes : ¬ Gated sampleManager "app" [("health", 1)] true := by
  intro h
  have hok : sampleManager.evaluateRelease "app" [("health", 1)] true = .ok true := rfl
  obtain ⟨-, -, hmet⟩ := h hok
  obtain ⟨value, hvalue, -⟩ := hmet ⟨"latency", 19 / 20⟩ (List.mem_singleton.mpr rfl)
  cases hvalue

end Vad
