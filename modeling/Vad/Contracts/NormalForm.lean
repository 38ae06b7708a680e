/-
  What the normal form of an EIP (`vad/contracts/normalize.py`) decides.

  1. **The dump** (`EIP.dump`) — `model_dump(mode="json")`: the fields in the order of the class.
  2. **The order that carries no meaning** (`Reordered`) — one EIP is the other with some of its
     lists permuted: every list but the success criteria.
  3. **The result** (`normalizeEip_eq_iff`) — two EIPs have one normal form exactly when one is a
     reordering of the other.  Each list is sorted by a key that determines its elements, so the
     sorted list determines the list up to a permutation.

  The dump loses nothing (`EIP.dump_injective`), so that the same holds of the dumped normal form.
-/
import Vad.Contracts.Models
import Vad.Lib.CanonicalJson

namespace Vad

open CanonicalJson (Value)

/-! ## The dump -/

def RiskTier.value : RiskTier → String
  | .low => "low"
  | .medium => "medium"
  | .high => "high"

def AutonomyTier.value : AutonomyTier → String
  | .manual => "manual"
  | .assisted => "assisted"
  | .bounded => "bounded"
  | .autonomous => "autonomous"

/-- A list of strings in a dump. -/
def dumpTexts (values : List String) : Value Rat := .array (values.map .text)

def Goal.dump (g : Goal) : Value Rat := .object [
  ("description", .text g.description),
  ("success_criteria", dumpTexts g.successCriteria)]

def Invariants.dump (i : Invariants) : Value Rat := .object [
  ("security", dumpTexts i.security),
  ("performance", dumpTexts i.performance),
  ("functional", dumpTexts i.functional)]

def Constraints.dump (c : Constraints) : Value Rat := .object [
  ("security", dumpTexts c.security),
  ("privacy", dumpTexts c.privacy),
  ("operational", dumpTexts c.operational)]

def ProofObligation.dump (o : ProofObligation) : Value Rat := .object [
  ("id", .text o.id),
  ("kind", .text o.kind.value),
  ("description", .text o.description)]

def ToolPermissions.dump (p : ToolPermissions) : Value Rat := .object [
  ("allowed", dumpTexts p.allowed),
  ("denied", dumpTexts p.denied)]

def MemoryRequirement.dump (r : MemoryRequirement) : Value Rat := .object [
  ("scope", .text r.scope),
  ("purpose", .text r.purpose),
  ("max_payload_size", .int r.maxPayloadSize)]

def ModelBudget.dump (b : ModelBudget) : Value Rat := .object [
  ("max_tokens", .int b.maxTokens),
  ("max_cost", .float b.maxCost),
  ("max_loop_depth", .int b.maxLoopDepth)]

def ReleaseRequirements.dump (r : ReleaseRequirements) : Value Rat := .object [
  ("required", .bool r.required),
  ("strategy", match r.strategy with
    | none => .null
    | some s => .text s),
  ("gates", dumpTexts r.gates)]

def TelemetryRequirements.dump (r : TelemetryRequirements) : Value Rat := .object [
  ("required", .bool r.required),
  ("signals", dumpTexts r.signals)]

/-- `EIP.model_dump(mode="json")`. -/
def EIP.dump (e : EIP) : Value Rat := .object [
  ("version", .text e.version),
  ("name", .text e.name),
  ("goal", e.goal.dump),
  ("non_goals", dumpTexts e.nonGoals),
  ("risk_tier", .text e.riskTier.value),
  ("autonomy_tier", .text e.autonomyTier.value),
  ("scope_boundaries", dumpTexts e.scopeBoundaries),
  ("invariants", e.invariants.dump),
  ("constraints", e.constraints.dump),
  ("proof_obligations", .array (e.proofObligations.map ProofObligation.dump)),
  ("tool_permissions", e.toolPermissions.dump),
  ("memory_requirements", .array (e.memoryRequirements.map MemoryRequirement.dump)),
  ("model_budget", e.modelBudget.dump),
  ("release_requirements", e.releaseRequirements.dump),
  ("telemetry_requirements", e.telemetryRequirements.dump)]

theorem ProofKind.value_injective : Function.Injective ProofKind.value := by
  intro a b h
  cases a <;> cases b <;> first | rfl | exact absurd h (by decide)

theorem RiskTier.value_injective : Function.Injective RiskTier.value := by
  intro a b h
  cases a <;> cases b <;> first | rfl | exact absurd h (by decide)

theorem AutonomyTier.value_injective : Function.Injective AutonomyTier.value := by
  intro a b h
  cases a <;> cases b <;> first | rfl | exact absurd h (by decide)

/-! ## A dump loses nothing -/

section Dump

@[simp]
theorem dumpTexts_inj {a b : List String} : dumpTexts a = dumpTexts b ↔ a = b := by
  unfold dumpTexts
  rw [Value.array.injEq]
  exact (List.map_injective_iff.mpr fun _ _ h => Value.text.inj h).eq_iff

@[simp]
theorem Goal.dump_inj {a b : Goal} : a.dump = b.dump ↔ a = b := by
  cases a
  cases b
  simp [Goal.dump]

@[simp]
theorem Invariants.dump_inj {a b : Invariants} : a.dump = b.dump ↔ a = b := by
  cases a
  cases b
  simp [Invariants.dump]

@[simp]
theorem Constraints.dump_inj {a b : Constraints} : a.dump = b.dump ↔ a = b := by
  cases a
  cases b
  simp [Constraints.dump]

theorem ProofObligation.dump_injective : Function.Injective ProofObligation.dump := by
  rintro ⟨id, kind, description⟩ ⟨id', kind', description'⟩ h
  simpa [ProofObligation.dump, ProofKind.value_injective.eq_iff] using h

@[simp]
theorem ToolPermissions.dump_inj {a b : ToolPermissions} : a.dump = b.dump ↔ a = b := by
  cases a
  cases b
  simp [ToolPermissions.dump]

theorem MemoryRequirement.dump_injective : Function.Injective MemoryRequirement.dump := by
  rintro ⟨scope, purpose, size⟩ ⟨scope', purpose', size'⟩ h
  simpa [MemoryRequirement.dump] using h

@[simp]
theorem ModelBudget.dump_inj {a b : ModelBudget} : a.dump = b.dump ↔ a = b := by
  cases a
  cases b
  simp [ModelBudget.dump]

@[simp]
theorem ReleaseRequirements.dump_inj {a b : ReleaseRequirements} : a.dump = b.dump ↔ a = b := by
  rcases a with ⟨required, _ | strategy, gates⟩ <;> rcases b with ⟨required', _ | strategy', gates'⟩
  all_goals simp [ReleaseRequirements.dump]

@[simp]
theorem TelemetryRequirements.dump_inj {a b : TelemetryRequirements} :
    a.dump = b.dump ↔ a = b := by
  cases a
  cases b
  simp [TelemetryRequirements.dump]

/-- **The dump loses nothing.** -/
theorem EIP.dump_injective : Function.Injective EIP.dump := by
  intro a b h
  cases a
  cases b
  simpa [EIP.dump, RiskTier.value_injective.eq_iff, AutonomyTier.value_injective.eq_iff,
    (List.map_injective_iff.mpr ProofObligation.dump_injective).eq_iff,
    (List.map_injective_iff.mpr MemoryRequirement.dump_injective).eq_iff] using h

/-- The keys of the objects in a dump. -/
def eipKeys : List String := [
  "version", "name", "goal", "non_goals", "risk_tier", "autonomy_tier", "scope_boundaries",
  "invariants", "constraints", "proof_obligations", "tool_permissions", "memory_requirements",
  "model_budget", "release_requirements", "telemetry_requirements", "description",
  "success_criteria", "security", "performance", "functional", "privacy", "operational", "id",
  "kind", "allowed", "denied", "scope", "purpose", "max_payload_size", "max_tokens", "max_cost",
  "max_loop_depth", "required", "strategy", "gates", "signals"]

/-- Two values of one form, with keys of a dump. -/
abbrev DumpAlike (v w : Value Rat) : Prop := v.Alike (· ∈ eipKeys) w

/-- Objects that are written member by member, with keys of a dump. -/
theorem dumpAlike_object {es fs : List (String × Value Rat)} (hnodup : Dict.KeysNodup es)
    (hkeys : ∀ key ∈ es.map Prod.fst, key ∈ eipKeys)
    (h : List.Forall₂ (fun e f : String × Value Rat => e.1 = f.1 ∧ DumpAlike e.2 f.2) es fs) :
    DumpAlike (.object es) (.object fs) := CanonicalJson.alike_object hnodup hkeys h

theorem alike_dumpTexts (a b : List String) : DumpAlike (dumpTexts a) (dumpTexts b) :=
  CanonicalJson.alike_array_map Value.Alike.text a b

theorem ReleaseRequirements.alike_dump (a b : ReleaseRequirements) :
    DumpAlike a.dump b.dump := by
  refine dumpAlike_object (by simp [Dict.KeysNodup]) (by simp [eipKeys]) (.cons ⟨rfl, .bool _ _⟩
    (.cons ⟨rfl, ?_⟩ (.cons ⟨rfl, alike_dumpTexts _ _⟩ .nil)))
  cases a.strategy with
  | none =>
    cases b.strategy with
    | none => exact .null
    | some s => exact .newText s
  | some s =>
    cases b.strategy with
    | none => exact .noText s
    | some t => exact .text s t

/-- Any two dumps are of one form. -/
theorem EIP.alike_dump (a b : EIP) : DumpAlike a.dump b.dump := by
  have htexts := alike_dumpTexts
  have hobligation : ∀ a b : ProofObligation, DumpAlike a.dump b.dump := fun a b =>
    dumpAlike_object (by simp [Dict.KeysNodup]) (by simp [eipKeys])
      (.cons ⟨rfl, .text _ _⟩ (.cons ⟨rfl, .text _ _⟩ (.cons ⟨rfl, .text _ _⟩ .nil)))
  have hrequirement : ∀ a b : MemoryRequirement, DumpAlike a.dump b.dump := fun a b =>
    dumpAlike_object (by simp [Dict.KeysNodup]) (by simp [eipKeys])
      (.cons ⟨rfl, .text _ _⟩ (.cons ⟨rfl, .text _ _⟩ (.cons ⟨rfl, .int _ _⟩ .nil)))
  refine dumpAlike_object (by simp [Dict.KeysNodup]) (by simp [eipKeys]) ?_
  refine .cons ⟨rfl, .text _ _⟩ <| .cons ⟨rfl, .text _ _⟩ <| .cons ⟨rfl, ?goal⟩ <|
    .cons ⟨rfl, htexts _ _⟩ <| .cons ⟨rfl, .text _ _⟩ <| .cons ⟨rfl, .text _ _⟩ <|
    .cons ⟨rfl, htexts _ _⟩ <| .cons ⟨rfl, ?invariants⟩ <| .cons ⟨rfl, ?constraints⟩ <|
    .cons ⟨rfl, CanonicalJson.alike_array_map hobligation _ _⟩ <| .cons ⟨rfl, ?permissions⟩ <|
    .cons ⟨rfl, CanonicalJson.alike_array_map hrequirement _ _⟩ <| .cons ⟨rfl, ?budget⟩ <|
    .cons ⟨rfl, ReleaseRequirements.alike_dump _ _⟩ <| .cons ⟨rfl, ?telemetry⟩ .nil
  case goal =>
    exact dumpAlike_object (by simp [Dict.KeysNodup]) (by simp [eipKeys])
      (.cons ⟨rfl, .text _ _⟩ (.cons ⟨rfl, htexts _ _⟩ .nil))
  case invariants =>
    exact dumpAlike_object (by simp [Dict.KeysNodup]) (by simp [eipKeys])
      (.cons ⟨rfl, htexts _ _⟩ (.cons ⟨rfl, htexts _ _⟩ (.cons ⟨rfl, htexts _ _⟩ .nil)))
  case constraints =>
    exact dumpAlike_object (by simp [Dict.KeysNodup]) (by simp [eipKeys])
      (.cons ⟨rfl, htexts _ _⟩ (.cons ⟨rfl, htexts _ _⟩ (.cons ⟨rfl, htexts _ _⟩ .nil)))
  case permissions =>
    exact dumpAlike_object (by simp [Dict.KeysNodup]) (by simp [eipKeys])
      (.cons ⟨rfl, htexts _ _⟩ (.cons ⟨rfl, htexts _ _⟩ .nil))
  case budget =>
    exact dumpAlike_object (by simp [Dict.KeysNodup]) (by simp [eipKeys])
      (.cons ⟨rfl, .int _ _⟩ (.cons ⟨rfl, .float _ _⟩ (.cons ⟨rfl, .int _ _⟩ .nil)))
  case telemetry =>
    exact dumpAlike_object (by simp [Dict.KeysNodup]) (by simp [eipKeys])
      (.cons ⟨rfl, .bool _ _⟩ (.cons ⟨rfl, htexts _ _⟩ .nil))

theorem EIP.wellFormed_dump (e : EIP) : e.dump.WellFormed := (e.alike_dump e).wellFormed rfl

end Dump

/-! ## Sorting -/

/-- Lists sorted by a key that determines the element are equal exactly when they are permuted. -/
theorem sort_eq_iff_perm {α β : Type} [LinearOrder β] {key : α → β} {le : α → α → Prop}
    [DecidableRel le] (hle : ∀ a b, le a b ↔ key a ≤ key b) (hkey : Function.Injective key)
    {l l' : List α} : l.insertionSort le = l'.insertionSort le ↔ l.Perm l' := by
  have : Std.Total le := ⟨fun a b => by
    rw [hle, hle]
    exact le_total _ _⟩
  have : IsTrans α le := ⟨fun a b c hab hbc =>
    (hle a c).mpr (le_trans ((hle a b).mp hab) ((hle b c).mp hbc))⟩
  constructor
  · intro h
    exact (List.perm_insertionSort le l).symm.trans (h ▸ List.perm_insertionSort le l')
  · intro h
    refine List.Perm.eq_of_pairwise (fun a b _ _ hab hba => ?_)
      (List.pairwise_insertionSort le l) (List.pairwise_insertionSort le l') ?_
    · exact hkey (le_antisymm ((hle a b).mp hab) ((hle b a).mp hba))
    · exact (List.perm_insertionSort le l).trans (h.trans (List.perm_insertionSort le l').symm)

theorem sortedScalars_eq_iff {l l' : List String} :
    sortedScalars l = sortedScalars l' ↔ l.Perm l' :=
  sort_eq_iff_perm (fun _ _ => Iff.rfl) Function.injective_id

/-- The sort key of an obligation: all of it. -/
def ProofObligation.key (o : ProofObligation) : String ×ₗ String ×ₗ String :=
  toLex (o.id, toLex (o.kind.value, o.description))

theorem ProofObligation.key_injective : Function.Injective ProofObligation.key := by
  rintro ⟨id, kind, description⟩ ⟨id', kind', description'⟩ h
  simpa [ProofObligation.key, ProofKind.value_injective.eq_iff] using h

/-- The sort key of a memory requirement: all of it. -/
def MemoryRequirement.key (r : MemoryRequirement) : String ×ₗ String ×ₗ Int :=
  toLex (r.scope, toLex (r.purpose, r.maxPayloadSize))

theorem MemoryRequirement.key_injective : Function.Injective MemoryRequirement.key := by
  rintro ⟨scope, purpose, size⟩ ⟨scope', purpose', size'⟩ h
  simpa [MemoryRequirement.key] using h

/-! ## The normal form -/

/-- What the normal form leaves as it is: an EIP without the lists that it sorts. -/
def EIP.ordered (e : EIP) : EIP :=
  { e with
    nonGoals := []
    scopeBoundaries := []
    invariants := {}
    constraints := {}
    proofObligations := []
    toolPermissions := {}
    memoryRequirements := []
    releaseRequirements := { e.releaseRequirements with gates := [] }
    telemetryRequirements := { e.telemetryRequirements with signals := [] } }

/-- One EIP is the other with the lists permuted whose order carries no meaning. -/
structure Reordered (a b : EIP) : Prop where
  rest : a.ordered = b.ordered
  nonGoals : a.nonGoals.Perm b.nonGoals
  scopeBoundaries : a.scopeBoundaries.Perm b.scopeBoundaries
  securityInvariants : a.invariants.security.Perm b.invariants.security
  performanceInvariants : a.invariants.performance.Perm b.invariants.performance
  functionalInvariants : a.invariants.functional.Perm b.invariants.functional
  securityConstraints : a.constraints.security.Perm b.constraints.security
  privacyConstraints : a.constraints.privacy.Perm b.constraints.privacy
  operationalConstraints : a.constraints.operational.Perm b.constraints.operational
  proofObligations : a.proofObligations.Perm b.proofObligations
  allowedTools : a.toolPermissions.allowed.Perm b.toolPermissions.allowed
  deniedTools : a.toolPermissions.denied.Perm b.toolPermissions.denied
  memoryRequirements : a.memoryRequirements.Perm b.memoryRequirements
  gates : a.releaseRequirements.gates.Perm b.releaseRequirements.gates
  signals : a.telemetryRequirements.signals.Perm b.telemetryRequirements.signals

/-- The normal form, from what it leaves as it is and the sorted lists. -/
theorem normalizeEip_eq (e : EIP) : normalizeEip e =
    { e.ordered with
      nonGoals := sortedScalars e.nonGoals
      scopeBoundaries := sortedScalars e.scopeBoundaries
      invariants := {
        security := sortedScalars e.invariants.security
        performance := sortedScalars e.invariants.performance
        functional := sortedScalars e.invariants.functional }
      constraints := {
        security := sortedScalars e.constraints.security
        privacy := sortedScalars e.constraints.privacy
        operational := sortedScalars e.constraints.operational }
      proofObligations := e.proofObligations.insertionSort (fun a b => a.before b = true)
      toolPermissions := {
        allowed := sortedScalars e.toolPermissions.allowed
        denied := sortedScalars e.toolPermissions.denied }
      memoryRequirements := e.memoryRequirements.insertionSort (fun a b => a.before b = true)
      releaseRequirements := { e.ordered.releaseRequirements with
        gates := sortedScalars e.releaseRequirements.gates }
      telemetryRequirements := { e.ordered.telemetryRequirements with
        signals := sortedScalars e.telemetryRequirements.signals } } := rfl

/-- **One normal form, exactly for the reorderings.** -/
theorem normalizeEip_eq_iff {a b : EIP} : normalizeEip a = normalizeEip b ↔ Reordered a b := by
  have hobligations {l l' : List ProofObligation} :
      l.insertionSort (fun a b => a.before b = true) =
        l'.insertionSort (fun a b => a.before b = true) ↔ l.Perm l' :=
    sort_eq_iff_perm (fun _ _ => orderedBy_three ..) ProofObligation.key_injective
  have hrequirements {l l' : List MemoryRequirement} :
      l.insertionSort (fun a b => a.before b = true) =
        l'.insertionSort (fun a b => a.before b = true) ↔ l.Perm l' :=
    sort_eq_iff_perm (fun _ _ => orderedBy_three ..) MemoryRequirement.key_injective
  constructor
  · intro h
    -- every field of the normal form is a function of it
    have hfield {β : Type} (f : EIP → β) : f (normalizeEip a) = f (normalizeEip b) := congrArg f h
    exact {
      rest := hfield EIP.ordered
      nonGoals := sortedScalars_eq_iff.mp (hfield EIP.nonGoals)
      scopeBoundaries := sortedScalars_eq_iff.mp (hfield EIP.scopeBoundaries)
      securityInvariants := sortedScalars_eq_iff.mp (hfield fun e => e.invariants.security)
      performanceInvariants := sortedScalars_eq_iff.mp (hfield fun e => e.invariants.performance)
      functionalInvariants := sortedScalars_eq_iff.mp (hfield fun e => e.invariants.functional)
      securityConstraints := sortedScalars_eq_iff.mp (hfield fun e => e.constraints.security)
      privacyConstraints := sortedScalars_eq_iff.mp (hfield fun e => e.constraints.privacy)
      operationalConstraints := sortedScalars_eq_iff.mp (hfield fun e => e.constraints.operational)
      proofObligations := hobligations.mp (hfield EIP.proofObligations)
      allowedTools := sortedScalars_eq_iff.mp (hfield fun e => e.toolPermissions.allowed)
      deniedTools := sortedScalars_eq_iff.mp (hfield fun e => e.toolPermissions.denied)
      memoryRequirements := hrequirements.mp (hfield EIP.memoryRequirements)
      gates := sortedScalars_eq_iff.mp (hfield fun e => e.releaseRequirements.gates)
      signals := sortedScalars_eq_iff.mp (hfield fun e => e.telemetryRequirements.signals) }
  · intro h
    rw [normalizeEip_eq a, normalizeEip_eq b, h.rest, sortedScalars_eq_iff.mpr h.nonGoals,
      sortedScalars_eq_iff.mpr h.scopeBoundaries, sortedScalars_eq_iff.mpr h.securityInvariants,
      sortedScalars_eq_iff.mpr h.performanceInvariants,
      sortedScalars_eq_iff.mpr h.functionalInvariants,
      sortedScalars_eq_iff.mpr h.securityConstraints, sortedScalars_eq_iff.mpr h.privacyConstraints,
      sortedScalars_eq_iff.mpr h.operationalConstraints, hobligations.mpr h.proofObligations,
      sortedScalars_eq_iff.mpr h.allowedTools, sortedScalars_eq_iff.mpr h.deniedTools,
      hrequirements.mpr h.memoryRequirements, sortedScalars_eq_iff.mpr h.gates,
      sortedScalars_eq_iff.mpr h.signals]

end Vad
