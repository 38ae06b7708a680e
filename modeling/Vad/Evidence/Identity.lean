/-
  The evidence of a run (`RunEvidence` of `vad/evidence/bundle.py`) as it is hashed and stored: its
  dump.  The events inside the evidence are JSON objects of any shape here (`JsonDict`), since a
  stored row may hold others than those that the recorder writes.

  1. Two dumps are the same up to the order of keys exactly when the evidences are, field by field
     (`dump_same_iff`).
  2. A dump has no key twice (`wellFormed_evidence`), so its bytes identify it.
-/
import Vad.Evidence.Bundle
import Vad.Evidence.Signing

namespace Vad

open CanonicalJson

/-! ## The evidence -/

/-- `dict[str, Any]` of JSON values. -/
structure JsonDict (φ : Type) where
  entries : List (String × Value φ)
  wellFormed : (Value.object entries).WellFormed

structure EvidenceRef where
  path : Option String := none
  digest : String
deriving DecidableEq, Repr

/-- `VerificationEvidence`, its results being any objects. -/
structure VerificationRecord (φ : Type) where
  passed : Bool
  results : List (JsonDict φ) := []

/-- `RunEvidence`, its events being any objects. -/
structure EvidenceRecord (φ : Type) where
  schemaVersion : String := "1.0.0"
  runId : String
  createdAt : String
  eip : EvidenceRef
  proofPlan : EvidenceRef
  agents : AgentEvidence
  policyDecisions : List (JsonDict φ) := []
  toolCalls : List (JsonDict φ) := []
  modelRoutes : List (JsonDict φ) := []
  memoryEvents : List (JsonDict φ) := []
  verification : Option (VerificationRecord φ) := none
  release : Option (JsonDict φ) := none
  feedback : Option (JsonDict φ) := none
  effort : EffortEvidence
  tokens : TokenEvidence
  finalDecision : String
  blocker : Option String := none

/-! ## Dumps -/

section Dumps

variable {φ : Type}

/-- `None` is `null`. -/
def optionalValue {α : Type} (write : α → Value φ) : Option α → Value φ
  | some a => write a
  | none => .null

def textsValue (texts : List String) : Value φ := .array (texts.map .text)

def JsonDict.dump (d : JsonDict φ) : Value φ := .object d.entries

def dictsValue (dicts : List (JsonDict φ)) : Value φ := .array (dicts.map JsonDict.dump)

/-- `model_dump(mode="json")`. -/
def EvidenceRef.dump (r : EvidenceRef) : Value φ := .object [
  ("path", optionalValue .text r.path), ("digest", .text r.digest)]

def AgentEvidence.dump (a : AgentEvidence) : Value φ := .object [
  ("builder", .text a.builder), ("verifier", .text a.verifier)]

def VerificationRecord.dump (v : VerificationRecord φ) : Value φ := .object [
  ("passed", .bool v.passed), ("results", dictsValue v.results)]

def EffortEvidence.dump (e : EffortEvidence) : Value φ := .object [
  ("effort_type", .text e.effortType), ("mees", .int e.mees), ("policy", .text e.policy),
  ("changed_files", .int e.changedFiles), ("line_delta", .int e.lineDelta),
  ("new_dependencies", .int e.newDependencies), ("complexity_delta", .int e.complexityDelta),
  ("maintainability_delta", .int e.maintainabilityDelta)]

def TokenEvidence.dump (t : TokenEvidence) : Value φ := .object [
  ("budget", .int t.budget), ("estimated", optionalValue .int t.estimated),
  ("used", optionalValue .int t.used), ("remaining", optionalValue .int t.remaining),
  ("optimization_notes", textsValue t.optimizationNotes)]

def EvidenceRecord.dump (e : EvidenceRecord φ) : Value φ := .object [
  ("schema_version", .text e.schemaVersion), ("run_id", .text e.runId),
  ("created_at", .text e.createdAt), ("eip", e.eip.dump), ("proof_plan", e.proofPlan.dump),
  ("agents", e.agents.dump), ("policy_decisions", dictsValue e.policyDecisions),
  ("tool_calls", dictsValue e.toolCalls), ("model_routes", dictsValue e.modelRoutes),
  ("memory_events", dictsValue e.memoryEvents),
  ("verification", optionalValue VerificationRecord.dump e.verification),
  ("release", optionalValue JsonDict.dump e.release),
  ("feedback", optionalValue JsonDict.dump e.feedback), ("effort", e.effort.dump),
  ("tokens", e.tokens.dump), ("final_decision", .text e.finalDecision),
  ("blocker", optionalValue .text e.blocker)]

/-! ## A dump is a payload -/

theorem wellFormed_optional {α : Type} {write : α → Value φ} (h : ∀ a, (write a).WellFormed)
    (value : Option α) : (optionalValue write value).WellFormed := by
  cases value with
  | none => exact .null
  | some a => exact h a

theorem wellFormed_map {α : Type} {write : α → Value φ} (h : ∀ a, (write a).WellFormed)
    (values : List α) : (Value.array (values.map write)).WellFormed := by
  refine .array fun v hv => ?_
  obtain ⟨a, -, rfl⟩ := List.mem_map.mp hv
  exact h a

theorem wellFormed_dict (d : JsonDict φ) : d.dump.WellFormed := d.wellFormed

theorem wellFormed_ref (r : EvidenceRef) : (r.dump : Value φ).WellFormed := by
  refine .object (show ["path", "digest"].Nodup by decide) ?_
  simp only [List.forall_mem_cons, List.not_mem_nil, false_implies, implies_true, and_true]
  exact ⟨wellFormed_optional .text _, .text _⟩

theorem wellFormed_agents (a : AgentEvidence) : (a.dump : Value φ).WellFormed := by
  refine .object (show ["builder", "verifier"].Nodup by decide) ?_
  simp only [List.forall_mem_cons, List.not_mem_nil, false_implies, implies_true, and_true]
  exact ⟨.text _, .text _⟩

theorem wellFormed_verification (v : VerificationRecord φ) : v.dump.WellFormed := by
  refine .object (show ["passed", "results"].Nodup by decide) ?_
  simp only [List.forall_mem_cons, List.not_mem_nil, false_implies, implies_true, and_true]
  exact ⟨.bool _, wellFormed_map wellFormed_dict _⟩

theorem wellFormed_effort (e : EffortEvidence) : (e.dump : Value φ).WellFormed := by
  refine .object (show ["effort_type", "mees", "policy", "changed_files", "line_delta",
    "new_dependencies", "complexity_delta", "maintainability_delta"].Nodup by decide) ?_
  simp only [List.forall_mem_cons, List.not_mem_nil, false_implies, implies_true, and_true]
  exact ⟨.text _, .int _, .text _, .int _, .int _, .int _, .int _, .int _⟩

theorem wellFormed_tokens (t : TokenEvidence) : (t.dump : Value φ).WellFormed := by
  refine .object (show ["budget", "estimated", "used", "remaining",
    "optimization_notes"].Nodup by decide) ?_
  simp only [List.forall_mem_cons, List.not_mem_nil, false_implies, implies_true, and_true]
  exact ⟨.int _, wellFormed_optional .int _, wellFormed_optional .int _,
    wellFormed_optional .int _, wellFormed_map .text _⟩

/-- The names of the fields. -/
def EvidenceRecord.names : List String := [
  "schema_version", "run_id", "created_at", "eip", "proof_plan", "agents", "policy_decisions",
  "tool_calls", "model_routes", "memory_events", "verification", "release", "feedback", "effort",
  "tokens", "final_decision", "blocker"]

theorem EvidenceRecord.names_nodup : EvidenceRecord.names.Nodup := by decide

theorem wellFormed_evidence (e : EvidenceRecord φ) : e.dump.WellFormed := by
  refine .object (show EvidenceRecord.names.Nodup from EvidenceRecord.names_nodup) ?_
  simp only [List.forall_mem_cons, List.not_mem_nil, false_implies, implies_true, and_true]
  exact ⟨.text _, .text _, .text _, wellFormed_ref _, wellFormed_ref _, wellFormed_agents _,
    wellFormed_map wellFormed_dict _, wellFormed_map wellFormed_dict _,
    wellFormed_map wellFormed_dict _, wellFormed_map wellFormed_dict _,
    wellFormed_optional wellFormed_verification _, wellFormed_optional wellFormed_dict _,
    wellFormed_optional wellFormed_dict _, wellFormed_effort _, wellFormed_tokens _, .text _,
    wellFormed_optional .text _⟩

def EvidenceRecord.payload (e : EvidenceRecord φ) : Payload φ := ⟨e.dump, wellFormed_evidence e⟩

/-! ## The same evidence -/

/-- The same object up to the order of keys. -/
def JsonDict.Same (c d : JsonDict φ) : Prop := c.dump.Same d.dump

structure VerificationRecord.Same (a b : VerificationRecord φ) : Prop where
  passed : a.passed = b.passed
  results : List.Forall₂ JsonDict.Same a.results b.results

/-- The same evidence: the fields are equal, and the objects in them up to the order of keys. -/
structure EvidenceRecord.Same (a b : EvidenceRecord φ) : Prop where
  schemaVersion : a.schemaVersion = b.schemaVersion
  runId : a.runId = b.runId
  createdAt : a.createdAt = b.createdAt
  eip : a.eip = b.eip
  proofPlan : a.proofPlan = b.proofPlan
  agents : a.agents = b.agents
  policyDecisions : List.Forall₂ JsonDict.Same a.policyDecisions b.policyDecisions
  toolCalls : List.Forall₂ JsonDict.Same a.toolCalls b.toolCalls
  modelRoutes : List.Forall₂ JsonDict.Same a.modelRoutes b.modelRoutes
  memoryEvents : List.Forall₂ JsonDict.Same a.memoryEvents b.memoryEvents
  verification : Option.Rel VerificationRecord.Same a.verification b.verification
  release : Option.Rel JsonDict.Same a.release b.release
  feedback : Option.Rel JsonDict.Same a.feedback b.feedback
  effort : a.effort = b.effort
  tokens : a.tokens = b.tokens
  finalDecision : a.finalDecision = b.finalDecision
  blocker : a.blocker = b.blocker

/-- An optional field, one value of which no `null` stands for. -/
theorem same_optional_iff {α : Type} {write : α → Value φ} {S : α → α → Prop}
    (hwrite : ∀ a b, (write a).Same (write b) ↔ S a b)
    (hnull : ∀ a, ¬ (write a).Same .null ∧ ¬ Value.null.Same (write a)) (a b : Option α) :
    (optionalValue write a).Same (optionalValue write b) ↔ Option.Rel S a b := by
  cases a with
  | none =>
    cases b with
    | none => exact iff_of_true .null .none
    | some b => exact iff_of_false (hnull b).2 fun h => nomatch h
  | some a =>
    cases b with
    | none => exact iff_of_false (hnull a).1 fun h => nomatch h
    | some b =>
      refine (hwrite a b).trans ⟨.some, fun h => ?_⟩
      cases h with
      | some h => exact h

theorem rel_eq_iff {α : Type} {a b : Option α} : Option.Rel Eq a b ↔ a = b := by
  constructor
  · intro h
    cases h with
    | some h => rw [h]
    | none => rfl
  · rintro rfl
    cases a with
    | none => exact .none
    | some a => exact .some rfl

theorem same_optionalText_iff (a b : Option String) :
    (optionalValue .text a : Value φ).Same (optionalValue .text b) ↔ a = b :=
  (same_optional_iff (fun _ _ => same_text_iff)
    (fun _ => ⟨fun h => (nomatch h), fun h => (nomatch h)⟩) a b).trans rel_eq_iff

theorem same_optionalInt_iff (a b : Option Int) :
    (optionalValue .int a : Value φ).Same (optionalValue .int b) ↔ a = b :=
  (same_optional_iff (fun _ _ => same_int_iff)
    (fun _ => ⟨fun h => (nomatch h), fun h => (nomatch h)⟩) a b).trans rel_eq_iff

theorem same_optionalDict_iff (a b : Option (JsonDict φ)) :
    (optionalValue JsonDict.dump a).Same (optionalValue JsonDict.dump b) ↔
      Option.Rel JsonDict.Same a b := by
  refine same_optional_iff (fun _ _ => Iff.rfl) (fun d => ⟨fun h => ?_, fun h => ?_⟩) a b
  · cases h
  · cases h

theorem same_texts_iff (a b : List String) :
    (textsValue a : Value φ).Same (textsValue b) ↔ a = b := by
  unfold textsValue
  rw [same_array_map_iff]
  simp only [same_text_iff, List.forall₂_eq_eq_eq]

theorem same_dicts_iff (a b : List (JsonDict φ)) :
    (dictsValue a).Same (dictsValue b) ↔ List.Forall₂ JsonDict.Same a b :=
  same_array_map_iff

theorem same_ref_iff (a b : EvidenceRef) : (a.dump : Value φ).Same b.dump ↔ a = b := by
  unfold EvidenceRef.dump
  rw [same_object_iff]
  · simp only [List.forall₂_cons, List.forall₂_nil_left_iff, same_optionalText_iff, same_text_iff,
      and_true]
    cases a
    cases b
    simp only [EvidenceRef.mk.injEq]
  · rfl
  · show ["path", "digest"].Nodup
    decide

theorem same_agents_iff (a b : AgentEvidence) : (a.dump : Value φ).Same b.dump ↔ a = b := by
  unfold AgentEvidence.dump
  rw [same_object_iff]
  · simp only [List.forall₂_cons, List.forall₂_nil_left_iff, same_text_iff, and_true]
    cases a
    cases b
    simp only [AgentEvidence.mk.injEq]
  · rfl
  · show ["builder", "verifier"].Nodup
    decide

theorem same_verification_iff (a b : VerificationRecord φ) : a.dump.Same b.dump ↔ a.Same b := by
  unfold VerificationRecord.dump
  rw [same_object_iff]
  · simp only [List.forall₂_cons, List.forall₂_nil_left_iff, same_bool_iff, same_dicts_iff, and_true]
    exact ⟨fun h => ⟨h.1, h.2⟩, fun h => ⟨h.passed, h.results⟩⟩
  · rfl
  · show ["passed", "results"].Nodup
    decide

theorem same_optionalVerification_iff (a b : Option (VerificationRecord φ)) :
    (optionalValue VerificationRecord.dump a).Same (optionalValue VerificationRecord.dump b) ↔
      Option.Rel VerificationRecord.Same a b := by
  refine same_optional_iff same_verification_iff (fun d => ⟨fun h => ?_, fun h => ?_⟩) a b
  · cases h
  · cases h

theorem same_effort_iff (a b : EffortEvidence) : (a.dump : Value φ).Same b.dump ↔ a = b := by
  unfold EffortEvidence.dump
  rw [same_object_iff]
  · simp only [List.forall₂_cons, List.forall₂_nil_left_iff, same_text_iff, same_int_iff, and_true]
    cases a
    cases b
    simp only [EffortEvidence.mk.injEq]
  · rfl
  · show ["effort_type", "mees", "policy", "changed_files", "line_delta",
    "new_dependencies", "complexity_delta", "maintainability_delta"].Nodup
    decide

theorem same_tokens_iff (a b : TokenEvidence) : (a.dump : Value φ).Same b.dump ↔ a = b := by
  unfold TokenEvidence.dump
  rw [same_object_iff]
  · simp only [List.forall₂_cons, List.forall₂_nil_left_iff, same_int_iff, same_optionalInt_iff,
      same_texts_iff, and_true]
    cases a
    cases b
    simp only [TokenEvidence.mk.injEq]
  · rfl
  · show ["budget", "estimated", "used", "remaining",
    "optimization_notes"].Nodup
    decide

/-- **Two dumps are the same exactly when the evidences are.** -/
theorem dump_same_iff (a b : EvidenceRecord φ) : a.dump.Same b.dump ↔ a.Same b := by
  unfold EvidenceRecord.dump
  rw [same_object_iff]
  · simp only [List.forall₂_cons, List.forall₂_nil_left_iff, same_text_iff, same_ref_iff,
      same_agents_iff, same_dicts_iff, same_optionalVerification_iff, same_optionalDict_iff,
      same_effort_iff, same_tokens_iff, same_optionalText_iff, and_true]
    constructor
    · rintro ⟨h1, h2, h3, h4, h5, h6, h7, h8, h9, h10, h11, h12, h13, h14, h15, h16, h17⟩
      exact ⟨h1, h2, h3, h4, h5, h6, h7, h8, h9, h10, h11, h12, h13, h14, h15, h16, h17⟩
    · rintro ⟨h1, h2, h3, h4, h5, h6, h7, h8, h9, h10, h11, h12, h13, h14, h15, h16, h17⟩
      exact ⟨h1, h2, h3, h4, h5, h6, h7, h8, h9, h10, h11, h12, h13, h14, h15, h16, h17⟩
  · rfl
  · exact EvidenceRecord.names_nodup

end Dumps

end Vad
