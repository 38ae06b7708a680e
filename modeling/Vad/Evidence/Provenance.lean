/-
  The records of builds (`ProvenanceEmitter` of `vad/evidence/provenance.py`).

  An emitter asks the policy whether the builder of an agent may build it, and writes what was
  built under the digest of what the record says.

  1. **Who may build** (`askBuild_eq`) — the policy refuses where the builder is the approver, and
     answers `true` everywhere else.
  2. **One name, one record** (`record_determined`) — the bundles of two builds have one form, so
     that the digest tells them apart as far as the hash has no collision; and so does the text of
     the record itself, whatever the hash.
  3. **Runs** (`provenance_stands`) — what was written for a build stands to the end, whatever is
     built later; no other file changes.
-/
import Vad.Evidence.Identity
import Vad.Guards.Gates
import Vad.Lib.Attempts
import Vad.Lib.FileTree
import Vad.Lib.IndentedJson
import Vad.Proof.Digest

namespace Vad.Provenance

open CanonicalJson
open Files (Disk FileError Place)

/-! ## Agents -/

structure AgentCapabilities where
  tools : List String
  modelTier : String
  memoryScope : String
deriving DecidableEq, Repr

/-- `AgentCard` of `vad/agents/card.py`. -/
structure AgentCard where
  name : String
  description : String
  capabilities : AgentCapabilities
  builder : String
  approver : String
deriving DecidableEq, Repr

/-- A build that is to be recorded: the time, the agent, and the evidence of a run, if any. -/
structure Build (φ : Type) where
  now : String
  agentCard : AgentCard
  runEvidence : Option (Payload φ)

/-! ## Records -/

section Records

variable {φ : Type}

def AgentCapabilities.dump (c : AgentCapabilities) : Value φ := .object [
  ("tools", textsValue c.tools), ("model_tier", .text c.modelTier),
  ("memory_scope", .text c.memoryScope)]

/-- `AgentCard.to_dict`. -/
def AgentCard.toDict (c : AgentCard) : Value φ := .object [
  ("name", .text c.name), ("description", .text c.description),
  ("capabilities", c.capabilities.dump), ("builder", .text c.builder),
  ("approver", .text c.approver)]

/-- What a record says of a build. -/
structure Said where
  timestamp : String
  agentCard : AgentCard
  linkedEvidenceDigest : Option String
deriving DecidableEq

/-- `evidence_data`, with the answer of the policy. -/
def Said.evidenceData (said : Said) (buildAllowed : Value φ) : Value φ := .object [
  ("timestamp", .text said.timestamp), ("agent_card", said.agentCard.toDict),
  ("policy_decisions", .object [("build_allowed", buildAllowed)]),
  ("linked_evidence_digest", optionalValue .text said.linkedEvidenceDigest)]

/-- `record`. -/
def Said.record (said : Said) (digest : String) (buildAllowed : Value φ) : Value φ := .object [
  ("digest", .text digest),
  ("linked_evidence_digest", optionalValue .text said.linkedEvidenceDigest),
  ("bundle_data", said.evidenceData buildAllowed)]

theorem wellFormed_capabilities (c : AgentCapabilities) : (c.dump : Value φ).WellFormed := by
  refine .object (show ["tools", "model_tier", "memory_scope"].Nodup by decide) ?_
  simp only [List.forall_mem_cons, List.not_mem_nil, false_implies, implies_true, and_true]
  exact ⟨wellFormed_map .text _, .text _, .text _⟩

theorem wellFormed_agentCard (c : AgentCard) : (c.toDict : Value φ).WellFormed := by
  refine .object (show ["name", "description", "capabilities", "builder",
    "approver"].Nodup by decide) ?_
  simp only [List.forall_mem_cons, List.not_mem_nil, false_implies, implies_true, and_true]
  exact ⟨.text _, .text _, wellFormed_capabilities _, .text _, .text _⟩

theorem wellFormed_evidenceData (said : Said) {buildAllowed : Value φ}
    (h : buildAllowed.WellFormed) : (said.evidenceData buildAllowed).WellFormed := by
  have hdecisions : (Value.object [("build_allowed", buildAllowed)]).WellFormed := by
    refine .object (List.nodup_singleton "build_allowed") fun e he => ?_
    rw [List.mem_singleton.mp he]
    exact h
  refine .object (show ["timestamp", "agent_card", "policy_decisions",
    "linked_evidence_digest"].Nodup by decide) ?_
  simp only [List.forall_mem_cons, List.not_mem_nil, false_implies, implies_true, and_true]
  exact ⟨.text _, wellFormed_agentCard _, hdecisions, wellFormed_optional .text _⟩

/-- What `EvidenceBundle` is made of. -/
def Said.bundle (said : Said) (buildAllowed : Payload φ) : Payload φ :=
  ⟨said.evidenceData buildAllowed.1, wellFormed_evidenceData said buildAllowed.2⟩

end Records

/-! ## The emitter -/

inductive EmitError where
  /-- The query of the policy failed. -/
  | policy (e : PolicyError)
  | valueError (message : String)
  | file (e : FileError)

/-- `ProvenanceEmitter`, with the command that evaluates policies, the hash, and the value that a
    JSON answer is read as. -/
structure ProvenanceEmitter (φ : Type) where
  run : Subprocess
  policyPath : String
  outputDir : Place
  floats : FloatText φ
  sha256 : ByteArray → String
  valueOf : Json → Payload φ
  valueOf_bool : ∀ b, (valueOf (.bool b)).1 = .bool b

namespace ProvenanceEmitter

variable {φ : Type} (p : ProvenanceEmitter φ)

/-- The build policy: the answer of `allow`, if it is truthy. -/
def askBuild (c : AgentCard) : Except EmitError Json :=
  match evaluate p.run p.policyPath "data.vad.policy.deny_builder_self_approval"
    (buildInput c.builder c.approver) with
  | .error e => .error (.policy e)
  | .ok isDenied =>
    if truthyAnswer isDenied then
      .error (.valueError s!"Build failed: Builder {c.builder} cannot self-approve.")
    else
      match evaluate p.run p.policyPath "data.vad.policy.allow"
        (buildInput c.builder c.approver) with
      | .error e => .error (.policy e)
      | .ok none => .error (.valueError "Build failed: Policy denies build.")
      | .ok (some isAllowed) =>
        if truthy isAllowed then .ok isAllowed
        else .error (.valueError "Build failed: Policy denies build.")

/-- What the record of the build will say. -/
def said (b : Build φ) : Said where
  timestamp := b.now
  agentCard := b.agentCard
  linkedEvidenceDigest := b.runEvidence.map (computeHash p.floats p.sha256)

/-- `evidence_hash`. -/
def evidenceHash (said : Said) (isAllowed : Json) : String :=
  computeHash p.floats p.sha256 (said.bundle (p.valueOf isAllowed))

def filepath (said : Said) (isAllowed : Json) : Place :=
  p.outputDir ++ [s!"provenance_{p.evidenceHash said isAllowed}.json"]

/-- The text of the file. -/
def recordBytes (said : Said) (isAllowed : Json) : ByteArray :=
  Files.encode (indented p.floats 0
    (said.record (p.evidenceHash said isAllowed) (p.valueOf isAllowed).1))

/-- `os.makedirs(output_dir)`, where it does not exist. -/
def makeOutputDir (d : Disk Place) : Except FileError (Disk Place) :=
  if d.present p.outputDir then .ok d else d.mkdirs p.outputDir

/-- `ProvenanceEmitter.emit`: the path of the record, and the files that it leaves. -/
def emit (d : Disk Place) (b : Build φ) : Except EmitError Place × Disk Place :=
  match p.askBuild b.agentCard with
  | .error e => (.error e, d)
  | .ok isAllowed =>
    match p.makeOutputDir d with
    | .error e => (.error (.file e), d)
    | .ok made =>
      match made.writeBytes (p.filepath (p.said b) isAllowed)
        (p.recordBytes (p.said b) isAllowed) with
      | .error e => (.error (.file e), made)
      | .ok written => (.ok (p.filepath (p.said b) isAllowed), written)

end ProvenanceEmitter

/-! ## One name, one record -/

section Forms

variable {φ : Type} {good : String → Prop}

theorem alike_optionalText (a b : Option String) :
    (optionalValue .text a : Value φ).Alike good (optionalValue .text b) := by
  cases a with
  | none =>
    cases b with
    | none => exact .null
    | some t => exact .newText t
  | some s =>
    cases b with
    | none => exact .noText s
    | some t => exact .text s t

theorem alike_agentCard (c c' : AgentCard) :
    (c.toDict : Value φ).Alike (fun _ => True) c'.toDict := by
  have hcapabilities : (c.capabilities.dump : Value φ).Alike (fun _ => True)
      c'.capabilities.dump := by
    refine alike_object (by simp [Dict.KeysNodup]) (by simp) ?_
    exact .cons ⟨rfl, alike_array_map .text _ _⟩ (.cons ⟨rfl, .text _ _⟩
      (.cons ⟨rfl, .text _ _⟩ .nil))
  refine alike_object (by simp [Dict.KeysNodup]) (by simp) ?_
  exact .cons ⟨rfl, .text _ _⟩ (.cons ⟨rfl, .text _ _⟩ (.cons ⟨rfl, hcapabilities⟩
    (.cons ⟨rfl, .text _ _⟩ (.cons ⟨rfl, .text _ _⟩ .nil))))

/-- The bundles of two builds that were allowed have one form. -/
theorem alike_evidenceData (said said' : Said) (yes yes' : Bool) :
    (said.evidenceData (.bool yes) : Value φ).Alike (fun _ => True)
      (said'.evidenceData (.bool yes')) := by
  have hdecisions : (Value.object [("build_allowed", .bool yes)] : Value φ).Alike (fun _ => True)
      (.object [("build_allowed", .bool yes')]) :=
    alike_object (by simp [Dict.KeysNodup]) (by simp) (.cons ⟨rfl, .bool _ _⟩ .nil)
  refine alike_object (by simp [Dict.KeysNodup]) (by simp) ?_
  exact .cons ⟨rfl, .text _ _⟩ (.cons ⟨rfl, alike_agentCard _ _⟩ (.cons ⟨rfl, hdecisions⟩
    (.cons ⟨rfl, alike_optionalText _ _⟩ .nil)))

theorem optionalText_injective {a b : Option String}
    (h : (optionalValue .text a : Value φ) = optionalValue .text b) : a = b := by
  cases a with
  | none =>
    cases b with
    | none => rfl
    | some t => cases h
  | some s =>
    cases b with
    | none => cases h
    | some t => cases h; rfl

theorem agentCard_injective {c c' : AgentCard} (h : (c.toDict : Value φ) = c'.toDict) :
    c = c' := by
  cases c with
  | mk name description capabilities builder approver =>
    cases c' with
    | mk name' description' capabilities' builder' approver' =>
      simp only [AgentCard.toDict, AgentCapabilities.dump, textsValue, Value.object.injEq,
        Value.array.injEq, Value.text.injEq, List.cons.injEq, Prod.mk.injEq, true_and,
        and_true] at h
      obtain ⟨rfl, rfl, ⟨htools, htier, hscope⟩, rfl, rfl⟩ := h
      have htexts : capabilities.tools = capabilities'.tools :=
        List.map_injective_iff.mpr (fun _ _ => Value.text.inj) htools
      cases capabilities
      cases capabilities'
      simp_all

/-- A bundle says what it says. -/
theorem evidenceData_injective {said said' : Said} {yes yes' : Value φ}
    (h : said.evidenceData yes = said'.evidenceData yes') : said = said' := by
  cases said with
  | mk timestamp agentCard linkedEvidenceDigest =>
    cases said' with
    | mk timestamp' agentCard' linkedEvidenceDigest' =>
      simp only [Said.evidenceData, Value.object.injEq, Value.text.injEq, List.cons.injEq,
        Prod.mk.injEq, true_and, and_true] at h
      obtain ⟨rfl, hcard, -, hlinked⟩ := h
      rw [agentCard_injective hcard, optionalText_injective hlinked]

end Forms

namespace ProvenanceEmitter

variable {φ : Type} {p : ProvenanceEmitter φ}

/-! ## Who may build -/

/-- The rule that refuses a build: the builder approved it. -/
theorem deny_build_iff (builder approver : String) :
    vadPolicy.value (buildInput builder approver) "deny_builder_self_approval" =
      some (.bool true) ↔ builder = approver := by
  have haction : Rego.field (buildInput builder approver) "action" = some (.text "build") := rfl
  have hbuilder : Rego.field (buildInput builder approver) "builder" = some (.text builder) := rfl
  have happrover : Rego.field (buildInput builder approver) "approver" = some (.text approver) :=
    rfl
  rw [Rego.Policy.value_true (by decide)]
  simp [vadPolicy, allowRules, forbiddenRules, denyRules, haction, hbuilder, happrover,
    Rego.Term.eval, Rego.Comparison.test, Rego.compareValues_eq]

/-- The policy answers `true` for a build, unless the builder approved it. -/
theorem askBuild_eq (hopa : OpaEvaluates p.run p.policyPath vadPolicy) (c : AgentCard) :
    p.askBuild c = if c.builder = c.approver then
      .error (.valueError s!"Build failed: Builder {c.builder} cannot self-approve.")
    else .ok (.bool true) := by
  have hdeny := @evaluate_eq p.run p.policyPath (buildInput c.builder c.approver) hopa
    "deny_builder_self_approval"
  have hallow := @evaluate_eq p.run p.policyPath (buildInput c.builder c.approver) hopa "allow"
  have hdenied := deny_build_iff c.builder c.approver
  rw [← truthyAnswer_value (by decide)] at hdenied
  unfold askBuild
  simp only [String.reduceAppend] at hdeny hallow
  rw [hdeny, hallow]
  by_cases hself : c.builder = c.approver
  · rw [if_pos hself]
    exact if_pos (hdenied.mpr hself)
  · have hpermitted : (Gate.build c.builder c.approver).permitted := hself
    have htrue := (allow_gate (Gate.build c.builder c.approver)).mpr hpermitted
    rw [if_neg hself]
    refine (if_neg fun h => hself (hdenied.mp h)).trans ?_
    change vadPolicy.value (buildInput c.builder c.approver) "allow" = some (.bool true) at htrue
    rw [htrue]
    rfl

/-! ## The record of a build that is allowed -/

/-- Where the record of the build goes. -/
def place (p : ProvenanceEmitter φ) (b : Build φ) : Place := p.filepath (p.said b) (.bool true)

/-- What is written there. -/
def content (p : ProvenanceEmitter φ) (b : Build φ) : ByteArray :=
  p.recordBytes (p.said b) (.bool true)

/-- The bytes that are hashed. -/
def hashed (p : ProvenanceEmitter φ) (b : Build φ) : ByteArray :=
  serialize p.floats ((p.said b).bundle (p.valueOf (.bool true)))

/-- No two of the builds collide. -/
def NoCollision (p : ProvenanceEmitter φ) (builds : List (Build φ)) : Prop :=
  ∀ a ∈ builds, ∀ b ∈ builds, p.sha256 (p.hashed a) = p.sha256 (p.hashed b) →
    p.hashed a = p.hashed b

theorem hashed_eq_iff {a b : Build φ} : p.hashed a = p.hashed b ↔ p.said a = p.said b := by
  constructor
  · intro h
    have hsame : ((p.said a).evidenceData (p.valueOf (.bool true)).1).Same
      ((p.said b).evidenceData (p.valueOf (.bool true)).1) := serialize_eq_iff.mp h
    rw [p.valueOf_bool] at hsame
    exact evidenceData_injective ((alike_evidenceData _ _ true true).same_iff.mp hsame)
  · intro h
    unfold hashed
    rw [h]

theorem recordName_injective {s t : String}
    (h : s!"provenance_{s}.json" = s!"provenance_{t}.json") : s = t := by
  have htexts : "provenance_".toList ++ (s.toList ++ ".json".toList) =
      "provenance_".toList ++ (t.toList ++ ".json".toList) := by
    change "provenance_" ++ s ++ ".json" = "provenance_" ++ t ++ ".json" at h
    simpa using congrArg String.toList h
  exact String.toList_injective (List.append_cancel_right (List.append_cancel_left htexts))

theorem content_eq_iff {a b : Build φ} : p.content a = p.content b ↔ p.said a = p.said b := by
  constructor
  · intro h
    have hrecord := indented_injective 0 (Files.encode_injective h)
    simp only [Said.record, Value.object.injEq, List.cons.injEq, Prod.mk.injEq, true_and,
      and_true] at hrecord
    exact evidenceData_injective hrecord.2.2
  · intro h
    unfold content
    rw [h]

/-- **The name and the text of a record determine each what it says.** -/
theorem record_determined {builds : List (Build φ)} (hsha : p.NoCollision builds) {a b : Build φ}
    (ha : a ∈ builds) (hb : b ∈ builds) :
    (p.place a = p.place b ↔ p.said a = p.said b) ∧
      (p.content a = p.content b ↔ p.said a = p.said b) := by
  refine ⟨⟨fun h => ?_, fun h => ?_⟩, content_eq_iff⟩
  · have hname := List.head_eq_of_cons_eq (List.append_cancel_left h)
    exact hashed_eq_iff.mp (hsha a ha b hb (recordName_injective hname))
  · unfold place
    rw [h]

/-! ## Runs -/

/-- What one call does: it refuses a builder who approves, fails at the files, or writes the
    record. -/
theorem emit_cases (hopa : OpaEvaluates p.run p.policyPath vadPolicy) (d : Disk Place)
    (b : Build φ) :
    (b.agentCard.builder = b.agentCard.approver ∧ p.emit d b = (.error (.valueError
      s!"Build failed: Builder {b.agentCard.builder} cannot self-approve."), d)) ∨
    (b.agentCard.builder ≠ b.agentCard.approver ∧ ∃ made, made.fileAt = d.fileAt ∧
      ((∃ e, p.emit d b = (.error (.file e), made)) ∨
        p.emit d b = (.ok (p.place b), made.write (p.place b) (p.content b)))) := by
  unfold emit
  rw [askBuild_eq hopa]
  by_cases hself : b.agentCard.builder = b.agentCard.approver
  · rw [if_pos hself]
    exact Or.inl ⟨hself, rfl⟩
  · rw [if_neg hself]
    refine Or.inr ⟨hself, ?_⟩
    dsimp only
    cases hmade : p.makeOutputDir d with
    | error e => exact ⟨d, rfl, Or.inl ⟨e, rfl⟩⟩
    | ok made =>
      have hfiles : made.fileAt = d.fileAt := by
        unfold makeOutputDir at hmade
        split at hmade
        · rw [Except.ok.inj hmade]
        · exact Files.mkdirs_files hmade
      refine ⟨made, hfiles, ?_⟩
      dsimp only
      cases hwritten : made.writeBytes (p.place b) (p.content b) with
      | error e =>
        unfold place content at hwritten
        rw [hwritten]
        exact Or.inl ⟨e, rfl⟩
      | ok written =>
        have hwrite := (Files.writeBytes_ok hwritten).2
        unfold place content at hwritten
        rw [hwritten]
        exact Or.inr (by rw [hwrite]; rfl)

/-- A call changes the file of its record or none. -/
theorem emit_files (hopa : OpaEvaluates p.run p.policyPath vadPolicy) (d : Disk Place)
    (b : Build φ) :
    (p.emit d b).2.fileAt = d.fileAt ∧ (∀ path, (p.emit d b).1 ≠ .ok path) ∨
    b.agentCard.builder ≠ b.agentCard.approver ∧ (p.emit d b).1 = .ok (p.place b) ∧
      (p.emit d b).2.fileAt = Function.update d.fileAt (p.place b) (some (p.content b)) := by
  rcases emit_cases hopa d b with ⟨-, h⟩ | ⟨hother, made, hfiles, ⟨e, h⟩ | h⟩
  · rw [h]
    exact Or.inl ⟨rfl, fun path heq => by cases heq⟩
  · rw [h]
    exact Or.inl ⟨hfiles, fun path heq => by cases heq⟩
  · rw [h]
    refine Or.inr ⟨hother, rfl, ?_⟩
    rw [← hfiles]
    exact Files.fileAt_write made (p.place b) (p.content b)

/-- What is written for a build stands, whatever is built later. -/
theorem record_kept (hopa : OpaEvaluates p.run p.policyPath vadPolicy) {builds : List (Build φ)}
    (hsha : p.NoCollision builds) {b : Build φ} (hb : b ∈ builds) {later : List (Build φ)}
    (hlater : ∀ a ∈ later, a ∈ builds) {d : Disk Place}
    (hd : d.fileAt (p.place b) = some (p.content b)) :
    (Attempts.run p.emit d later).fileAt (p.place b) = some (p.content b) := by
  induction later generalizing d with
  | nil => exact hd
  | cons a later ih =>
    rw [Attempts.run_cons]
    refine ih (fun x hx => hlater x (List.mem_cons_of_mem a hx)) ?_
    show (p.emit d a).2.fileAt (p.place b) = _
    rcases emit_files hopa d a with ⟨hfiles, -⟩ | ⟨-, -, hfiles⟩
    · rw [hfiles, hd]
    · rw [hfiles]
      obtain ⟨hplace, hcontent⟩ := record_determined hsha hb (hlater a (List.mem_cons_self ..))
      by_cases hsame : p.place b = p.place a
      · -- the same name, so the same record once more
        rw [hsame, Function.update_self, hcontent.mpr (hplace.mp hsame)]
      · rw [Function.update_of_ne hsame, hd]

/-- A file that a run changed is one that a call returned. -/
theorem changed_answered (hopa : OpaEvaluates p.run p.policyPath vadPolicy)
    (builds : List (Build φ)) (d : Disk Place) {path : Place}
    (h : (Attempts.run p.emit d builds).fileAt path ≠ d.fileAt path) :
    path ∈ Attempts.answered p.emit d builds := by
  induction builds generalizing d with
  | nil => exact absurd rfl h
  | cons b later ih =>
    rw [Attempts.run_cons] at h
    by_cases hrest : (Attempts.run p.emit (p.emit d b).2 later).fileAt path =
        (p.emit d b).2.fileAt path
    · have hchanged : (p.emit d b).2.fileAt path ≠ d.fileAt path := fun heq =>
        h (hrest.trans heq)
      rcases emit_files hopa d b with ⟨hfiles, -⟩ | ⟨-, hanswer, hfiles⟩
      · exact absurd (by rw [hfiles]) hchanged
      · have hplace : path = p.place b := by
          by_contra hne
          exact hchanged (by rw [hfiles, Function.update_of_ne hne])
        refine List.mem_append_left _ ?_
        rw [hanswer, hplace]
        exact List.mem_singleton_self _
    · exact List.mem_append_right _ (ih _ hrest)

end ProvenanceEmitter

/-! ## Two builds of one agent -/

def sampleCard : AgentCard where
  name := "demo"
  description := "Runs the tests."
  capabilities := ⟨["pytest"], "tier1", "agent_local"⟩
  builder := "alice"
  approver := "bob"

/-- The agent, built at a time of which no run has evidence. -/
def sampleBuildAt (now : String) : Build Rat := ⟨now, sampleCard, none⟩

/-- The bytes that are hashed for the first of two builds. -/
def firstHashed : ByteArray :=
  serialize fractions
    ((Said.mk "2026-01-01T00:00:00" sampleCard none).bundle ⟨.bool true, .bool true⟩)

/-- The digests of the two builds. -/
def buildDigest (bytes : ByteArray) : String :=
  if bytes = firstHashed then "107bc3ad4cddee1ababc8153c3483fd2cfacad68475d2175cc0a3366fa01f7c1"
  else "af5a3408975b6f28a593044d5cce89ffe71bb84c6c8a371fb88ba81545b0c332"

def sampleEmitter : ProvenanceEmitter Rat where
  run := sampleRun
  policyPath := "policies/vad.rego"
  outputDir := ["provenance_artifacts"]
  floats := fractions
  sha256 := buildDigest
  valueOf
    | .bool b => ⟨.bool b, .bool b⟩
    | _ => ⟨.null, .null⟩
  valueOf_bool _ := rfl

/-- The directory of the records, with nothing in it. -/
def sampleDirectory : Disk Place := fun p =>
  if p = [] ∨ p = ["provenance_artifacts"] then some .directory else none

theorem sample_noCollision : sampleEmitter.NoCollision
    [sampleBuildAt "2026-01-01T00:00:00", sampleBuildAt "2026-01-02T00:00:00"] := by
  have hfirst : sampleEmitter.hashed (sampleBuildAt "2026-01-01T00:00:00") = firstHashed := rfl
  have hother : sampleEmitter.hashed (sampleBuildAt "2026-01-02T00:00:00") ≠ firstHashed := by
    rw [← hfirst, Ne, ProvenanceEmitter.hashed_eq_iff]
    exact fun h => absurd (congrArg Said.timestamp h) (by decide)
  have hdigests : buildDigest firstHashed ≠
      buildDigest (sampleEmitter.hashed (sampleBuildAt "2026-01-02T00:00:00")) := by
    unfold buildDigest
    rw [if_pos rfl, if_neg hother]
    decide
  have hsha : sampleEmitter.sha256 = buildDigest := rfl
  intro a ha b hb hsame
  simp only [List.mem_cons, List.not_mem_nil, or_false] at ha hb
  rcases ha with rfl | rfl <;> rcases hb with rfl | rfl
  · rfl
  · rw [hsha, hfirst] at hsame
    exact absurd hsame hdigests
  · rw [hsha, hfirst] at hsame
    exact absurd hsame.symm hdigests
  · rfl

end Vad.Provenance
