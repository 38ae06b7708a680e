/-
  The rows of `run_evidence` (`save_run_evidence` and `load_run_evidence` of
  `vad/server/db/store.py`).

  A row holds the digest of the evidence that was saved and a JSON text of its dump.  When the row
  is read, the text is validated as evidence, and refused if its digest is not that of the row; the
  column is told by the value that its text denotes, whoever wrote it.

  1. The validation of evidence, field by field (`readEvidence`); how the validation library makes
     numbers and truth values out of other data is a parameter (`Conversions`).
  2. A row is refused exactly when its payload denotes other evidence than was saved
     (`loadRunEvidence_tampered`), which completes the identity of evidence (`evidence_identity`).
-/
import Vad.Evidence.Identity
import Vad.Lib.Reading

namespace Vad

open CanonicalJson

section Reading

variable {φ : Type}

/-! ## Validation -/

/-- What `int` and `bool` fields accept besides numbers and truth values. -/
structure Conversions (φ : Type) where
  int : Value φ → Option Int
  bool : Value φ → Option Bool
  int_int : ∀ n, int (.int n) = some n
  bool_bool : ∀ b, bool (.bool b) = some b

/-- The members of an object. -/
def JsonDict.members (d : JsonDict φ) : Dict (Payload φ) :=
  d.entries.attach.map fun e => (e.1.1, ⟨e.1.2, d.wellFormed.entries.2 e.1 e.2⟩)

def readDict : Payload φ → Reading (JsonDict φ)
  | ⟨.object entries, h⟩ => .ok ⟨entries, h⟩
  | _ => Reading.refused

def readText : Payload φ → Reading String
  | ⟨.text s, _⟩ => .ok s
  | _ => Reading.refused

/-- An `int` field with its bounds. -/
def readInt (conv : Conversions φ) (inBounds : Int → Bool) (data : Payload φ) : Reading Int :=
  match conv.int data.1 with
  | some n => if inBounds n then .ok n else Reading.refused
  | none => Reading.refused

def readBool (conv : Conversions φ) (data : Payload φ) : Reading Bool :=
  match conv.bool data.1 with
  | some b => .ok b
  | none => Reading.refused

/-- A field that may be `None`. -/
def readOptional {α : Type} (read : Payload φ → Reading α) (data : Payload φ) :
    Reading (Option α) :=
  match data.1 with
  | .null => .ok none
  | _ => Reading.value some |>.apply (read data)

def readList {α : Type} (read : Payload φ → Reading α) : Payload φ → Reading (List α)
  | ⟨.array values, h⟩ =>
    Reading.elementsFrom (fun _ => read) 0
      (values.attach.map fun v => ⟨v.1, h.elements v.1 v.2⟩)
  | _ => Reading.refused

/-- The fields of a model, read from an object. -/
def readModel {α : Type} (read : Dict (Payload φ) → Reading α) (data : Payload φ) : Reading α :=
  match readDict data with
  | .ok d => read d.members
  | .error locations => .error locations

def readRef : Payload φ → Reading EvidenceRef := readModel fun entries =>
  Reading.value EvidenceRef.mk
    |>.apply (Reading.member entries "path" (readOptional readText) (some none))
    |>.apply (Reading.member entries "digest" readText none)

def readAgents : Payload φ → Reading AgentEvidence := readModel fun entries =>
  Reading.value AgentEvidence.mk
    |>.apply (Reading.member entries "builder" readText none)
    |>.apply (Reading.member entries "verifier" readText none)

def readVerification (conv : Conversions φ) : Payload φ → Reading (VerificationRecord φ) :=
  readModel fun entries =>
    Reading.value VerificationRecord.mk
      |>.apply (Reading.member entries "passed" (readBool conv) none)
      |>.apply (Reading.member entries "results" (readList readDict) (some []))

/-- `Field(ge=0)`. -/
def nonNegative (n : Int) : Bool := decide (0 ≤ n)

/-- No bounds. -/
def anyInt (_ : Int) : Bool := true

def readEffort (conv : Conversions φ) : Payload φ → Reading EffortEvidence := readModel fun entries =>
  Reading.value EffortEvidence.mk
    |>.apply (Reading.member entries "effort_type" readText none)
    |>.apply (Reading.member entries "mees" (readInt conv fun n => decide (0 ≤ n ∧ n ≤ 100)) none)
    |>.apply (Reading.member entries "policy" readText none)
    |>.apply (Reading.member entries "changed_files" (readInt conv nonNegative) none)
    |>.apply (Reading.member entries "line_delta" (readInt conv nonNegative) none)
    |>.apply (Reading.member entries "new_dependencies" (readInt conv nonNegative) none)
    |>.apply (Reading.member entries "complexity_delta" (readInt conv anyInt) none)
    |>.apply (Reading.member entries "maintainability_delta" (readInt conv anyInt) none)

def readTokens (conv : Conversions φ) : Payload φ → Reading TokenEvidence := readModel fun entries =>
  Reading.value TokenEvidence.mk
    |>.apply (Reading.member entries "budget" (readInt conv nonNegative) none)
    |>.apply (Reading.member entries "estimated" (readOptional (readInt conv anyInt)) (some none))
    |>.apply (Reading.member entries "used" (readOptional (readInt conv anyInt)) (some none))
    |>.apply (Reading.member entries "remaining" (readOptional (readInt conv anyInt)) (some none))
    |>.apply (Reading.member entries "optimization_notes" (readList readText) (some []))

/-- The fields of `RunEvidence`. -/
def readFields (conv : Conversions φ) (entries : Dict (Payload φ)) : Reading (EvidenceRecord φ) :=
  Reading.value EvidenceRecord.mk
    |>.apply (Reading.member entries "schema_version" readText (some "1.0.0"))
    |>.apply (Reading.member entries "run_id" readText none)
    |>.apply (Reading.member entries "created_at" readText none)
    |>.apply (Reading.member entries "eip" readRef none)
    |>.apply (Reading.member entries "proof_plan" readRef none)
    |>.apply (Reading.member entries "agents" readAgents none)
    |>.apply (Reading.member entries "policy_decisions" (readList readDict) (some []))
    |>.apply (Reading.member entries "tool_calls" (readList readDict) (some []))
    |>.apply (Reading.member entries "model_routes" (readList readDict) (some []))
    |>.apply (Reading.member entries "memory_events" (readList readDict) (some []))
    |>.apply (Reading.member entries "verification" (readOptional (readVerification conv))
      (some none))
    |>.apply (Reading.member entries "release" (readOptional readDict) (some none))
    |>.apply (Reading.member entries "feedback" (readOptional readDict) (some none))
    |>.apply (Reading.member entries "effort" (readEffort conv) none)
    |>.apply (Reading.member entries "tokens" (readTokens conv) none)
    |>.apply (Reading.member entries "final_decision" readText none)
    |>.apply (Reading.member entries "blocker" (readOptional readText) (some none))

/-- `enforce_effort_policy`. -/
def enforceEffortPolicy (e : EvidenceRecord φ) : Reading (EvidenceRecord φ) :=
  if decide (e.effort.mees < 50) && !held e.finalDecision then Reading.refused
  else if decide (e.effort.policy = "block") && !held e.finalDecision then Reading.refused
  else .ok e

/-- `RunEvidence(**data)`. -/
def readEvidence (conv : Conversions φ) (data : Payload φ) : Except PyError (EvidenceRecord φ) :=
  match readDict data with
  | .error _ => .error .typeError
  | .ok d =>
    let reading := match readFields conv d.members with
      | .ok e => enforceEffortPolicy e
      | .error locations => .error locations
    reading.mapError fun locations =>
      .validationError "RunEvidence" (locations.map (".".intercalate ·))

end Reading

/-! ## The store -/

namespace EvidenceStore

open Signing (signPayload verifyPayload signPayload_ok verifyPayload_iff verifyPayload_otherKey)

section Rows

variable {φ : Type}

/-- A row of `run_evidence`. -/
structure EvidenceRow (φ : Type) where
  evidenceDigest : String
  payload : Payload φ
  createdAt : String
  finalDecision : String

structure StoredRunEvidence (φ : Type) where
  runId : String
  evidenceDigest : String
  evidence : EvidenceRecord φ

/-- `ServerStore.save_run_evidence`; the text of the row has its keys sorted. -/
def saveRunEvidence (F : FloatText φ) (sha256 : ByteArray → String) (rows : Dict (EvidenceRow φ))
    (evidence : EvidenceRecord φ) : StoredRunEvidence φ × Dict (EvidenceRow φ) :=
  let digest := computeHash F sha256 evidence.payload
  let row : EvidenceRow φ := {
    evidenceDigest := digest
    payload := ⟨canonical evidence.dump, wellFormed_canonical evidence.payload.2⟩
    createdAt := evidence.createdAt
    finalDecision := evidence.finalDecision }
  (⟨evidence.runId, digest, evidence⟩, Dict.set rows evidence.runId row)

/-- `ServerStore.load_run_evidence`. -/
def loadRunEvidence (F : FloatText φ) (sha256 : ByteArray → String) (conv : Conversions φ)
    (rows : Dict (EvidenceRow φ)) (runId : String) : Except PyError (StoredRunEvidence φ) :=
  match Dict.get rows runId with
  | none => .error (.keyError runId)
  | some row =>
    match readEvidence conv row.payload with
    | .error e => .error e
    | .ok evidence =>
      let digest := computeHash F sha256 evidence.payload
      if digest ≠ row.evidenceDigest then
        .error (.valueError "stored run evidence digest mismatch")
      else .ok ⟨runId, digest, evidence⟩

/-- The payload of a row is replaced, and nothing else of it. -/
def replacePayload (rows : Dict (EvidenceRow φ)) (runId : String) (payload : Payload φ) :
    Dict (EvidenceRow φ) :=
  match Dict.get rows runId with
  | none => rows
  | some row => Dict.set rows runId { row with payload := payload }

variable {F : FloatText φ} {sha256 : ByteArray → String} {conv : Conversions φ}

/-- What a row is read as, whose payload was replaced after the evidence had been saved. -/
theorem loadRunEvidence_tampered {rows : Dict (EvidenceRow φ)} {saved read : EvidenceRecord φ}
    {payload : Payload φ} (hread : readEvidence conv payload = .ok read)
    (hsha : sha256 (serialize F read.payload) = sha256 (serialize F saved.payload) →
      serialize F read.payload = serialize F saved.payload) :
    let after := replacePayload (saveRunEvidence F sha256 rows saved).2 saved.runId payload
    (¬ read.Same saved → loadRunEvidence F sha256 conv after saved.runId =
      .error (.valueError "stored run evidence digest mismatch")) ∧
    (read.Same saved → loadRunEvidence F sha256 conv after saved.runId =
      .ok ⟨saved.runId, (saveRunEvidence F sha256 rows saved).1.evidenceDigest, read⟩) := by
  intro after
  have hdigest : computeHash F sha256 read.payload = computeHash F sha256 saved.payload ↔
      read.Same saved :=
    (computeHash_eq_iff hsha).trans (dump_same_iff read saved)
  have hrow : ∃ row, Dict.get after saved.runId = some row ∧ row.payload = payload ∧
      row.evidenceDigest = computeHash F sha256 saved.payload := by
    obtain ⟨row, hsaved, hrow⟩ : ∃ row,
        Dict.get (saveRunEvidence F sha256 rows saved).2 saved.runId = some row ∧
        row.evidenceDigest = computeHash F sha256 saved.payload := by
      exact ⟨_, (Dict.get_set ..).trans (if_pos rfl), rfl⟩
    refine ⟨{ row with payload := payload }, ?_, rfl, hrow⟩
    unfold after replacePayload
    rw [hsaved]
    exact (Dict.get_set ..).trans (if_pos rfl)
  obtain ⟨row, hget, hpayload, hrowDigest⟩ := hrow
  have hload : loadRunEvidence F sha256 conv after saved.runId =
      if computeHash F sha256 read.payload ≠ computeHash F sha256 saved.payload then
        .error (.valueError "stored run evidence digest mismatch")
      else .ok ⟨saved.runId, computeHash F sha256 read.payload, read⟩ := by
    unfold loadRunEvidence
    rw [hget]
    dsimp only
    rw [hpayload, hread, hrowDigest]
  rw [hload]
  constructor
  · intro hother
    exact if_pos fun heq => hother (hdigest.mp heq)
  · intro hsame
    rw [if_neg (not_not.mpr (hdigest.mpr hsame)), hdigest.mpr hsame]
    rfl

/-- The identity of evidence, for any floats, digests and conversions:

    * two payloads are serialized alike exactly when they are the same up to the order of keys;
    * a signed payload is verified exactly for the same payloads, and any payload gets an answer,
      unless the hash collides on the two;
    * an envelope with another key id is never verified;
    * a row that still validates is refused exactly when its payload denotes other evidence than was
      saved, unless the hash collides on the two. -/
theorem evidence_identity (F : FloatText φ) (digests : Signing.Digests) (conv : Conversions φ) :
    (∀ p q : Payload φ, serialize F p = serialize F q ↔ p.Same q) ∧
    (∀ (signer : Signing.LocalDevelopmentSigner) (now now' : DateTime) (p q : Payload φ)
      (envelope : Checked Signing.SignatureEnvelope),
      (digests.sha256 (serialize F p) = digests.sha256 (serialize F q) →
        serialize F p = serialize F q) →
      signPayload F digests signer now p = .ok envelope →
        ∃ answer, verifyPayload F digests signer now' q envelope = .ok answer ∧
          (answer = true ↔ p.Same q)) ∧
    (∀ (signer : Signing.LocalDevelopmentSigner) (now : DateTime) (p : Payload φ)
      (envelope : Checked Signing.SignatureEnvelope), envelope.1.keyId ≠ signer.keyId →
        verifyPayload F digests signer now p envelope = .ok false) ∧
    (∀ (rows : Dict (EvidenceRow φ)) (saved read : EvidenceRecord φ) (payload : Payload φ),
      readEvidence conv payload = .ok read →
      (digests.sha256 (serialize F read.payload) = digests.sha256 (serialize F saved.payload) →
        serialize F read.payload = serialize F saved.payload) →
        let after := replacePayload (saveRunEvidence F digests.sha256 rows saved).2 saved.runId
          payload
        (loadRunEvidence F digests.sha256 conv after saved.runId =
          .error (.valueError "stored run evidence digest mismatch") ↔ ¬ read.Same saved) ∧
        (read.Same saved → loadRunEvidence F digests.sha256 conv after saved.runId =
          .ok ⟨saved.runId, (saveRunEvidence F digests.sha256 rows saved).1.evidenceDigest,
            read⟩)) := by
  refine ⟨fun p q => serialize_eq_iff, ?_, ?_, ?_⟩
  · intro signer now now' p q envelope hsha hsign
    exact verifyPayload_iff hsha hsign
  · intro signer now p envelope hkey
    exact verifyPayload_otherKey hkey now p
  · intro rows saved read payload hread hsha
    obtain ⟨hother, hsame⟩ := @loadRunEvidence_tampered φ F digests.sha256 conv rows _ _ _
      hread hsha
    refine ⟨⟨fun hrefused h => ?_, hother⟩, hsame⟩
    rw [hsame h] at hrefused
    cases hrefused

end Rows

/-! ## Two runs signed by a development signer -/

/-- No payload has a float. -/
def noFloats : FloatText Empty where
  repr x := nomatch x
  injective x := nomatch x
  chars x := nomatch x
  pointed x := nomatch x

/-- Only numbers and truth values. -/
def strictConversions : Conversions Empty where
  int
    | .int n => some n
    | _ => none
  bool
    | .bool b => some b
    | _ => none
  int_int _ := rfl
  bool_bool _ := rfl

def runPayload (runId : String) : Payload Empty :=
  ⟨.object [("run_id", .text runId)], .object (List.nodup_singleton _) fun e he => by
    rw [List.mem_singleton.mp he]
    exact .text runId⟩

/-- The digest of the first of the two payloads. -/
def firstDigest : String := "923135756928e8f394c6f67aac4b80ee48f168af81e526267db142176f625896"

/-- The digests of the two payloads, and their signatures with the secret `secret`. -/
def twoDigests : Signing.Digests where
  sha256 bytes :=
    if bytes = "\x7b\"run_id\":\"run-1\"\x7d".toUTF8 then firstDigest
    else "f94ac91e4d209496bd2465d6b7ee192b2d6dec91691b861e894e1e730c1c2638"
  hmac _ message :=
    if message = firstDigest.toUTF8 then
      [171, 141, 68, 159, 146, 245, 116, 14, 139, 15, 31, 7, 59, 132, 119, 145,
        183, 128, 182, 164, 47, 218, 72, 89, 216, 115, 180, 133, 28, 140, 43, 160]
    else
      [229, 136, 78, 234, 137, 182, 190, 115, 99, 198, 97, 127, 122, 73, 9, 8,
        108, 109, 13, 120, 177, 252, 186, 65, 211, 61, 9, 6, 115, 87, 104, 129]
  sha256_hex bytes := by
    split
    · decide
    · decide
  hmac_bytes _ message := by
    split
    · rfl
    · rfl

def localDev : Signing.LocalDevelopmentSigner where
  keyId := "local-dev"
  secret := "secret".toUTF8
  nonEmpty := by decide

theorem evidence_identity_twoRuns : ∃ envelope,
    signPayload noFloats twoDigests localDev ⟨0, none⟩ (runPayload "run-1") = .ok envelope ∧
    verifyPayload noFloats twoDigests localDev ⟨1, none⟩ (runPayload "run-1") envelope = .ok true ∧
    verifyPayload noFloats twoDigests localDev ⟨1, none⟩ (runPayload "run-2") envelope =
      .ok false := by
  obtain ⟨envelope, hsign, -⟩ := @signPayload_ok Empty noFloats twoDigests
    localDev (by decide) ⟨0, none⟩ (runPayload "run-1")
  obtain ⟨-, hverify, -⟩ := evidence_identity noFloats twoDigests strictConversions
  have hdiffer : twoDigests.sha256 (serialize noFloats (runPayload "run-1")) ≠
      twoDigests.sha256 (serialize noFloats (runPayload "run-2")) := by decide
  obtain ⟨answer, hanswer, hsame⟩ := hverify localDev ⟨0, none⟩ ⟨1, none⟩ (runPayload "run-1")
    (runPayload "run-1") envelope (fun _ => rfl) hsign
  obtain ⟨answer', hanswer', hother⟩ := hverify localDev ⟨0, none⟩ ⟨1, none⟩ (runPayload "run-1")
    (runPayload "run-2") envelope (fun h => absurd h hdiffer) hsign
  have hyes : answer = true := hsame.mpr (serialize_eq_iff (F := noFloats).mp rfl)
  have hno : answer' = false := by
    rw [← Bool.not_eq_true, hother, ← serialize_eq_iff (F := noFloats)]
    exact fun h => hdiffer (congrArg twoDigests.sha256 h)
  exact ⟨envelope, hsign, hyes ▸ hanswer, hno ▸ hanswer'⟩

end EvidenceStore

end Vad
