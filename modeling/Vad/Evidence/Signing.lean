/-
  The identity of evidence (`EvidenceBundle` of `vad/evidence/bundle.py`), and its signature
  (`vad/signing/local.py`, with the envelope of `vad/signing/models.py`).

  1. The bytes of a bundle are equal exactly for payloads that are the same up to the order of keys
     (`serialize_eq_iff`), so the digest decides as far as the hash has no collision.
  2. A signer signs every payload, if its key id is a reference (`signPayload_ok`).
  3. What it signed it verifies for the same payload, and for no other (`verifyPayload_iff`);
     nothing with another key id (`verifyPayload_otherKey`).
-/
import Vad.ControlPlane.Model
import Vad.Lib.Base64
import Vad.Lib.CanonicalJson

namespace Vad

open CanonicalJson

/-- A JSON value in which no object has a key twice. -/
def Payload (φ : Type) : Type := { v : Value φ // v.WellFormed }

/-- The same payload up to the order of keys. -/
def Payload.Same {φ : Type} (p q : Payload φ) : Prop := p.1.Same q.1

/-! ## The bundle -/

section Bundle

variable {φ : Type} (F : FloatText φ)

/-- `EvidenceBundle.serialize`; the text is ASCII, whatever the payload. -/
def serialize (p : Payload φ) : ByteArray := (String.ofList (dumps F p.1)).toUTF8

/-- `EvidenceBundle.compute_hash`. -/
def computeHash (sha256 : ByteArray → String) (p : Payload φ) : String := sha256 (serialize F p)

variable {F}

theorem serialize_eq_iff {p q : Payload φ} : serialize F p = serialize F q ↔ p.Same q := by
  refine Iff.trans ?_ (dumps_eq_iff (F := F) p.2 q.2)
  constructor
  · intro h
    exact String.ofList_injective (String.toByteArray_inj.mp h)
  · intro h
    unfold serialize
    rw [h]

/-- The digests agree for the same payloads, and for no others whose bytes do not collide. -/
theorem computeHash_eq_iff {sha256 : ByteArray → String} {p q : Payload φ}
    (hsha : sha256 (serialize F p) = sha256 (serialize F q) → serialize F p = serialize F q) :
    computeHash F sha256 p = computeHash F sha256 q ↔ p.Same q := by
  refine Iff.trans ⟨hsha, fun h => ?_⟩ serialize_eq_iff
  unfold computeHash
  rw [h]

end Bundle

/-! ## Envelopes -/

namespace Signing

inductive SignatureAlgorithm where
  | ed25519 | hmacSha256
deriving DecidableEq, Repr

/-- `SignatureEnvelope`, all of it; a plugin artifact is verified with a part. -/
structure SignatureEnvelope where
  schemaVersion : String := "1.0.0"
  payloadDigest : String
  keyId : String
  algorithm : SignatureAlgorithm
  signature : String
  createdAt : DateTime
deriving DecidableEq, Repr

/-- A compact key reference: the bounds of `key_id`, and `key_id_must_be_reference`. -/
def isKeyReference (keyId : String) : Bool :=
  lengthWithin 1 200 keyId && !keyId.toList.any PyText.isSpace

/-- `signature_must_be_base64`. -/
def isSignature (signature : String) : Bool :=
  match Base64.decode signature.toList with
  | some bytes => decide (bytes ≠ [])
  | none => false

instance : Model SignatureEnvelope where
  name := "SignatureEnvelope"
  normalize := id
  checks e := [
    ("payload_digest", isDigest e.payloadDigest),
    ("key_id", isKeyReference e.keyId),
    ("signature", isSignature e.signature)]
  normalize_idem _ := rfl

theorem SignatureEnvelope.valid_iff {e : SignatureEnvelope} : Model.Valid e ↔
    isDigest e.payloadDigest = true ∧ isKeyReference e.keyId = true ∧
      isSignature e.signature = true := by
  unfold Model.Valid
  rw [failedFields_eq_nil]
  simp [Model.normalize, Model.checks]

/-! ## The signer -/

/-- The digests of the standard library: `sha256(b).hexdigest()` and
    `hmac.new(secret, message, sha256).digest()`. -/
structure Digests where
  sha256 : ByteArray → String
  hmac : ByteArray → ByteArray → List UInt8
  sha256_hex : ∀ bytes, isDigest (sha256 bytes) = true
  hmac_bytes : ∀ secret message, (hmac secret message).length = 32

/-- A signer has a secret. -/
structure LocalDevelopmentSigner where
  keyId : String
  secret : ByteArray
  nonEmpty : secret.size ≠ 0

/-- `LocalDevelopmentSigner(key_id, secret)`. -/
def localDevelopmentSigner (keyId : String) (secret : ByteArray) :
    Except PyError LocalDevelopmentSigner :=
  if h : secret.size = 0 then .error (.valueError "local signing secret must not be empty")
  else .ok ⟨keyId, secret, h⟩

section Signer

variable {φ : Type}

/-- `LocalDevelopmentSigner.sign_payload`. -/
def signPayload (F : FloatText φ) (digests : Digests) (signer : LocalDevelopmentSigner)
    (now : DateTime) (payload : Payload φ) : Except PyError (Checked SignatureEnvelope) :=
  let digest := computeHash F digests.sha256 payload
  let signature := digests.hmac signer.secret digest.toUTF8
  Model.build {
    payloadDigest := digest
    keyId := signer.keyId
    algorithm := .hmacSha256
    signature := String.ofList (Base64.encode signature)
    createdAt := now }

/-- `LocalDevelopmentSigner.verify_payload`. -/
def verifyPayload (F : FloatText φ) (digests : Digests) (signer : LocalDevelopmentSigner)
    (now : DateTime) (payload : Payload φ) (envelope : Checked SignatureEnvelope) :
    Except PyError Bool :=
  if envelope.1.keyId ≠ signer.keyId ∨ envelope.1.algorithm ≠ .hmacSha256 then .ok false
  else do
    let expected ← signPayload F digests signer now payload
    .ok (decide (expected.1.payloadDigest = envelope.1.payloadDigest) &&
      decide (expected.1.signature = envelope.1.signature))

variable {F : FloatText φ} {digests : Digests} {signer : LocalDevelopmentSigner}

theorem isSignature_encode {bytes : List UInt8} (h : bytes ≠ []) :
    isSignature (String.ofList (Base64.encode bytes)) = true := by
  unfold isSignature
  rw [String.toList_ofList, Base64.decode_encode]
  exact decide_eq_true h

/-- What `sign_payload` builds. -/
def envelopeOf (F : FloatText φ) (digests : Digests) (signer : LocalDevelopmentSigner)
    (now : DateTime) (payload : Payload φ) : SignatureEnvelope where
  payloadDigest := computeHash F digests.sha256 payload
  keyId := signer.keyId
  algorithm := .hmacSha256
  signature := String.ofList (Base64.encode
    (digests.hmac signer.secret (computeHash F digests.sha256 payload).toUTF8))
  createdAt := now

theorem envelopeOf_valid (h : isKeyReference signer.keyId = true) (now : DateTime)
    (payload : Payload φ) : Model.Valid (envelopeOf F digests signer now payload) := by
  refine SignatureEnvelope.valid_iff.mpr ⟨digests.sha256_hex _, h, isSignature_encode ?_⟩
  intro hnil
  have hlength := digests.hmac_bytes signer.secret (computeHash F digests.sha256 payload).toUTF8
  rw [hnil] at hlength
  cases hlength

theorem signPayload_ok (h : isKeyReference signer.keyId = true) (now : DateTime)
    (payload : Payload φ) : ∃ envelope, signPayload F digests signer now payload = .ok envelope ∧
      envelope.1 = envelopeOf F digests signer now payload :=
  ⟨_, Model.build_of_valid (envelopeOf_valid h now payload), rfl⟩

/-- What was signed has the key id of the signer, which is a reference. -/
theorem signPayload_eq_ok {now : DateTime} {payload : Payload φ}
    {envelope : Checked SignatureEnvelope}
    (h : signPayload F digests signer now payload = .ok envelope) :
    envelope.1 = envelopeOf F digests signer now payload ∧ isKeyReference signer.keyId = true := by
  have hdata : envelope.1 = envelopeOf F digests signer now payload := Model.build_eq_ok h
  have hvalid := (SignatureEnvelope.valid_iff.mp envelope.2).2.1
  rw [hdata] at hvalid
  exact ⟨hdata, hvalid⟩

/-- Verification of a signed payload answers, and says whether the payload is the one signed. -/
theorem verifyPayload_iff {now now' : DateTime} {p q : Payload φ}
    {envelope : Checked SignatureEnvelope}
    (hsha : digests.sha256 (serialize F p) = digests.sha256 (serialize F q) →
      serialize F p = serialize F q)
    (h : signPayload F digests signer now p = .ok envelope) :
    ∃ answer, verifyPayload F digests signer now' q envelope = .ok answer ∧
      (answer = true ↔ p.Same q) := by
  obtain ⟨hdata, hkey⟩ := signPayload_eq_ok h
  obtain ⟨expected, hexpected, hbuilt⟩ := @signPayload_ok φ F digests signer hkey now' q
  have hours : ¬ (envelope.1.keyId ≠ signer.keyId ∨ envelope.1.algorithm ≠ .hmacSha256) := by
    rw [hdata]
    rintro (h | h)
    · exact h rfl
    · exact h rfl
  refine ⟨decide (expected.1.payloadDigest = envelope.1.payloadDigest) &&
    decide (expected.1.signature = envelope.1.signature), ?_, ?_⟩
  · unfold verifyPayload
    rw [if_neg hours, hexpected]
    rfl
  · rw [Bool.and_eq_true, decide_eq_true_eq, decide_eq_true_eq, hbuilt, hdata]
    constructor
    · rintro ⟨hdigest, -⟩
      exact (computeHash_eq_iff hsha).mp hdigest.symm
    · intro hsame
      -- the signature is a function of the digest
      have hdigest : computeHash F digests.sha256 q = computeHash F digests.sha256 p :=
        ((computeHash_eq_iff hsha).mpr hsame).symm
      refine ⟨hdigest, ?_⟩
      show String.ofList (Base64.encode (digests.hmac signer.secret
        (computeHash F digests.sha256 q).toUTF8)) = _
      rw [hdigest]
      rfl

/-- No envelope with another key id is verified. -/
theorem verifyPayload_otherKey {envelope : Checked SignatureEnvelope}
    (h : envelope.1.keyId ≠ signer.keyId) (now : DateTime) (payload : Payload φ) :
    verifyPayload F digests signer now payload envelope = .ok false :=
  if_pos (Or.inl h)

end Signer

end Signing

end Vad
