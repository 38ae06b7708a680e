/-
  Redaction of provider payloads (`vad/router/privacy.py`), and the evidence of a provider call
  (`create_provider_call_evidence` of `vad/evidence/recorder.py`).

  1. **The code** — every value under a sensitive key becomes a marker, at any depth (`redact`); the
     digest is taken of the canonical text of what is left (`redactionDigest`).

  2. **Shape** (`redacted_redact`) — the keys, the lengths of lists and every value that is not under
     a sensitive key stay; a relation says so, place by place.

  3. **Two runs** (`same_redact`) — payloads that differ in secrets only, and in the order of keys,
     have the same redaction; so have the digests and the evidence of a call (`redaction_keeps`).

  `str.lower` is a parameter: a key is sensitive if what it makes of the key is.
-/
import Vad.Evidence.Signing

namespace Vad

open CanonicalJson

namespace Privacy

/-! ## Redaction -/

def sensitiveKeys : List String :=
  ["prompt", "input", "message", "messages", "content", "api_key", "secret", "token"]

/-- `key.lower() in SENSITIVE_KEYS`. -/
def isSecret (lower : String → String) (key : String) : Bool := decide (lower key ∈ sensitiveKeys)

section Redact

variable {φ : Type} (lower : String → String)

def marker : Value φ := .text "[redacted]"

mutual

/-- `_redact`. -/
def redact : Value φ → Value φ
  | .object entries => .object (redactEntries entries)
  | .array values => .array (redactItems values)
  | .null => .null
  | .bool b => .bool b
  | .int n => .int n
  | .float x => .float x
  | .text s => .text s

def redactEntries : List (String × Value φ) → List (String × Value φ)
  | [] => []
  | (key, item) :: rest =>
    (key, if isSecret lower key then marker else redact item) :: redactEntries rest

def redactItems : List (Value φ) → List (Value φ)
  | [] => []
  | item :: rest => redact item :: redactItems rest

end

theorem redactEntries_eq (entries : List (String × Value φ)) : redactEntries lower entries =
    entries.map fun e => (e.1, if isSecret lower e.1 then marker else redact lower e.2) := by
  induction entries with
  | nil => rfl
  | cons e rest ih =>
    exact congrArg ((e.1, if isSecret lower e.1 then marker else redact lower e.2) :: ·) ih

theorem redactItems_eq (values : List (Value φ)) :
    redactItems lower values = values.map (redact lower) := by
  induction values with
  | nil => rfl
  | cons v rest ih => exact congrArg (redact lower v :: ·) ih

theorem mem_redactEntries {entries : List (String × Value φ)} {key : String} {x : Value φ} :
    (key, x) ∈ redactEntries lower entries ↔
      ∃ v, (key, v) ∈ entries ∧ (if isSecret lower key then marker else redact lower v) = x := by
  rw [redactEntries_eq, List.mem_map]
  constructor
  · rintro ⟨e, he, heq⟩
    obtain ⟨rfl, rfl⟩ := Prod.mk.inj heq
    exact ⟨e.2, he, rfl⟩
  · rintro ⟨v, hv, rfl⟩
    exact ⟨(key, v), hv, rfl⟩

theorem keys_redactEntries (entries : List (String × Value φ)) :
    (redactEntries lower entries).map Prod.fst = entries.map Prod.fst := by
  rw [redactEntries_eq, List.map_map]
  rfl

theorem wellFormed_redact {v : Value φ} (h : v.WellFormed) : (redact lower v).WellFormed := by
  induction h with
  | null => exact .null
  | bool b => exact .bool b
  | int n => exact .int n
  | float x => exact .float x
  | text s => exact .text s
  | @array values _ ih =>
    refine .array fun w hw => ?_
    rw [redactItems_eq] at hw
    obtain ⟨v, hv, rfl⟩ := List.mem_map.mp hw
    exact ih v hv
  | @object entries hkeys _ ih =>
    refine .object ?_ fun f hf => ?_
    · unfold Dict.KeysNodup
      rw [keys_redactEntries]
      exact hkeys
    · obtain ⟨v, hv, hf'⟩ := (mem_redactEntries lower).mp hf
      rw [← hf']
      split
      · exact .text _
      · exact ih (f.1, v) hv

/-- `redact_provider_payload`. -/
def redactProviderPayload (payload : Payload φ) : Payload φ :=
  ⟨redact lower payload.1, wellFormed_redact lower payload.2⟩

/-- `redaction_digest`. -/
def redactionDigest (F : FloatText φ) (sha256 : ByteArray → String) (payload : Payload φ) : String :=
  sha256 (serialize F (redactProviderPayload lower payload))

/-- `response or {}`. -/
def orEmpty (response : Option (Payload φ)) : Payload φ :=
  response.getD ⟨.object [], .object List.nodup_nil fun _ he => nomatch he⟩

/-- `EvidenceRecorder.create_provider_call_evidence`. -/
def createProviderCallEvidence (F : FloatText φ) (sha256 : ByteArray → String) (provider : String)
    (request : Payload φ) (response : Option (Payload φ)) : Value φ :=
  .object [
    ("event", .text "provider_call"),
    ("provider", .text provider),
    ("request", (redactProviderPayload lower request).1),
    ("request_redaction_digest", .text (redactionDigest lower F sha256 request)),
    ("response", (redactProviderPayload lower (orEmpty response)).1)]

/-! ## Shape -/

/-- `w` is `v` with the marker under the secret keys: the same keys, lengths and open values, place
    by place. -/
inductive Redacted : Value φ → Value φ → Prop
  | null : Redacted .null .null
  | bool (b : Bool) : Redacted (.bool b) (.bool b)
  | int (n : Int) : Redacted (.int n) (.int n)
  | float (x : φ) : Redacted (.float x) (.float x)
  | text (s : String) : Redacted (.text s) (.text s)
  | array {vs ws : List (Value φ)} (hlength : ws.length = vs.length)
      (h : ∀ (i : Nat) v w, vs[i]? = some v → ws[i]? = some w → Redacted v w) :
      Redacted (.array vs) (.array ws)
  | object {es fs : List (String × Value φ)} (hkeys : fs.map Prod.fst = es.map Prod.fst)
      (hsecret : ∀ (i : Nat) key w, fs[i]? = some (key, w) → isSecret lower key = true → w = marker)
      (hopen : ∀ (i : Nat) key v w, es[i]? = some (key, v) → fs[i]? = some (key, w) →
        isSecret lower key = false → Redacted v w) :
      Redacted (.object es) (.object fs)

theorem redacted_redact (v : Value φ) : Redacted lower v (redact lower v) := by
  induction v using Value.induction with
  | null => exact .null
  | bool b => exact .bool b
  | int n => exact .int n
  | float x => exact .float x
  | text s => exact .text s
  | array vs ih =>
    show Redacted lower (.array vs) (.array (redactItems lower vs))
    rw [redactItems_eq]
    refine .array (List.length_map ..) fun i v w hv hw => ?_
    rw [List.getElem?_map, hv] at hw
    exact Option.some.inj hw ▸ ih v (List.mem_of_getElem? hv)
  | object es ih =>
    refine .object (keys_redactEntries lower es) (fun i key w hw hsecret => ?_)
      fun i key v w hv hw hopen => ?_
    · rw [redactEntries_eq, List.getElem?_map, Option.map_eq_some_iff] at hw
      obtain ⟨e, -, heq⟩ := hw
      obtain ⟨rfl, rfl⟩ := Prod.mk.inj heq
      exact if_pos hsecret
    · rw [redactEntries_eq, List.getElem?_map, hv] at hw
      obtain ⟨-, rfl⟩ := Prod.mk.inj (Option.some.inj hw)
      rw [if_neg (by simp [hopen])]
      exact ih (key, v) (List.mem_of_getElem? hv)

/-- The entry stands somewhere in the value. -/
inductive HasEntry (key : String) (x : Value φ) : Value φ → Prop
  | here {es : List (String × Value φ)} : (key, x) ∈ es → HasEntry key x (.object es)
  | member {es : List (String × Value φ)} {k : String} {v : Value φ} :
    (k, v) ∈ es → HasEntry key x v → HasEntry key x (.object es)
  | element {vs : List (Value φ)} {v : Value φ} :
    v ∈ vs → HasEntry key x v → HasEntry key x (.array vs)

/-- Under a secret key, at any depth, there is the marker. -/
theorem eq_marker_of_hasEntry {v x : Value φ} {key : String}
    (h : HasEntry key x (redact lower v)) (hsecret : isSecret lower key = true) : x = marker := by
  induction v using Value.induction with
  | array vs ih =>
    cases h with
    | element hw h =>
      rw [redactItems_eq] at hw
      obtain ⟨v, hv, rfl⟩ := List.mem_map.mp hw
      exact ih v hv h
  | object es ih =>
    cases h with
    | here hx =>
      obtain ⟨v, -, rfl⟩ := (mem_redactEntries lower).mp hx
      exact if_pos hsecret
    | @member _ k w hw h =>
      obtain ⟨v, hv, rfl⟩ := (mem_redactEntries lower).mp hw
      split at h
      · cases h
      · exact ih (k, v) hv h
  | null => cases h
  | bool b => cases h
  | int n => cases h
  | float y => cases h
  | text s => cases h

/-- A redacted value is left alone. -/
theorem redact_redact (v : Value φ) : redact lower (redact lower v) = redact lower v := by
  induction v using Value.induction with
  | null => rfl
  | bool b => rfl
  | int n => rfl
  | float x => rfl
  | text s => rfl
  | array vs ih =>
    show Value.array (redactItems lower (redactItems lower vs)) = .array (redactItems lower vs)
    rw [redactItems_eq, redactItems_eq, List.map_map]
    exact congrArg Value.array (List.map_congr_left ih)
  | object es ih =>
    show Value.object (redactEntries lower (redactEntries lower es)) =
      .object (redactEntries lower es)
    rw [redactEntries_eq, redactEntries_eq, List.map_map]
    refine congrArg Value.object (List.map_congr_left fun e he => ?_)
    dsimp only [Function.comp_apply]
    cases hsecret : isSecret lower e.1 with
    | true => rfl
    | false => exact congrArg (Prod.mk e.1) (ih e he)

/-! ## Two runs -/

/-- The values agree but for what stands under secret keys, and for the order of keys. -/
inductive SameButSecrets : Value φ → Value φ → Prop
  | null : SameButSecrets .null .null
  | bool (b : Bool) : SameButSecrets (.bool b) (.bool b)
  | int (n : Int) : SameButSecrets (.int n) (.int n)
  | float (x : φ) : SameButSecrets (.float x) (.float x)
  | text (s : String) : SameButSecrets (.text s) (.text s)
  | array {vs ws : List (Value φ)} (hlength : vs.length = ws.length)
      (h : ∀ (i : Nat) v w, vs[i]? = some v → ws[i]? = some w → SameButSecrets v w) :
      SameButSecrets (.array vs) (.array ws)
  | object {es fs : List (String × Value φ)}
      (hkeys : ∀ key, key ∈ es.map Prod.fst ↔ key ∈ fs.map Prod.fst)
      (h : ∀ key v w, (key, v) ∈ es → (key, w) ∈ fs → isSecret lower key = false →
        SameButSecrets v w) :
      SameButSecrets (.object es) (.object fs)

variable {lower}

/-- What differs in secrets only is redacted to the same. -/
theorem same_redact {v w : Value φ} (h : SameButSecrets lower v w) :
    (redact lower v).Same (redact lower w) := by
  induction h with
  | null => exact .null
  | bool b => exact .bool b
  | int n => exact .int n
  | float x => exact .float x
  | text s => exact .text s
  | @array vs ws hlength _ ih =>
    show (Value.array (redactItems lower vs)).Same (.array (redactItems lower ws))
    rw [redactItems_eq, redactItems_eq]
    refine .array (by rw [List.length_map, List.length_map, hlength]) fun i x y hx hy => ?_
    rw [List.getElem?_map, Option.map_eq_some_iff] at hx hy
    obtain ⟨v, hv, rfl⟩ := hx
    obtain ⟨w, hw, rfl⟩ := hy
    exact ih i v w hv hw
  | @object es fs hkeys _ ih =>
    refine .object (fun key => ?_) fun key x y hx hy => ?_
    · rw [keys_redactEntries, keys_redactEntries]
      exact hkeys key
    · obtain ⟨v, hv, rfl⟩ := (mem_redactEntries lower).mp hx
      obtain ⟨w, hw, rfl⟩ := (mem_redactEntries lower).mp hy
      cases hsecret : isSecret lower key with
      | true => exact .text _
      | false => exact ih key v w hv hw hsecret

/-- Such payloads have one digest. -/
theorem redactionDigest_eq {F : FloatText φ} {sha256 : ByteArray → String} {p q : Payload φ}
    (h : SameButSecrets lower p.1 q.1) :
    redactionDigest lower F sha256 p = redactionDigest lower F sha256 q := by
  have hsame : (redactProviderPayload lower p).Same (redactProviderPayload lower q) := same_redact h
  unfold redactionDigest
  rw [serialize_eq_iff.mpr hsame]

/-- Calls with such requests and responses have one evidence. -/
theorem same_evidence {F : FloatText φ} {sha256 : ByteArray → String} {provider : String}
    {p q : Payload φ} {r t : Option (Payload φ)} (hrequest : SameButSecrets lower p.1 q.1)
    (hresponse : SameButSecrets lower (orEmpty r).1 (orEmpty t).1) :
    (createProviderCallEvidence lower F sha256 provider p r).Same
      (createProviderCallEvidence lower F sha256 provider q t) := by
  have hkeys : ["event", "provider", "request", "request_redaction_digest", "response"].Nodup := by
    decide
  unfold createProviderCallEvidence
  rw [redactionDigest_eq hrequest]
  refine (same_object_iff ?_ ?_).mpr ?_
  · rfl
  · exact hkeys
  · exact .cons (.text _) <| .cons (.text _) <| .cons (same_redact hrequest) <| .cons (.text _) <|
      .cons (same_redact hresponse) .nil

/-- What is promised of the redaction of a payload. -/
structure RedactionKeeps (lower : String → String) (F : FloatText φ) (sha256 : ByteArray → String)
    (p : Payload φ) : Prop where
  idempotent : redactProviderPayload lower (redactProviderPayload lower p) =
    redactProviderPayload lower p
  shape : Redacted lower p.1 (redactProviderPayload lower p).1
  hidden : ∀ key x, HasEntry key x (redactProviderPayload lower p).1 →
    isSecret lower key = true → x = marker
  blind : ∀ q : Payload φ, SameButSecrets lower p.1 q.1 →
    (redactProviderPayload lower p).Same (redactProviderPayload lower q) ∧
      redactionDigest lower F sha256 p = redactionDigest lower F sha256 q
  evidence : ∀ (q : Payload φ) (r t : Option (Payload φ)) (provider : String),
    SameButSecrets lower p.1 q.1 → SameButSecrets lower (orEmpty r).1 (orEmpty t).1 →
      (createProviderCallEvidence lower F sha256 provider p r).Same
        (createProviderCallEvidence lower F sha256 provider q t)

/-- Redaction keeps the shape of every payload and nothing of its secrets. -/
theorem redaction_keeps (lower : String → String) (F : FloatText φ) (sha256 : ByteArray → String)
    (p : Payload φ) : RedactionKeeps lower F sha256 p where
  idempotent := Subtype.ext (redact_redact lower p.1)
  shape := redacted_redact lower p.1
  hidden _ _ h hsecret := eq_marker_of_hasEntry lower h hsecret
  blind _ h := ⟨same_redact h, redactionDigest_eq h⟩
  evidence _ _ _ _ hrequest hresponse := same_evidence hrequest hresponse

end Redact

end Privacy

end Vad
