/-
  What every control-plane model shares: exceptions, policy decisions, points in time, and the
  validation that pydantic runs when a model is built.

  A model class of the source is a structure of its fields (what `model_dump` gives) together with
  a `Model` instance: the normalisation its validators perform and the list of its field checks.
  `Model.build` is the constructor call `Cls(**data)`; what it returns is an element of
  `Checked Cls`, the subtype of the data that passes every check, so that code which only ever
  sees built models never argues about their validity again.  Objects that the source mutates
  after construction are plain data.
-/
import Mathlib.Tactic.Common
import Mathlib.Data.List.Sort
import Mathlib.Data.Prod.Lex
import Mathlib.Data.String.Basic

namespace Vad

/-! ## Exceptions -/

/-- The exceptions the server code raises or lets through, with what they carry. -/
inductive PyError where
  /-- `KeyError`: no row under this key. -/
  | keyError (key : String)
  /-- pydantic's `ValidationError`: the model and the fields that failed their checks. -/
  | validationError (model : String) (fields : List String)
  /-- `sqlite3.IntegrityError`. -/
  | integrityError
  | permissionError (message : String)
  | valueError (message : String)
  | typeError
  | overflowError
  | attributeError
deriving DecidableEq, Repr

/-! ## Policy decisions -/

structure PolicyDecision where
  allow : Bool
  reasons : List String := []
  denials : List String := []
  requiresHuman : Bool := false
deriving DecidableEq, Repr

/-! ## Time -/

/-- A `datetime`: the wall clock in microseconds since 1970-01-01T00:00:00, and the UTC offset in
    seconds of an aware value. -/
structure DateTime where
  wall : Int
  offset : Option Int := none
deriving DecidableEq, Repr

namespace DateTime

/-- The instant in UTC microseconds, a naive value read as UTC. -/
def instant (t : DateTime) : Int := t.wall - t.offset.getD 0 * 1000000

def isAware (t : DateTime) : Bool := t.offset.isSome

/-- `_normalize_time`: naive values are taken as UTC, aware ones are converted to UTC. -/
def normalizeTime (t : DateTime) : DateTime := ⟨t.instant, some 0⟩

/-- `t + timedelta(seconds=n)`. -/
def addSeconds (t : DateTime) (n : Int) : DateTime := { t with wall := t.wall + n * 1000000 }

/-- Decimal digits with leading zeros up to the width. -/
def zeroPadded (width : Nat) (n : Nat) : String :=
  let digits := toString n
  String.ofList (List.replicate (width - digits.length) '0') ++ digits

/-- Year, month and day of a day number counted from 1970-01-01 (proleptic Gregorian calendar). -/
def civilDate (day : Int) : Int × Int × Int :=
  let z := day + 719468
  let era := z.fdiv 146097
  let doe := z - era * 146097
  let yoe := (doe - doe / 1460 + doe / 36524 - doe / 146096) / 365
  let doy := doe - (365 * yoe + yoe / 4 - yoe / 100)
  let mp := (5 * doy + 2) / 153
  let month := if mp < 10 then mp + 3 else mp - 9
  (yoe + era * 400 + (if month ≤ 2 then 1 else 0), month, doy - (153 * mp + 2) / 5 + 1)

/-- `datetime.isoformat()`. -/
def isoformat (t : DateTime) : String :=
  let date := civilDate (t.wall.fdiv 86400000000)
  let rest := (t.wall.fmod 86400000000).toNat
  let seconds := rest / 1000000
  let micros := rest % 1000000
  let clock := zeroPadded 2 (seconds / 3600) ++ ":" ++ zeroPadded 2 (seconds / 60 % 60) ++ ":" ++
    zeroPadded 2 (seconds % 60)
  let fraction := if micros = 0 then "" else "." ++ zeroPadded 6 micros
  let zone := match t.offset with
    | none => ""
    | some o =>
      let a := o.natAbs
      (if o < 0 then "-" else "+") ++ zeroPadded 2 (a / 3600) ++ ":" ++ zeroPadded 2 (a / 60 % 60) ++
        (if a % 60 = 0 then "" else ":" ++ zeroPadded 2 (a % 60))
  zeroPadded 4 date.1.toNat ++ "-" ++ zeroPadded 2 date.2.1.toNat ++ "-" ++
    zeroPadded 2 date.2.2.toNat ++ "T" ++ clock ++ fraction ++ zone

end DateTime

/-! ## Field checks -/

/-- The separators that identifiers must not contain. -/
def separators : List Char := ['/', '\\', '\n', '\r', '\t']

/-- The control separators that text fields must not contain. -/
def controls : List Char := ['\n', '\r', '\t']

def containsAny (chars : List Char) (value : String) : Bool := value.toList.any (chars.contains ·)

/-- `Field(min_length=lo, max_length=hi)`. -/
def lengthWithin (lo hi : Nat) (value : String) : Bool :=
  decide (lo ≤ value.length) && decide (value.length ≤ hi)

/-- An identifier of bounded length: `Field(min_length=lo, max_length=hi)` and the validator
    `identifiers_must_be_safe`. -/
def safeIdentifier (lo hi : Nat) (value : String) : Bool :=
  lengthWithin lo hi value && !containsAny separators value

theorem safeIdentifier_loosen {hi : Nat} {value : String} (h : safeIdentifier 1 hi value = true) :
    safeIdentifier 0 hi value = true := by
  simp only [safeIdentifier, lengthWithin, Bool.and_eq_true, decide_eq_true_eq] at h ⊢
  exact ⟨⟨Nat.zero_le _, h.1.2⟩, h.2⟩

/-- A text of bounded length without control separators. -/
def safeText (lo hi : Nat) (value : String) : Bool :=
  lengthWithin lo hi value && !containsAny controls value

/-- `Field(pattern=r"^[a-f0-9]{64}$")`. -/
def isDigest (value : String) : Bool :=
  decide (value.length = 64) &&
    value.toList.all (fun c => ('a' ≤ c && c ≤ 'f') || ('0' ≤ c && c ≤ '9'))

/-- A check of an optional field: `None` passes. -/
def optionally (check : String → Bool) (value : Option String) : Bool := value.all check

/-- Python's `value or default` on an optional string: the empty string counts as missing. -/
def orDefault (value : Option String) (default : String) : String :=
  match value with
  | some v => if v = "" then default else v
  | none => default

/-! ## Orders -/

/-- The order by several keys, the first of them first: `ORDER BY`, or a tuple as sort key. -/
def orderedBy (orders : List Ordering) : Bool := (orders.foldr Ordering.then .eq).isLE

theorem orderedBy_compare {α : Type} [LinearOrder α] (a b : α) (rest : List Ordering) :
    orderedBy (compare a b :: rest) = true ↔ a < b ∨ a = b ∧ orderedBy rest = true := by
  show (Ordering.then (compare a b) (rest.foldr Ordering.then .eq)).isLE = true ↔ _
  rcases lt_trichotomy a b with h | h | h
  · rw [compare_lt_iff_lt.mpr h]
    simp [h]
  · rw [compare_eq_iff_eq.mpr h]
    simp [h, orderedBy]
  · rw [compare_gt_iff_gt.mpr h]
    simp [h.not_gt, h.ne']

/-- A tuple as a sort key is its lexicographic order. -/
theorem orderedBy_three {α β γ : Type} [LinearOrder α] [LinearOrder β] [LinearOrder γ] (a a' : α)
    (b b' : β) (c c' : γ) : orderedBy [compare a a', compare b b', compare c c'] = true ↔
      toLex (a, toLex (b, c)) ≤ toLex (a', toLex (b', c')) := by
  rw [orderedBy_compare, orderedBy_compare, orderedBy_compare, Prod.Lex.toLex_le_toLex,
    Prod.Lex.toLex_le_toLex]
  simp only [le_iff_lt_or_eq]
  simp [orderedBy]

/-! ## Building a model -/

/-- A pydantic model class: its name, what its validators normalise, and its field checks. -/
class Model (α : Type) where
  name : String
  normalize : α → α
  checks : α → List (String × Bool)
  normalize_idem : ∀ a, normalize (normalize a) = normalize a

/-- The fields whose check fails. -/
def failedFields (checks : List (String × Bool)) : List String :=
  (checks.filter (fun c => !c.2)).map Prod.fst

theorem failedFields_eq_nil {checks : List (String × Bool)} :
    failedFields checks = [] ↔ ∀ c ∈ checks, c.2 = true := by
  simp [failedFields, List.filter_eq_nil_iff]

namespace Model

variable {α : Type} [Model α]

/-- The data of a built model: already normalised, and every field check passes. -/
def Valid (a : α) : Prop := normalize a = a ∧ failedFields (checks a) = []

/-- The constructor call `Cls(**data)`. -/
def build (a : α) : Except PyError { a : α // Valid a } :=
  if h : failedFields (checks (normalize a)) = [] then
    .ok ⟨normalize a, normalize_idem a, h⟩
  else .error (.validationError (name α) (failedFields (checks (normalize a))))

end Model

/-- A built model. -/
abbrev Checked (α : Type) [Model α] : Type := { a : α // Model.Valid a }

namespace Model

variable {α : Type} [Model α]

/-- A built model passes its own validation again, unchanged. -/
theorem build_checked (a : Checked α) : build a.1 = .ok a := by
  have h := a.2.1
  unfold build
  rw [dif_pos (by rw [h]; exact a.2.2)]
  exact congrArg Except.ok (Subtype.ext h)

theorem build_of_valid {a : α} (h : Valid a) : build a = .ok ⟨a, h⟩ := build_checked ⟨a, h⟩

theorem build_eq_ok {a : α} {b : Checked α} (h : build a = .ok b) : b.1 = normalize a := by
  unfold build at h
  split at h
  · exact (congrArg Subtype.val (Except.ok.inj h)).symm
  · cases h

/-- A constructor call fails only with the fields that fail. -/
theorem build_eq_error {a : α} {e : PyError} :
    build a = .error e ↔ failedFields (checks (normalize a)) ≠ [] ∧
      e = .validationError (name α) (failedFields (checks (normalize a))) := by
  unfold build
  split
  · rename_i h
    exact ⟨fun h' => (by cases h'), fun h' => absurd h h'.1⟩
  · rename_i h
    exact ⟨fun h' => ⟨h, (Except.error.inj h').symm⟩, fun h' => by rw [h'.2]⟩

end Model

end Vad
