/-
  JSON with integers and floats told apart, and its compact text with sorted keys, as
  `json.dumps(value, sort_keys=True, separators=(",", ":"))` writes it.

  Two values have the same text exactly when they are the same up to the order of the keys of their
  objects (`dumps_eq_iff`).  The parts:

  1. a character in a text is escaped to code that can be read back (`readChar_escape`), so a quoted
     text can be told from what follows it (`quote_append_inj`);
  2. a number ends where a character that no number contains stands (`number_append_inj`);
  3. therefore a value can be told from what follows it, if that starts with a separator
     (`write_append_inj`);
  4. sorting the keys of all objects gives equal values to the same values, and to no others
     (`canonical_eq_iff`).

  The text of a float is the language's own, which the development knows by what is documented of
  it (`FloatText`).
-/
import Mathlib.Data.List.Sort
import Mathlib.Data.String.Basic
import Mathlib.Tactic.IntervalCases
import Vad.Lib.Dict
import Vad.Lib.Text

namespace CanonicalJson

/-! ## Characters -/

/-- A digit of a hexadecimal numeral, in lower case. -/
def hexDigit (n : Nat) : Char := if n < 10 then Char.ofNat (48 + n) else Char.ofNat (87 + n)

def hexValue (c : Char) : Option Nat :=
  let n := c.toNat
  if 48 ≤ n ∧ n < 58 then some (n - 48)
  else if 97 ≤ n ∧ n < 103 then some (n - 87)
  else none

/-- `'\\u{0:04x}'.format(n)`. -/
def hexEscape (n : Nat) : List Char :=
  ['\\', 'u', hexDigit (n / 4096 % 16), hexDigit (n / 256 % 16), hexDigit (n / 16 % 16),
    hexDigit (n % 16)]

/-- `ESCAPE_DCT`: the characters that have a short escape, and its letter. -/
def shortEscapes : List (Char × Char) := [
  ('\\', '\\'), ('"', '"'), (Char.ofNat 8, 'b'), (Char.ofNat 12, 'f'), ('\n', 'n'), ('\r', 'r'),
  ('\t', 't')]

/-- A character inside a quoted text; one above `U+FFFF` is written as two surrogates. -/
def escape (c : Char) : List Char :=
  match shortEscapes.find? fun e => e.1 = c with
  | some e => ['\\', e.2]
  | none =>
    if 32 ≤ c.toNat ∧ c.toNat < 127 then [c]
    else if c.toNat < 65536 then hexEscape c.toNat
    else
      hexEscape (55296 + (c.toNat - 65536) / 1024) ++ hexEscape (56320 + (c.toNat - 65536) % 1024)

/-- `py_encode_basestring_ascii`. -/
def quote (s : String) : List Char := '"' :: (s.toList.flatMap escape ++ ['"'])

/-- The number of a `\uXXXX`, and what follows it. -/
def readHexEscape : List Char → Option (Nat × List Char)
  | '\\' :: 'u' :: a :: b :: c :: d :: rest => do
    let a ← hexValue a
    let b ← hexValue b
    let c ← hexValue c
    let d ← hexValue d
    some (a * 4096 + b * 256 + c * 16 + d, rest)
  | _ => none

/-- The character that an escape stands for, and what follows it. -/
def readChar (t : List Char) : Option (Char × List Char) :=
  match readHexEscape t with
  | some (n, rest) =>
    if 55296 ≤ n ∧ n < 56320 then
      (readHexEscape rest).map fun r => (Char.ofNat (65536 + (n - 55296) * 1024 + (r.1 - 56320)), r.2)
    else some (Char.ofNat n, rest)
  | none =>
    match t with
    | '\\' :: x :: rest => (shortEscapes.find? fun e => e.2 = x).map fun e => (e.1, rest)
    | c :: rest => some (c, rest)
    | [] => none

theorem hexValue_hexDigit {n : Nat} (h : n < 16) : hexValue (hexDigit n) = some n := by
  interval_cases n <;> decide

theorem readHexEscape_hexEscape {n : Nat} (h : n < 65536) (rest : List Char) :
    readHexEscape (hexEscape n ++ rest) = some (n, rest) := by
  have hsum : n / 4096 % 16 * 4096 + n / 256 % 16 * 256 + n / 16 % 16 * 16 + n % 16 = n := by omega
  show (do
    let a ← hexValue (hexDigit (n / 4096 % 16))
    let b ← hexValue (hexDigit (n / 256 % 16))
    let c ← hexValue (hexDigit (n / 16 % 16))
    let d ← hexValue (hexDigit (n % 16))
    some (a * 4096 + b * 256 + c * 16 + d, rest)) = _
  rw [hexValue_hexDigit (by omega), hexValue_hexDigit (by omega), hexValue_hexDigit (by omega),
    hexValue_hexDigit (by omega)]
  show some (_, rest) = _
  rw [hsum]

/-- What is not an escape with `u` is not read as one. -/
theorem readHexEscape_of_ne {c : Char} {rest : List Char} (h : c ≠ '\\') :
    readHexEscape (c :: rest) = none := by
  unfold readHexEscape
  split
  · rename_i heq
    exact absurd (List.cons.inj heq).1 h
  · rfl

theorem readHexEscape_short {x : Char} {rest : List Char} (h : x ≠ 'u') :
    readHexEscape ('\\' :: x :: rest) = none := by
  unfold readHexEscape
  split
  · rename_i heq
    exact absurd (List.cons.inj (List.cons.inj heq).2).1 h
  · rfl

/-- A character is no surrogate. -/
theorem not_surrogate (c : Char) : ¬ (55296 ≤ c.toNat ∧ c.toNat < 57344) ∧ c.toNat < 1114112 := by
  have hvalid : c.toNat.isValidChar := c.valid
  rcases hvalid with h | ⟨h, h'⟩
  · omega
  · omega

theorem readChar_plain {c : Char} (rest : List Char) (h : c ≠ '\\') :
    readChar (c :: rest) = some (c, rest) := by
  unfold readChar
  rw [readHexEscape_of_ne h]
  dsimp only
  split
  · rename_i heq
    exact absurd (List.cons.inj heq).1 h
  · rename_i heq
    obtain ⟨rfl, rfl⟩ := List.cons.inj heq
    rfl
  · rename_i heq
    cases heq

theorem readChar_short {e : Char × Char} (rest : List Char) (h : e ∈ shortEscapes) :
    readChar ('\\' :: e.2 :: rest) = some (e.1, rest) := by
  have hback : ∀ e ∈ shortEscapes, e.2 ≠ 'u' ∧
      (shortEscapes.find? fun x => decide (x.2 = e.2)) = some e := by decide
  unfold readChar
  rw [readHexEscape_short (hback e h).1]
  simp only [(hback e h).2, Option.map_some]

/-- A number that is no first surrogate stands for itself. -/
theorem readChar_hex {n : Nat} (rest : List Char) (hmax : n < 65536)
    (h : ¬ (55296 ≤ n ∧ n < 56320)) :
    readChar (hexEscape n ++ rest) = some (Char.ofNat n, rest) := by
  unfold readChar
  rw [readHexEscape_hexEscape hmax]
  simp only [h, if_false]

/-- A first surrogate says that a second follows. -/
theorem readChar_pair {n m : Nat} (rest : List Char) (hn : 55296 ≤ n ∧ n < 56320)
    (hm : m < 65536) :
    readChar (hexEscape n ++ (hexEscape m ++ rest)) =
      some (Char.ofNat (65536 + (n - 55296) * 1024 + (m - 56320)), rest) := by
  have hmax : n < 65536 := by omega
  unfold readChar
  rw [readHexEscape_hexEscape hmax]
  simp only [hn, and_self, if_true]
  rw [readHexEscape_hexEscape hm]
  rfl

/-- **An escaped character is read back**, whatever follows it. -/
theorem readChar_escape (c : Char) (rest : List Char) :
    readChar (escape c ++ rest) = some (c, rest) := by
  obtain ⟨hsurrogate, hmax⟩ := not_surrogate c
  unfold escape
  cases hfind : shortEscapes.find? fun e => e.1 = c with
  | some e =>
    have hc : e.1 = c := by simpa using List.find?_some hfind
    rw [← hc]
    exact readChar_short rest (List.mem_of_find?_eq_some hfind)
  | none =>
    dsimp only
    have hno : c ≠ '\\' := by
      rintro rfl
      exact absurd hfind (by decide)
    by_cases hplain : 32 ≤ c.toNat ∧ c.toNat < 127
    · rw [if_pos hplain]
      exact readChar_plain rest hno
    · rw [if_neg hplain]
      by_cases hbmp : c.toNat < 65536
      · rw [if_pos hbmp, readChar_hex rest hbmp (by omega), Char.ofNat_toNat]
      · have hvalue : 65536 + (55296 + (c.toNat - 65536) / 1024 - 55296) * 1024 +
            (56320 + (c.toNat - 65536) % 1024 - 56320) = c.toNat := by omega
        rw [if_neg hbmp, List.append_assoc, readChar_pair rest (by omega) (by omega), hvalue,
          Char.ofNat_toNat]

/-- No escape looks like the end of a text. -/
theorem escape_head (c : Char) : ∃ x t, escape c = x :: t ∧ x ≠ '"' := by
  unfold escape
  cases hfind : shortEscapes.find? fun e => e.1 = c with
  | some e => exact ⟨'\\', [e.2], rfl, by decide⟩
  | none =>
    dsimp only
    by_cases hplain : 32 ≤ c.toNat ∧ c.toNat < 127
    · rw [if_pos hplain]
      refine ⟨c, [], rfl, ?_⟩
      rintro rfl
      exact absurd hfind (by decide)
    · rw [if_neg hplain]
      by_cases hbmp : c.toNat < 65536
      · rw [if_pos hbmp]
        exact ⟨'\\', _, rfl, by decide⟩
      · rw [if_neg hbmp]
        exact ⟨'\\', _, rfl, by decide⟩

theorem escaped_append_inj {r r' : List Char} : ∀ {a b : List Char},
    a.flatMap escape ++ '"' :: r = b.flatMap escape ++ '"' :: r' → a = b ∧ r = r' := by
  intro a
  induction a with
  | nil =>
    intro b h
    cases b with
    | nil => exact ⟨rfl, (List.cons.inj h).2⟩
    | cons d b =>
      obtain ⟨x, t, hx, hne⟩ := escape_head d
      rw [List.flatMap_cons, hx] at h
      exact absurd (List.cons.inj h).1.symm hne
  | cons c a ih =>
    intro b h
    cases b with
    | nil =>
      obtain ⟨x, t, hx, hne⟩ := escape_head c
      rw [List.flatMap_cons, hx] at h
      exact absurd (List.cons.inj h).1 hne
    | cons d b =>
      rw [List.flatMap_cons, List.flatMap_cons, List.append_assoc, List.append_assoc] at h
      have hread := congrArg readChar h
      rw [readChar_escape, readChar_escape] at hread
      obtain ⟨rfl, hrest⟩ := Prod.mk.inj (Option.some.inj hread)
      obtain ⟨rfl, hr⟩ := ih hrest
      exact ⟨rfl, hr⟩

/-- A quoted text can be told from what follows it. -/
theorem quote_append_inj {s t : String} {r r' : List Char} (h : quote s ++ r = quote t ++ r') :
    s = t ∧ r = r' := by
  have hbody : s.toList.flatMap escape ++ '"' :: r = t.toList.flatMap escape ++ '"' :: r' := by
    have htail : (s.toList.flatMap escape ++ ['"']) ++ r = (t.toList.flatMap escape ++ ['"']) ++ r' :=
      (List.cons.inj h).2
    rwa [List.append_assoc, List.append_assoc] at htail
  obtain ⟨hlist, hr⟩ := escaped_append_inj hbody
  exact ⟨String.toList_injective hlist, hr⟩

/-! ## Numbers -/

/-- The characters of a number. -/
def isNumberChar (c : Char) : Bool := c.isDigit || c ∈ ['-', '+', '.', 'e']

/-- `int.__repr__`. -/
def intText (n : Int) : List Char :=
  if n < 0 then '-' :: Nat.toDigits 10 n.natAbs else Nat.toDigits 10 n.natAbs

/-- `float.__repr__` of the finite floats, as it is documented: a float is read back from its text,
    and the text has a point or an exponent.  Floats are the same if their texts are, so that the
    two zeros are two floats. -/
structure FloatText (φ : Type) where
  repr : φ → List Char
  injective : Function.Injective repr
  chars : ∀ x, ∀ c ∈ repr x, isNumberChar c = true
  pointed : ∀ x, ∃ c ∈ repr x, c = '.' ∨ c = 'e'

theorem intText_injective : Function.Injective intText := by
  have hdigits (m n : Nat) (h : Nat.toDigits 10 m = Nat.toDigits 10 n) : m = n := by
    rw [← Nat.ofDigitChars_ten_toDigits (n := m), ← Nat.ofDigitChars_ten_toDigits (n := n), h]
  have hsign (m n : Nat) : '-' :: Nat.toDigits 10 m ≠ Nat.toDigits 10 n := by
    intro h
    have hin : '-' ∈ Nat.toDigits 10 n := h ▸ List.mem_cons_self
    have hdigit := Nat.isDigit_of_mem_toDigits (by decide) (by decide) hin
    exact absurd hdigit (by decide)
  intro m n h
  unfold intText at h
  split at h
  · split at h
    · have habs := hdigits _ _ (List.cons.inj h).2
      omega
    · exact absurd h (hsign _ _)
  · split at h
    · exact absurd h.symm (hsign _ _)
    · have habs := hdigits _ _ h
      omega

theorem intText_chars (n : Int) : ∀ c ∈ intText n, c.isDigit = true ∨ c = '-' := by
  intro c hc
  unfold intText at hc
  split at hc
  · rcases List.mem_cons.mp hc with rfl | hc
    · exact Or.inr rfl
    · exact Or.inl (Nat.isDigit_of_mem_toDigits (by decide) (by decide) hc)
  · exact Or.inl (Nat.isDigit_of_mem_toDigits (by decide) (by decide) hc)

/-- What follows a value: nothing, or something that does not go on with a number. -/
def Ends (rest : List Char) : Prop := ∀ c ∈ rest.head?, isNumberChar c = false

theorem takeWhile_number {a r : List Char} (ha : ∀ c ∈ a, isNumberChar c = true) (hr : Ends r) :
    (a ++ r).takeWhile isNumberChar = a := by
  rw [List.takeWhile_append_of_pos ha]
  cases r with
  | nil => exact List.append_nil a
  | cons x r =>
    rw [List.takeWhile_cons_of_neg (by simpa using hr x rfl)]
    exact List.append_nil a

/-- A number can be told from what follows it. -/
theorem number_append_inj {a b r r' : List Char} (ha : ∀ c ∈ a, isNumberChar c = true)
    (hb : ∀ c ∈ b, isNumberChar c = true) (hr : Ends r) (hr' : Ends r')
    (h : a ++ r = b ++ r') : a = b ∧ r = r' := by
  have hsame : a = b := by
    rw [← takeWhile_number ha hr, ← takeWhile_number hb hr', h]
  subst hsame
  exact ⟨rfl, List.append_cancel_left h⟩

/-! ## Values -/

inductive Value (φ : Type) where
  | null
  | bool (b : Bool)
  | int (n : Int)
  | float (x : φ)
  | text (s : String)
  | array (values : List (Value φ))
  | object (entries : List (String × Value φ))

section Values

variable {φ : Type}

/-- Induction over the elements of arrays and the members of objects. -/
theorem Value.induction {motive : Value φ → Prop} (null : motive .null)
    (bool : ∀ b, motive (.bool b)) (int : ∀ n, motive (.int n)) (float : ∀ x, motive (.float x))
    (text : ∀ s, motive (.text s))
    (array : ∀ values, (∀ v ∈ values, motive v) → motive (.array values))
    (object : ∀ entries : List (String × Value φ), (∀ e ∈ entries, motive e.2) →
      motive (.object entries)) (v : Value φ) : motive v := by
  refine @Value.rec φ motive (fun values => ∀ v ∈ values, motive v)
    (fun entries => ∀ e ∈ entries, motive e.2) (fun e => motive e.2)
    null bool int float text array object ?_ ?_ ?_ ?_ ?_ v
  · exact fun v hv => absurd hv List.not_mem_nil
  · intro v rest hv hrest w hw
    rcases List.mem_cons.mp hw with rfl | hw
    · exact hv
    · exact hrest w hw
  · exact fun e he => absurd he List.not_mem_nil
  · intro e rest he hrest f hf
    rcases List.mem_cons.mp hf with rfl | hf
    · exact he
    · exact hrest f hf
  · exact fun _ _ h => h

mutual

/-- The text of a value, with its entries in the order they have. -/
def write (F : FloatText φ) : Value φ → List Char
  | .null => ['n', 'u', 'l', 'l']
  | .bool true => ['t', 'r', 'u', 'e']
  | .bool false => ['f', 'a', 'l', 's', 'e']
  | .int n => intText n
  | .float x => F.repr x
  | .text s => quote s
  | .array [] => ['[', ']']
  | .array (v :: rest) => '[' :: (write F v ++ writeElements F rest)
  | .object [] => ['{', '}']
  | .object ((key, v) :: rest) => '{' :: (quote key ++ ':' :: (write F v ++ writeEntries F rest))

/-- The further elements of an array. -/
def writeElements (F : FloatText φ) : List (Value φ) → List Char
  | [] => [']']
  | v :: rest => ',' :: (write F v ++ writeElements F rest)

/-- The further entries of an object. -/
def writeEntries (F : FloatText φ) : List (String × Value φ) → List Char
  | [] => ['}']
  | (key, v) :: rest => ',' :: (quote key ++ ':' :: (write F v ++ writeEntries F rest))

end

/-! ## A text determines its value -/

/-- What a text begins with tells the kind of its value. -/
def charKind (c : Char) : Nat :=
  if isNumberChar c then 0
  else if c = 'n' then 1
  else if c = 't' then 2
  else if c = 'f' then 3
  else if c = '"' then 4
  else if c = '[' then 5
  else if c = '{' then 6
  else 7

def Value.kind : Value φ → Nat
  | .null => 1
  | .bool true => 2
  | .bool false => 3
  | .int _ => 0
  | .float _ => 0
  | .text _ => 4
  | .array _ => 5
  | .object _ => 6

variable {F : FloatText φ}

theorem intText_isNumber (n : Int) : ∀ c ∈ intText n, isNumberChar c = true := by
  intro c hc
  unfold isNumberChar
  rcases intText_chars n c hc with h | rfl
  · rw [h, Bool.true_or]
  · decide

theorem intText_ne_nil (n : Int) : intText n ≠ [] := by
  unfold intText
  split
  · exact List.cons_ne_nil _ _
  · exact Nat.toDigits_ne_nil

theorem floatText_ne_nil (x : φ) : F.repr x ≠ [] := by
  obtain ⟨c, hc, -⟩ := F.pointed x
  exact List.ne_nil_of_mem hc

/-- An integer has neither a point nor an exponent. -/
theorem intText_ne_floatText (n : Int) (x : φ) : intText n ≠ F.repr x := by
  intro h
  obtain ⟨c, hc, hpoint⟩ := F.pointed x
  rw [← h] at hc
  rcases intText_chars n c hc with hdigit | rfl
  · rcases hpoint with rfl | rfl
    · exact absurd hdigit (by decide)
    · exact absurd hdigit (by decide)
  · rcases hpoint with h | h
    · exact absurd h (by decide)
    · exact absurd h (by decide)

theorem head_number {t : List Char} (hne : t ≠ []) (h : ∀ c ∈ t, isNumberChar c = true) :
    ∃ c rest, t = c :: rest ∧ charKind c = 0 := by
  obtain ⟨c, rest, rfl⟩ := List.exists_cons_of_ne_nil hne
  exact ⟨c, rest, rfl, if_pos (h c List.mem_cons_self)⟩

theorem write_head (v : Value φ) : ∃ c rest, write F v = c :: rest ∧ charKind c = v.kind := by
  cases v with
  | null => exact ⟨'n', _, rfl, rfl⟩
  | bool b =>
    cases b with
    | true => exact ⟨'t', _, rfl, rfl⟩
    | false => exact ⟨'f', _, rfl, rfl⟩
  | int n => exact head_number (intText_ne_nil n) (intText_isNumber n)
  | float x => exact head_number (floatText_ne_nil x) (F.chars x)
  | text s => exact ⟨'"', _, rfl, rfl⟩
  | array values =>
    cases values with
    | nil => exact ⟨'[', _, rfl, rfl⟩
    | cons v rest => exact ⟨'[', _, rfl, rfl⟩
  | object entries =>
    cases entries with
    | nil => exact ⟨'{', _, rfl, rfl⟩
    | cons e rest => exact ⟨'{', _, rfl, rfl⟩

/-- No value begins with a character that closes an array or an object. -/
theorem write_ne_close {close : Char} (hclose : charKind close = 7) (v : Value φ)
    (r r' : List Char) : write F v ++ r ≠ close :: r' := by
  intro h
  obtain ⟨c, t, hc, hkind⟩ := write_head (F := F) v
  rw [hc] at h
  rw [(List.cons.inj h).1, hclose] at hkind
  cases v with
  | bool b => cases b <;> cases hkind
  | _ => cases hkind

/-- Values whose texts begin alike are of one kind. -/
theorem kind_eq_of_write {v w : Value φ} {r r' : List Char} (h : write F v ++ r = write F w ++ r') :
    v.kind = w.kind := by
  obtain ⟨c, t, hc, hkind⟩ := write_head (F := F) v
  obtain ⟨d, t', hd, hkind'⟩ := write_head (F := F) w
  rw [hc, hd] at h
  rw [← hkind, ← hkind', (List.cons.inj h).1]

theorem ends_writeElements (rest : List (Value φ)) (r : List Char) :
    Ends (writeElements F rest ++ r) := by
  cases rest with
  | nil =>
    rintro c ⟨⟩
    decide
  | cons v rest =>
    rintro c ⟨⟩
    decide

theorem ends_writeEntries (rest : List (String × Value φ)) (r : List Char) :
    Ends (writeEntries F rest ++ r) := by
  cases rest with
  | nil =>
    rintro c ⟨⟩
    decide
  | cons e rest =>
    rintro c ⟨⟩
    decide

/-- A value can be told from what follows it. -/
def Told (F : FloatText φ) (v : Value φ) : Prop :=
  ∀ w r r', Ends r → Ends r' → write F v ++ r = write F w ++ r' → v = w ∧ r = r'

theorem writeElements_append_inj {r r' : List Char} :
    ∀ {vs ws : List (Value φ)}, (∀ v ∈ vs, Told F v) →
      writeElements F vs ++ r = writeElements F ws ++ r' → vs = ws ∧ r = r' := by
  intro vs
  induction vs with
  | nil =>
    intro ws _ h
    cases ws with
    | nil => exact ⟨rfl, (List.cons.inj h).2⟩
    | cons w ws => exact absurd (List.cons.inj h).1 (by decide)
  | cons v vs ih =>
    intro ws hall h
    cases ws with
    | nil => exact absurd (List.cons.inj h).1 (by decide)
    | cons w ws =>
      have htail : (write F v ++ writeElements F vs) ++ r = (write F w ++ writeElements F ws) ++ r' :=
        (List.cons.inj h).2
      rw [List.append_assoc, List.append_assoc] at htail
      obtain ⟨rfl, hrest⟩ := hall v List.mem_cons_self w _ _ (ends_writeElements vs r)
        (ends_writeElements ws r') htail
      obtain ⟨rfl, hr⟩ := ih (fun x hx => hall x (List.mem_cons_of_mem v hx)) hrest
      exact ⟨rfl, hr⟩

/-- One entry can be told from what follows it. -/
theorem entry_append_inj {key key' : String} {v w : Value φ} {es fs : List (String × Value φ)}
    {r r' : List Char} (hv : Told F v)
    (h : (quote key ++ ':' :: (write F v ++ writeEntries F es)) ++ r =
      (quote key' ++ ':' :: (write F w ++ writeEntries F fs)) ++ r') :
    key = key' ∧ v = w ∧ writeEntries F es ++ r = writeEntries F fs ++ r' := by
  rw [List.append_assoc, List.append_assoc] at h
  obtain ⟨hkey, htail⟩ := quote_append_inj h
  have hvalue : (write F v ++ writeEntries F es) ++ r = (write F w ++ writeEntries F fs) ++ r' :=
    (List.cons.inj htail).2
  rw [List.append_assoc, List.append_assoc] at hvalue
  exact ⟨hkey, hv w _ _ (ends_writeEntries es r) (ends_writeEntries fs r') hvalue⟩

theorem writeEntries_append_inj {r r' : List Char} :
    ∀ {es fs : List (String × Value φ)}, (∀ e ∈ es, Told F e.2) →
      writeEntries F es ++ r = writeEntries F fs ++ r' → es = fs ∧ r = r' := by
  intro es
  induction es with
  | nil =>
    intro fs _ h
    cases fs with
    | nil => exact ⟨rfl, (List.cons.inj h).2⟩
    | cons f fs => exact absurd (List.cons.inj h).1 (by decide)
  | cons e es ih =>
    intro fs hall h
    cases fs with
    | nil => exact absurd (List.cons.inj h).1 (by decide)
    | cons f fs =>
      obtain ⟨key, v⟩ := e
      obtain ⟨key', w⟩ := f
      obtain ⟨rfl, rfl, hrest⟩ := entry_append_inj (hall _ List.mem_cons_self) (List.cons.inj h).2
      obtain ⟨rfl, hr⟩ := ih (fun x hx => hall x (List.mem_cons_of_mem _ hx)) hrest
      exact ⟨rfl, hr⟩

theorem told_array {values : List (Value φ)} (ih : ∀ v ∈ values, Told F v) :
    Told F (.array values) := by
  intro w r r' hr hr' h
  have hkind := kind_eq_of_write h
  cases w with
  | array ws =>
    cases values with
    | nil =>
      cases ws with
      | nil => exact ⟨rfl, (List.cons.inj (List.cons.inj h).2).2⟩
      | cons w ws =>
        have htail : ']' :: r = (write F w ++ writeElements F ws) ++ r' := (List.cons.inj h).2
        rw [List.append_assoc] at htail
        exact absurd htail.symm (write_ne_close (by decide) w _ _)
    | cons v vs =>
      cases ws with
      | nil =>
        have htail : (write F v ++ writeElements F vs) ++ r = ']' :: r' := (List.cons.inj h).2
        rw [List.append_assoc] at htail
        exact absurd htail (write_ne_close (by decide) v _ _)
      | cons w ws =>
        have hcomma : writeElements F (v :: vs) ++ r = writeElements F (w :: ws) ++ r' :=
          congrArg (',' :: ·) (List.cons.inj h).2
        obtain ⟨hsame, hrest⟩ := writeElements_append_inj ih hcomma
        exact ⟨congrArg Value.array hsame, hrest⟩
  | bool b => cases b <;> cases hkind
  | _ => cases hkind

theorem told_object {entries : List (String × Value φ)} (ih : ∀ e ∈ entries, Told F e.2) :
    Told F (.object entries) := by
  intro w r r' hr hr' h
  have hkind := kind_eq_of_write h
  cases w with
  | object fs =>
    cases entries with
    | nil =>
      cases fs with
      | nil => exact ⟨rfl, (List.cons.inj (List.cons.inj h).2).2⟩
      | cons f fs => exact absurd (List.cons.inj (List.cons.inj h).2).1 (by decide)
    | cons e es =>
      cases fs with
      | nil => exact absurd (List.cons.inj (List.cons.inj h).2).1 (by decide)
      | cons f fs =>
        have hcomma : writeEntries F (e :: es) ++ r = writeEntries F (f :: fs) ++ r' :=
          congrArg (',' :: ·) (List.cons.inj h).2
        obtain ⟨hsame, hrest⟩ := writeEntries_append_inj ih hcomma
        exact ⟨congrArg Value.object hsame, hrest⟩
  | bool b => cases b <;> cases hkind
  | _ => cases hkind

/-- **A value can be told from what follows it.** -/
theorem write_append_inj (v : Value φ) : Told F v := by
  induction v using Value.induction with
  | array values ih => exact told_array ih
  | object entries ih => exact told_object ih
  | null =>
    intro w r r' hr hr' h
    have hkind := kind_eq_of_write h
    cases w with
    | null => exact ⟨rfl, List.append_cancel_left h⟩
    | bool b => cases b <;> cases hkind
    | _ => cases hkind
  | bool b =>
    intro w r r' hr hr' h
    have hkind := kind_eq_of_write h
    cases w with
    | bool b' =>
      have hsame : b = b' := by
        cases b <;> cases b' <;> first | rfl | cases hkind
      subst hsame
      exact ⟨rfl, List.append_cancel_left h⟩
    | _ => cases b <;> cases hkind
  | int n =>
    intro w r r' hr hr' h
    have hkind := kind_eq_of_write h
    cases w with
    | int m =>
      obtain ⟨htext, hrest⟩ :=
        number_append_inj (intText_isNumber n) (intText_isNumber m) hr hr' h
      exact ⟨congrArg Value.int (intText_injective htext), hrest⟩
    | float x =>
      obtain ⟨htext, -⟩ := number_append_inj (intText_isNumber n) (F.chars x) hr hr' h
      exact absurd htext (intText_ne_floatText n x)
    | bool b => cases b <;> cases hkind
    | _ => cases hkind
  | float x =>
    intro w r r' hr hr' h
    have hkind := kind_eq_of_write h
    cases w with
    | int m =>
      obtain ⟨htext, -⟩ := number_append_inj (F.chars x) (intText_isNumber m) hr hr' h
      exact absurd htext.symm (intText_ne_floatText m x)
    | float y =>
      obtain ⟨htext, hrest⟩ := number_append_inj (F.chars x) (F.chars y) hr hr' h
      exact ⟨congrArg Value.float (F.injective htext), hrest⟩
    | bool b => cases b <;> cases hkind
    | _ => cases hkind
  | text s =>
    intro w r r' hr hr' h
    have hkind := kind_eq_of_write h
    cases w with
    | text t =>
      obtain ⟨hsame, hrest⟩ := quote_append_inj h
      exact ⟨congrArg Value.text hsame, hrest⟩
    | bool b => cases b <;> cases hkind
    | _ => cases hkind

theorem write_injective : Function.Injective (write F) := by
  intro v w h
  have hends : Ends [] := fun c hc => nomatch hc
  refine (write_append_inj (F := F) v w [] [] hends hends ?_).1
  rw [List.append_nil, List.append_nil, h]

/-! ## Sorting the keys -/

mutual

/-- The value with the keys of all its objects in order. -/
def canonical : Value φ → Value φ
  | .array values => .array (canonicalElements values)
  | .object entries => .object (Vad.sortedItems (canonicalEntries entries))
  | .null => .null
  | .bool b => .bool b
  | .int n => .int n
  | .float x => .float x
  | .text s => .text s

def canonicalElements : List (Value φ) → List (Value φ)
  | [] => []
  | v :: rest => canonical v :: canonicalElements rest

def canonicalEntries : List (String × Value φ) → List (String × Value φ)
  | [] => []
  | (key, v) :: rest => (key, canonical v) :: canonicalEntries rest

end

/-- `json.dumps(value, sort_keys=True, separators=(",", ":"))`. -/
def dumps (F : FloatText φ) (v : Value φ) : List Char := write F (canonical v)

/-- No object in the value has a key twice, as no `dict` has. -/
inductive Value.WellFormed : Value φ → Prop
  | null : WellFormed .null
  | bool (b : Bool) : WellFormed (.bool b)
  | int (n : Int) : WellFormed (.int n)
  | float (x : φ) : WellFormed (.float x)
  | text (s : String) : WellFormed (.text s)
  | array {values : List (Value φ)} (h : ∀ v ∈ values, WellFormed v) : WellFormed (.array values)
  | object {entries : List (String × Value φ)} (hkeys : Vad.Dict.KeysNodup entries)
      (h : ∀ e ∈ entries, WellFormed e.2) : WellFormed (.object entries)

theorem Value.WellFormed.elements {values : List (Value φ)} (h : (Value.array values).WellFormed) :
    ∀ v ∈ values, v.WellFormed := by
  cases h with
  | array h => exact h

theorem Value.WellFormed.entries {entries : List (String × Value φ)}
    (h : (Value.object entries).WellFormed) :
    Vad.Dict.KeysNodup entries ∧ ∀ e ∈ entries, e.2.WellFormed := by
  cases h with
  | object hkeys h => exact ⟨hkeys, h⟩

/-- The same value up to the order of keys: arrays agree at every index, objects at every key. -/
inductive Value.Same : Value φ → Value φ → Prop
  | null : Same .null .null
  | bool (b : Bool) : Same (.bool b) (.bool b)
  | int (n : Int) : Same (.int n) (.int n)
  | float (x : φ) : Same (.float x) (.float x)
  | text (s : String) : Same (.text s) (.text s)
  | array {vs ws : List (Value φ)} (hlength : vs.length = ws.length)
      (h : ∀ (i : Nat) v w, vs[i]? = some v → ws[i]? = some w → Same v w) :
      Same (.array vs) (.array ws)
  | object {es fs : List (String × Value φ)}
      (hkeys : ∀ key, key ∈ es.map Prod.fst ↔ key ∈ fs.map Prod.fst)
      (h : ∀ key v w, (key, v) ∈ es → (key, w) ∈ fs → Same v w) : Same (.object es) (.object fs)

theorem canonicalElements_eq (values : List (Value φ)) :
    canonicalElements values = values.map canonical := by
  induction values with
  | nil => rfl
  | cons v rest ih => exact congrArg (canonical v :: ·) ih

theorem canonicalEntries_eq (entries : List (String × Value φ)) :
    canonicalEntries entries = entries.map fun e => (e.1, canonical e.2) := by
  induction entries with
  | nil => rfl
  | cons e rest ih => exact congrArg ((e.1, canonical e.2) :: ·) ih

/-- The entries with their values in canonical form keep the keys. -/
theorem keysNodup_canonicalEntries {entries : List (String × Value φ)}
    (h : Vad.Dict.KeysNodup entries) : Vad.Dict.KeysNodup (canonicalEntries entries) := by
  rw [canonicalEntries_eq]
  unfold Vad.Dict.KeysNodup
  rw [List.map_map]
  exact h

theorem mem_canonicalEntries {entries : List (String × Value φ)} {key : String} {x : Value φ} :
    (key, x) ∈ canonicalEntries entries ↔ ∃ v, (key, v) ∈ entries ∧ canonical v = x := by
  rw [canonicalEntries_eq, List.mem_map]
  constructor
  · rintro ⟨e, he, heq⟩
    obtain ⟨rfl, rfl⟩ := Prod.mk.inj heq
    exact ⟨e.2, he, rfl⟩
  · rintro ⟨v, hv, rfl⟩
    exact ⟨(key, v), hv, rfl⟩

/-- Where no key has two entries, a key has one value. -/
theorem value_unique {entries : List (String × Value φ)} (h : Vad.Dict.KeysNodup entries)
    {key : String} {v w : Value φ} (hv : (key, v) ∈ entries) (hw : (key, w) ∈ entries) : v = w := by
  have hsame : (key, v) = (key, w) := List.inj_on_of_nodup_map h hv hw rfl
  exact (Prod.mk.inj hsame).2

/-- Sorting the keys makes the same values equal. -/
theorem canonical_eq_of_same {v w : Value φ} (h : v.Same w) :
    v.WellFormed → w.WellFormed → canonical v = canonical w := by
  induction h with
  | null => exact fun _ _ => rfl
  | bool b => exact fun _ _ => rfl
  | int n => exact fun _ _ => rfl
  | float x => exact fun _ _ => rfl
  | text s => exact fun _ _ => rfl
  | @array vs ws hlength _ ih =>
    intro hv hw
    show Value.array (canonicalElements vs) = Value.array (canonicalElements ws)
    rw [canonicalElements_eq, canonicalElements_eq]
    refine congrArg Value.array (List.ext_getElem ?_ fun i hi hi' => ?_)
    · rw [List.length_map, List.length_map, hlength]
    · rw [List.getElem_map, List.getElem_map]
      rw [List.length_map] at hi hi'
      exact ih i vs[i] ws[i] (List.getElem?_eq_getElem hi) (List.getElem?_eq_getElem hi')
        (hv.elements _ (List.getElem_mem hi)) (hw.elements _ (List.getElem_mem hi'))
  | @object es fs hkeys _ ih =>
    intro hv hw
    obtain ⟨hes, hev⟩ := hv.entries
    obtain ⟨hfs, hfv⟩ := hw.entries
    show Value.object (Vad.sortedItems (canonicalEntries es)) =
      Value.object (Vad.sortedItems (canonicalEntries fs))
    have hes' := keysNodup_canonicalEntries hes
    have hfs' := keysNodup_canonicalEntries hfs
    refine congrArg Value.object (Vad.sortedItems_eq_of_perm hes' ?_)
    refine (List.perm_ext_iff_of_nodup (List.Nodup.of_map _ hes') (List.Nodup.of_map _ hfs')).mpr ?_
    rintro ⟨key, x⟩
    rw [mem_canonicalEntries, mem_canonicalEntries]
    constructor
    · rintro ⟨v, hv, rfl⟩
      obtain ⟨f, hf, rfl⟩ := List.mem_map.mp ((hkeys key).mp (List.mem_map.mpr ⟨_, hv, rfl⟩))
      exact ⟨f.2, hf, (ih f.1 v f.2 hv hf (hev _ hv) (hfv f hf)).symm⟩
    · rintro ⟨w, hw, rfl⟩
      obtain ⟨e, he, rfl⟩ := List.mem_map.mp ((hkeys key).mpr (List.mem_map.mpr ⟨_, hw, rfl⟩))
      exact ⟨e.2, he, ih e.1 e.2 w he hw (hev e he) (hfv _ hw)⟩

theorem same_of_canonical_eq {v w : Value φ} (hv : v.WellFormed) (hw : w.WellFormed)
    (h : canonical v = canonical w) : v.Same w := by
  induction v using Value.induction generalizing w with
  | array vs ih =>
    cases w with
    | array ws =>
      have hmap : canonicalElements vs = canonicalElements ws := Value.array.inj h
      rw [canonicalElements_eq, canonicalElements_eq] at hmap
      refine .array ?_ fun i x y hx hy => ?_
      · have hlength := congrArg List.length hmap
        rwa [List.length_map, List.length_map] at hlength
      · have hget := congrArg (·[i]?) hmap
        simp only [List.getElem?_map, hx, hy, Option.map_some, Option.some.injEq] at hget
        have hx' := List.mem_of_getElem? hx
        have hy' := List.mem_of_getElem? hy
        exact ih x hx' (hv.elements x hx') (hw.elements y hy') hget
    | _ => cases h
  | object es ih =>
    cases w with
    | object fs =>
      obtain ⟨hes, hev⟩ := hv.entries
      obtain ⟨hfs, hfv⟩ := hw.entries
      have hsorted : Vad.sortedItems (canonicalEntries es) = Vad.sortedItems (canonicalEntries fs) :=
        Value.object.inj h
      have hmem (key : String) (x : Value φ) : (∃ v, (key, v) ∈ es ∧ canonical v = x) ↔
          ∃ w, (key, w) ∈ fs ∧ canonical w = x := by
        rw [← mem_canonicalEntries, ← mem_canonicalEntries, ← Vad.mem_sortedItems, hsorted,
          Vad.mem_sortedItems]
      refine .object (fun key => ⟨fun hin => ?_, fun hin => ?_⟩) fun key x y hx hy => ?_
      · obtain ⟨e, he, rfl⟩ := List.mem_map.mp hin
        obtain ⟨w, hw, -⟩ := (hmem e.1 _).mp ⟨e.2, he, rfl⟩
        exact List.mem_map.mpr ⟨_, hw, rfl⟩
      · obtain ⟨f, hf, rfl⟩ := List.mem_map.mp hin
        obtain ⟨v, hv, -⟩ := (hmem f.1 _).mpr ⟨f.2, hf, rfl⟩
        exact List.mem_map.mpr ⟨_, hv, rfl⟩
      · obtain ⟨w, hw, hcanonical⟩ := (hmem key _).mp ⟨x, hx, rfl⟩
        rw [value_unique hfs hw hy] at hcanonical
        exact ih _ hx (hev _ hx) (hfv _ hy) hcanonical.symm
    | _ => cases h
  | null =>
    cases w with
    | null => exact .null
    | _ => cases h
  | bool b =>
    cases w with
    | bool b' => exact Value.bool.inj h ▸ .bool b
    | _ => cases h
  | int n =>
    cases w with
    | int m => exact Value.int.inj h ▸ .int n
    | _ => cases h
  | float x =>
    cases w with
    | float y => exact Value.float.inj h ▸ .float x
    | _ => cases h
  | text s =>
    cases w with
    | text t => exact Value.text.inj h ▸ .text s
    | _ => cases h

/-- Sorting the keys makes the same values equal, and no others. -/
theorem canonical_eq_iff {v w : Value φ} (hv : v.WellFormed) (hw : w.WellFormed) :
    canonical v = canonical w ↔ v.Same w :=
  ⟨same_of_canonical_eq hv hw, fun h => canonical_eq_of_same h hv hw⟩

/-- **The text decides** whether two values are the same up to the order of keys. -/
theorem dumps_eq_iff {v w : Value φ} (hv : v.WellFormed) (hw : w.WellFormed) :
    dumps F v = dumps F w ↔ v.Same w := by
  rw [← canonical_eq_iff hv hw]
  exact write_injective.eq_iff

/-! ## The same value, part by part -/

theorem same_text_iff {s t : String} : (Value.text s : Value φ).Same (.text t) ↔ s = t := by
  constructor
  · intro h
    cases h with
    | text => rfl
  · rintro rfl
    exact .text s

theorem same_int_iff {m n : Int} : (Value.int m : Value φ).Same (.int n) ↔ m = n := by
  constructor
  · intro h
    cases h with
    | int => rfl
  · rintro rfl
    exact .int m

theorem same_bool_iff {a b : Bool} : (Value.bool a : Value φ).Same (.bool b) ↔ a = b := by
  constructor
  · intro h
    cases h with
    | bool => rfl
  · rintro rfl
    exact .bool a

theorem same_array_iff {vs ws : List (Value φ)} :
    (Value.array vs).Same (.array ws) ↔ List.Forall₂ Value.Same vs ws := by
  constructor
  · intro h
    cases h with
    | array hlength h =>
      refine List.forall₂_iff_get.mpr ⟨hlength, fun i hi hi' => ?_⟩
      exact h i _ _ (List.getElem?_eq_getElem hi) (List.getElem?_eq_getElem hi')
  · intro h
    refine .array h.length_eq fun i v w hv hw => ?_
    obtain ⟨hi, rfl⟩ := List.getElem?_eq_some_iff.mp hv
    obtain ⟨hi', rfl⟩ := List.getElem?_eq_some_iff.mp hw
    exact (List.forall₂_iff_get.mp h).2 i hi hi'

/-- Arrays that are written element by element. -/
theorem same_array_map_iff {α : Type} {write : α → Value φ} {as bs : List α} :
    (Value.array (as.map write)).Same (.array (bs.map write)) ↔
      List.Forall₂ (fun a b => (write a).Same (write b)) as bs := by
  rw [same_array_iff, List.forall₂_map_left_iff, List.forall₂_map_right_iff]

/-- Objects with the same keys in the same order, such as the dumps of one model. -/
theorem same_object_iff {es fs : List (String × Value φ)} (hkeys : es.map Prod.fst = fs.map Prod.fst)
    (hnodup : (es.map Prod.fst).Nodup) :
    (Value.object es).Same (.object fs) ↔
      List.Forall₂ (fun e f : String × Value φ => e.2.Same f.2) es fs := by
  have hlength : es.length = fs.length := by
    have h := congrArg List.length hkeys
    rwa [List.length_map, List.length_map] at h
  have hkey (i : Nat) (hi : i < es.length) (hi' : i < fs.length) : es[i].1 = fs[i].1 := by
    have h := congrArg (·[i]?) hkeys
    simpa [hi, hi'] using h
  constructor
  · intro h
    cases h with
    | object _ h =>
      refine List.forall₂_iff_get.mpr ⟨hlength, fun i hi hi' => ?_⟩
      refine h es[i].1 _ _ (List.getElem_mem hi) ?_
      rw [hkey i hi hi']
      exact List.getElem_mem hi'
  · intro h
    refine .object (fun key => by rw [hkeys]) fun key v w hv hw => ?_
    obtain ⟨i, hi, hes⟩ := List.getElem_of_mem hv
    have hi' : i < fs.length := hlength ▸ hi
    have hsame := (List.forall₂_iff_get.mp h).2 i hi hi'
    have hfs : (key, fs[i].2) ∈ fs := by
      have heq : fs[i] = (key, fs[i].2) := Prod.ext ((hkey i hi hi').symm.trans (by rw [hes])) rfl
      exact heq ▸ List.getElem_mem hi'
    have hnodup' : Vad.Dict.KeysNodup fs := by
      unfold Vad.Dict.KeysNodup
      rwa [← hkeys]
    have hw' : fs[i].2 = w := value_unique hnodup' hfs hw
    have hv' : es[i].2 = v := by rw [hes]
    exact hv' ▸ hw' ▸ hsame

/-- Sorting the keys leaves no key twice either. -/
theorem wellFormed_canonical {v : Value φ} (h : v.WellFormed) : (canonical v).WellFormed := by
  induction h with
  | null => exact .null
  | bool b => exact .bool b
  | int n => exact .int n
  | float x => exact .float x
  | text s => exact .text s
  | @array values _ ih =>
    refine .array fun v hv => ?_
    rw [canonicalElements_eq] at hv
    obtain ⟨w, hw, rfl⟩ := List.mem_map.mp hv
    exact ih w hw
  | @object entries hkeys _ ih =>
    refine .object (Vad.keysNodup_sortedItems (keysNodup_canonicalEntries hkeys)) fun e he => ?_
    obtain ⟨v, hv, hcanonical⟩ := mem_canonicalEntries.mp (Vad.mem_sortedItems.mp he)
    exact hcanonical ▸ ih (e.1, v) hv

/-! ## Values of one form -/

variable {good : String → Prop}

/-- Values of one form, as two dumps of one model are: the same keys in the same order, all of them
    good, and the same kind of value everywhere, where a text may be missing. -/
inductive Value.Alike (good : String → Prop) : Value φ → Value φ → Prop
  | null : Alike good .null .null
  | noText (s : String) : Alike good (.text s) .null
  | newText (s : String) : Alike good .null (.text s)
  | text (s t : String) : Alike good (.text s) (.text t)
  | bool (a b : Bool) : Alike good (.bool a) (.bool b)
  | int (m n : Int) : Alike good (.int m) (.int n)
  | float (x y : φ) : Alike good (.float x) (.float y)
  | array {vs ws : List (Value φ)} (h : ∀ v ∈ vs, ∀ w ∈ ws, Alike good v w) :
      Alike good (.array vs) (.array ws)
  | object {es fs : List (String × Value φ)} (hkeys : es.map Prod.fst = fs.map Prod.fst)
      (hnodup : Vad.Dict.KeysNodup es) (hgood : ∀ key ∈ es.map Prod.fst, good key)
      (h : ∀ key v w, (key, v) ∈ es → (key, w) ∈ fs → Alike good v w) :
      Alike good (.object es) (.object fs)

/-- Objects that are written member by member. -/
theorem alike_object {es fs : List (String × Value φ)} (hnodup : Vad.Dict.KeysNodup es)
    (hgood : ∀ key ∈ es.map Prod.fst, good key)
    (h : List.Forall₂ (fun e f : String × Value φ => e.1 = f.1 ∧ e.2.Alike good f.2) es fs) :
    (Value.object es).Alike good (.object fs) := by
  have hkeys : es.map Prod.fst = fs.map Prod.fst := by
    clear hnodup hgood
    induction h with
    | nil => rfl
    | cons hef _ ih => rw [List.map_cons, List.map_cons, hef.1, ih]
  have hnodup' : Vad.Dict.KeysNodup fs := by
    unfold Vad.Dict.KeysNodup
    rwa [← hkeys]
  refine .object hkeys hnodup hgood fun key v w hv hw => ?_
  obtain ⟨i, hi, hes⟩ := List.getElem_of_mem hv
  have hi' : i < fs.length := h.length_eq ▸ hi
  obtain ⟨hkey, halike⟩ := (List.forall₂_iff_get.mp h).2 i hi hi'
  have hmem : (key, fs[i].2) ∈ fs := by
    have heq : fs[i] = (key, fs[i].2) := Prod.ext (hkey.symm.trans (by simp [hes])) rfl
    exact heq ▸ List.getElem_mem hi'
  have hw' : fs[i].2 = w := value_unique hnodup' hmem hw
  have hv' : es[i].2 = v := by rw [hes]
  exact hv' ▸ hw' ▸ halike

theorem alike_array_map {α : Type} {write : α → Value φ}
    (h : ∀ a b, (write a).Alike good (write b)) (as bs : List α) :
    (Value.array (as.map write)).Alike good (.array (bs.map write)) := by
  refine .array fun v hv w hw => ?_
  obtain ⟨a, -, rfl⟩ := List.mem_map.mp hv
  obtain ⟨b, -, rfl⟩ := List.mem_map.mp hw
  exact h a b

/-- A value has the form of itself only if no object in it has a key twice. -/
theorem Value.Alike.wellFormed {v w : Value φ} (h : v.Alike good w) (heq : v = w) : v.WellFormed := by
  induction h with
  | null => exact .null
  | noText s => exact .text s
  | newText s => exact .null
  | text s t => exact .text s
  | bool a b => exact .bool a
  | int m n => exact .int m
  | float x y => exact .float x
  | array _ ih =>
    cases heq
    exact .array fun v hv => ih v hv v hv rfl
  | object _ hnodup _ _ ih =>
    cases heq
    exact .object hnodup fun e he => ih e.1 e.2 e.2 he he rfl

/-- Values of one form are the same up to the order of keys only if they are equal. -/
theorem Value.Alike.same_iff {v w : Value φ} (h : v.Alike good w) : v.Same w ↔ v = w := by
  constructor
  · intro hsame
    induction h with
    | null => rfl
    | noText s => cases hsame
    | newText s => cases hsame
    | text s t => rw [same_text_iff.mp hsame]
    | bool a b => rw [same_bool_iff.mp hsame]
    | int m n => rw [same_int_iff.mp hsame]
    | float x y =>
      cases hsame
      rfl
    | @array vs ws _ ih =>
      have hboth := same_array_iff.mp hsame
      refine congrArg Value.array (List.ext_get hboth.length_eq fun i hi hi' => ?_)
      exact ih _ (List.get_mem vs ⟨i, hi⟩) _ (List.get_mem ws ⟨i, hi'⟩)
        ((List.forall₂_iff_get.mp hboth).2 i hi hi')
    | @object es fs hkeys hnodup _ _ ih =>
      have hboth := (same_object_iff hkeys hnodup).mp hsame
      refine congrArg Value.object (List.ext_get hboth.length_eq fun i hi hi' => ?_)
      have hkey : (es.get ⟨i, hi⟩).1 = (fs.get ⟨i, hi'⟩).1 := by
        have h := congrArg (·[i]?) hkeys
        simpa [hi, hi'] using h
      refine Prod.ext hkey ?_
      refine ih (es.get ⟨i, hi⟩).1 _ _ (List.get_mem es ⟨i, hi⟩) ?_
        ((List.forall₂_iff_get.mp hboth).2 i hi hi')
      rw [hkey]
      exact List.get_mem fs ⟨i, hi'⟩
  · rintro rfl
    have hwf := h.wellFormed rfl
    exact (canonical_eq_iff hwf hwf).mp rfl

end Values

end CanonicalJson
