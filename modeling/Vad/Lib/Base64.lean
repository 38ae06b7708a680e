/-
  Base64 with padding, in the standard alphabet.

  `encode` takes three bytes at a time and writes four characters, the last ones padding where
  there are fewer bytes; `decode` reads four characters at a time, and gives nothing for a
  character outside the alphabet, padding before the end, or a length that is no multiple of four.
  What was encoded is decoded (`decode_encode`), so different bytes have different texts.
-/
import Mathlib.Data.List.Basic
import Mathlib.Tactic.IntervalCases

namespace Base64

/-- The character of six bits. -/
def digit (n : Nat) : Char :=
  if n < 26 then Char.ofNat (65 + n)
  else if n < 52 then Char.ofNat (71 + n)
  else if n < 62 then Char.ofNat (n - 4)
  else if n = 62 then '+' else '/'

/-- The six bits of a character. -/
def value (c : Char) : Option Nat :=
  let n := c.toNat
  if 65 ≤ n ∧ n < 91 then some (n - 65)
  else if 97 ≤ n ∧ n < 123 then some (n - 71)
  else if 48 ≤ n ∧ n < 58 then some (n + 4)
  else if c = '+' then some 62
  else if c = '/' then some 63
  else none

/-- `base64.b64encode`. -/
def encode : List UInt8 → List Char
  | [] => []
  | [a] =>
    let n := a.toNat * 16
    [digit (n / 64), digit (n % 64), '=', '=']
  | [a, b] =>
    let n := (a.toNat * 256 + b.toNat) * 4
    [digit (n / 4096), digit (n / 64 % 64), digit (n % 64), '=']
  | a :: b :: c :: rest =>
    let n := (a.toNat * 256 + b.toNat) * 256 + c.toNat
    digit (n / 262144) :: digit (n / 4096 % 64) :: digit (n / 64 % 64) :: digit (n % 64) ::
      encode rest

/-- `base64.b64decode(text, validate=True)`. -/
def decode : List Char → Option (List UInt8)
  | [] => some []
  | w :: x :: y :: z :: rest =>
    if z = '=' ∧ rest = [] then
      if y = '=' then do
        let w ← value w
        let x ← value x
        some [UInt8.ofNat ((w * 64 + x) / 16)]
      else do
        let w ← value w
        let x ← value x
        let y ← value y
        let n := ((w * 64 + x) * 64 + y) / 4
        some [UInt8.ofNat (n / 256), UInt8.ofNat (n % 256)]
    else do
      let w ← value w
      let x ← value x
      let y ← value y
      let z ← value z
      let n := ((w * 64 + x) * 64 + y) * 64 + z
      let bytes ← decode rest
      some (UInt8.ofNat (n / 65536) :: UInt8.ofNat (n / 256 % 256) :: UInt8.ofNat (n % 256) ::
        bytes)
  | _ => none

theorem value_digit {n : Nat} (h : n < 64) : value (digit n) = some n := by
  interval_cases n <;> decide

/-- The padding is no character of the alphabet. -/
theorem digit_ne_pad {n : Nat} (h : n < 64) : digit n ≠ '=' := by
  intro hpad
  have hvalue := value_digit h
  rw [hpad] at hvalue
  exact absurd hvalue (by decide +revert)

theorem ofNat_of_eq {n : Nat} {a : UInt8} (h : n = a.toNat) : UInt8.ofNat n = a := by
  rw [h, UInt8.ofNat_toNat]

/-- **What was encoded is decoded.** -/
theorem decode_encode (bytes : List UInt8) : decode (encode bytes) = some bytes := by
  induction bytes using encode.induct with
  | case1 => rfl
  | case2 a =>
    have ha := a.toNat_lt
    unfold encode
    generalize hn : a.toNat * 16 = n
    show (do
      let w ← value (digit (n / 64))
      let x ← value (digit (n % 64))
      some [UInt8.ofNat ((w * 64 + x) / 16)]) = _
    rw [value_digit (by omega), value_digit (by omega)]
    show some [UInt8.ofNat ((n / 64 * 64 + n % 64) / 16)] = _
    rw [ofNat_of_eq (a := a) (by omega)]
  | case3 a b =>
    have ha := a.toNat_lt
    have hb := b.toNat_lt
    unfold encode
    generalize hn : (a.toNat * 256 + b.toNat) * 4 = n
    have hpad : digit (n % 64) ≠ '=' := digit_ne_pad (by omega)
    show (if digit (n % 64) = '=' then _ else do
      let w ← value (digit (n / 4096))
      let x ← value (digit (n / 64 % 64))
      let y ← value (digit (n % 64))
      let m := ((w * 64 + x) * 64 + y) / 4
      some [UInt8.ofNat (m / 256), UInt8.ofNat (m % 256)]) = _
    rw [if_neg hpad, value_digit (by omega), value_digit (by omega), value_digit (by omega)]
    show some [UInt8.ofNat (((n / 4096 * 64 + n / 64 % 64) * 64 + n % 64) / 4 / 256),
      UInt8.ofNat (((n / 4096 * 64 + n / 64 % 64) * 64 + n % 64) / 4 % 256)] = _
    rw [ofNat_of_eq (a := a) (by omega), ofNat_of_eq (a := b) (by omega)]
  | case4 a b c rest ih =>
    have ha := a.toNat_lt
    have hb := b.toNat_lt
    have hc := c.toNat_lt
    unfold encode
    generalize hn : (a.toNat * 256 + b.toNat) * 256 + c.toNat = n
    have hpad : ¬ (digit (n % 64) = '=' ∧ encode rest = []) := fun h =>
      digit_ne_pad (by omega) h.1
    have hsum : ((n / 262144 * 64 + n / 4096 % 64) * 64 + n / 64 % 64) * 64 + n % 64 = n := by omega
    show (if _ then _ else do
      let w ← value (digit (n / 262144))
      let x ← value (digit (n / 4096 % 64))
      let y ← value (digit (n / 64 % 64))
      let z ← value (digit (n % 64))
      let m := ((w * 64 + x) * 64 + y) * 64 + z
      let bytes ← decode (encode rest)
      some (UInt8.ofNat (m / 65536) :: UInt8.ofNat (m / 256 % 256) :: UInt8.ofNat (m % 256) ::
        bytes)) = _
    rw [if_neg hpad, value_digit (by omega), value_digit (by omega), value_digit (by omega),
      value_digit (by omega), ih]
    show some (_ :: _ :: _ :: rest) = _
    rw [hsum, ofNat_of_eq (a := a) (by omega), ofNat_of_eq (a := b) (by omega),
      ofNat_of_eq (a := c) (by omega)]

end Base64
