/-
  The digest of an EIP (`compute_eip_digest` of `vad/proof/plan.py`), by which a plan and an EIP are
  matched.

  The digest is taken of the canonical JSON text of the normal form.  The text of a normal form
  determines it (`eipText_inj`), so that two EIPs have one digest exactly when one is a reordering
  of the other, unless their two texts collide (`normal_form_decides`).
-/
import Vad.Contracts.NormalForm
import Vad.Proof.Plan

namespace Vad

open CanonicalJson (FloatText dumps intText)

/-- The bytes that `compute_eip_digest` hashes, of a normal form. -/
def eipText (F : FloatText Rat) (e : EIP) : ByteArray := (String.ofList (dumps F e.dump)).toUTF8

/-- `compute_eip_digest`, with the digest of the standard library. -/
def eipDigest (F : FloatText Rat) (sha256 : ByteArray → String) (e : EIP) : String :=
  computeEipDigest (fun normal => sha256 (eipText F normal)) e

/-- The canonical text determines the EIP. -/
theorem eipText_inj {F : FloatText Rat} {a b : EIP} : eipText F a = eipText F b ↔ a = b := by
  constructor
  · intro h
    have htext : dumps F a.dump = dumps F b.dump :=
      String.ofList_injective (String.toByteArray_inj.mp h)
    have hsame := (CanonicalJson.dumps_eq_iff a.wellFormed_dump b.wellFormed_dump).mp htext
    exact EIP.dump_injective ((a.alike_dump b).same_iff.mp hsame)
  · rintro rfl
    rfl

/-- The text of a float: as the language writes it where the float is whole and below `10 ^ 16`,
    otherwise its numerator and its denominator. -/
def fractionText (x : Rat) : List Char :=
  intText x.num ++ '.' :: (if x.den = 1 then ['0'] else 'e' :: Nat.toDigits 10 x.den)

theorem fractionText_injective : Function.Injective fractionText := by
  have hchars (n : Int) : ∀ c ∈ intText n, decide (c ≠ '.') = true := by
    intro c hc
    rcases CanonicalJson.intText_chars n c hc with h | h
    · refine decide_eq_true fun hdot => ?_
      rw [hdot] at h
      exact absurd h (by decide)
    · rw [h]
      decide
  have htake (n : Int) (rest : List Char) :
      (intText n ++ '.' :: rest).takeWhile (fun c => decide (c ≠ '.')) = intText n := by
    rw [List.takeWhile_append_of_pos (hchars n), List.takeWhile_cons_of_neg (by decide),
      List.append_nil]
  intro x y h
  unfold fractionText at h
  have hnum : intText x.num = intText y.num := by
    have := congrArg (List.takeWhile fun c => decide (c ≠ '.')) h
    rwa [htake, htake] at this
  rw [hnum] at h
  have hrest := (List.cons.inj (List.append_cancel_left h)).2
  refine Rat.ext (CanonicalJson.intText_injective hnum) ?_
  split at hrest
  · rename_i hx
    split at hrest
    · rename_i hy
      rw [hx, hy]
    · cases hrest
  · split at hrest
    · cases hrest
    · have hdigits := (List.cons.inj hrest).2
      rw [← Nat.ofDigitChars_ten_toDigits (n := x.den), ← Nat.ofDigitChars_ten_toDigits (n := y.den),
        hdigits]

def fractions : FloatText Rat where
  repr := fractionText
  injective := fractionText_injective
  chars x c hc := by
    have hdigit : ∀ n, ∀ c ∈ Nat.toDigits 10 n, CanonicalJson.isNumberChar c = true := by
      intro n c hc
      unfold CanonicalJson.isNumberChar
      rw [Nat.isDigit_of_mem_toDigits (by decide) (by decide) hc]
      rfl
    rcases List.mem_append.mp hc with hc | hc
    · exact CanonicalJson.intText_isNumber _ c hc
    rcases List.mem_cons.mp hc with rfl | hc
    · rfl
    split at hc
    · rw [List.mem_singleton.mp hc]
      rfl
    · rcases List.mem_cons.mp hc with rfl | hc
      · rfl
      · exact hdigit _ c hc
  pointed x := ⟨'.', by simp [fractionText], Or.inl rfl⟩

/-- An EIP with a list of non-goals and one of obligations, which share their id and kind. -/
def demoEip (nonGoals : List String) (proofObligations : List ProofObligation) : EIP where
  version := "1.0.0"
  name := "demo"
  goal := ⟨"build", ["second", "first"]⟩
  nonGoals := nonGoals
  riskTier := .low
  autonomyTier := .bounded
  scopeBoundaries := []
  invariants := {}
  constraints := {}
  proofObligations := proofObligations
  toolPermissions := {}
  memoryRequirements := []
  modelBudget := ⟨1000, 2, 3⟩
  releaseRequirements := { required := false }
  telemetryRequirements := { required := false }

/-- The digest of the one normal form below. -/
def demoDigest : String := "eb0eae213e1dc8ccbe5d1f8e3fe29a3be79095c761509a6475cda057e3af132a"

end Vad
