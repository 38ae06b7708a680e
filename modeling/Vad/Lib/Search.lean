/-
  Looking for all occurrences of a text, as a loop over `str.find` does.

  The loop goes on behind the occurrence it has found.  A text whose first character comes only once
  in it has no two occurrences that overlap, so that the loop meets every one (`anyOccurrence_iff`).
-/
import Vad.Lib.Text

namespace PyText

/-- What follows the first occurrence of a text. -/
def afterFirst (p : Text) : Text → Option Text
  | [] => none
  | c :: t => if startsWith p (c :: t) then some ((c :: t).drop p.length) else afterFirst p t

theorem startsWith_iff {p t : Text} : startsWith p t = true ↔ ∃ rest, t = p ++ rest := by
  unfold startsWith
  rw [List.isPrefixOf_iff_prefix]
  exact ⟨fun ⟨rest, h⟩ => ⟨rest, h.symm⟩, fun ⟨rest, h⟩ => ⟨rest, h.symm⟩⟩

theorem afterFirst_length {c : Char} {p t rest : Text} (h : afterFirst (c :: p) t = some rest) :
    rest.length < t.length := by
  induction t with
  | nil => cases h
  | cons d t ih =>
    unfold afterFirst at h
    split at h
    · obtain rfl := Option.some.inj h
      rw [List.length_drop, List.length_cons, List.length_cons]
      omega
    · have hrest := ih h
      rw [List.length_cons]
      omega

/-- Some occurrence of `c :: p` is followed by what the test holds of. -/
def anyOccurrence (c : Char) (p : Text) (test : Text → Bool) (t : Text) : Bool :=
  match _h : afterFirst (c :: p) t with
  | none => false
  | some rest => if test rest then true else anyOccurrence c p test rest
termination_by t.length
decreasing_by exact afterFirst_length ‹_›

section Occurrences

variable {c : Char} {p t : Text}

/-- The text occurs, and `rest` follows. -/
def OccursBefore (p t rest : Text) : Prop := ∃ before, t = before ++ (p ++ rest)

theorem not_occursBefore_of_none (h : afterFirst (c :: p) t = none) (rest : Text) :
    ¬ OccursBefore (c :: p) t rest := by
  induction t with
  | nil =>
    rintro ⟨before, hbefore⟩
    have hlength := congrArg List.length hbefore
    simp at hlength
  | cons d t ih =>
    unfold afterFirst at h
    split at h
    · cases h
    · rename_i hstart
      rintro ⟨before, hbefore⟩
      cases before with
      | nil => exact hstart (startsWith_iff.mpr ⟨rest, hbefore⟩)
      | cons e before => exact ih h ⟨before, (List.cons.inj hbefore).2⟩

/-- Every occurrence is the first one or comes behind it. -/
theorem occursBefore_iff_of_some (hc : c ∉ p) {first : Text} (h : afterFirst (c :: p) t = some first)
    (rest : Text) :
    OccursBefore (c :: p) t rest ↔ rest = first ∨ OccursBefore (c :: p) first rest := by
  induction t with
  | nil => cases h
  | cons d t ih =>
    unfold afterFirst at h
    split at h
    · rename_i hstart
      obtain ⟨first', hsplit⟩ := startsWith_iff.mp hstart
      obtain rfl : first' = first := by
        rw [hsplit, List.drop_left] at h
        exact Option.some.inj h
      rw [hsplit]
      constructor
      · rintro ⟨before, hbefore⟩
        cases before with
        | nil => exact Or.inl (List.append_cancel_left hbefore).symm
        | cons e before =>
          have htail : p ++ first' = before ++ c :: (p ++ rest) := (List.cons.inj hbefore).2
          -- the next occurrence cannot begin inside the first one
          rcases List.append_eq_append_iff.mp htail with ⟨more, -, hmore⟩ | ⟨more, hp, hmore⟩
          · exact Or.inr ⟨more, hmore⟩
          · cases more with
            | nil => exact Or.inr ⟨[], hmore.symm⟩
            | cons x more =>
              obtain rfl : c = x := (List.cons.inj hmore).1
              exact absurd (hp ▸ List.mem_append_right _ (List.mem_cons_self ..)) hc
      · rintro (rfl | ⟨before, rfl⟩)
        · exact ⟨[], rfl⟩
        · exact ⟨c :: p ++ before, by rw [List.append_assoc]⟩
    · rename_i hstart
      rw [← ih h]
      constructor
      · rintro ⟨before, hbefore⟩
        cases before with
        | nil => exact absurd (startsWith_iff.mpr ⟨rest, hbefore⟩) hstart
        | cons e before => exact ⟨before, (List.cons.inj hbefore).2⟩
      · rintro ⟨before, rfl⟩
        exact ⟨d :: before, rfl⟩

/-- The loop meets every occurrence. -/
theorem anyOccurrence_iff (hc : c ∉ p) {test : Text → Bool} :
    anyOccurrence c p test t = true ↔ ∃ rest, OccursBefore (c :: p) t rest ∧ test rest = true := by
  induction hlength : t.length using Nat.strong_induction_on generalizing t with
  | _ n ih =>
    unfold anyOccurrence
    split
    · rename_i hnone
      refine ⟨fun h => (nomatch h), ?_⟩
      rintro ⟨rest, hrest, -⟩
      exact absurd hrest (not_occursBefore_of_none hnone rest)
    · rename_i first hfirst
      have hbehind := ih first.length (hlength ▸ afterFirst_length hfirst) rfl
      cases htest : test first with
      | true =>
        refine ⟨fun _ => ⟨first, ?_, htest⟩, fun _ => rfl⟩
        exact (occursBefore_iff_of_some hc hfirst first).mpr (Or.inl rfl)
      | false =>
        rw [if_neg (by simp), hbehind]
        constructor
        · rintro ⟨rest, hrest, hholds⟩
          exact ⟨rest, (occursBefore_iff_of_some hc hfirst rest).mpr (Or.inr hrest), hholds⟩
        · rintro ⟨rest, hrest, hholds⟩
          rcases (occursBefore_iff_of_some hc hfirst rest).mp hrest with rfl | hrest
          · rw [htest] at hholds
            cases hholds
          · exact ⟨rest, hrest, hholds⟩

end Occurrences

end PyText
