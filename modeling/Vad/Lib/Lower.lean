/-
  `str.lower`, and texts that occur in lower-cased texts.

  Python lower-cases each character on its own, but for a capital sigma, which becomes another
  letter at the end of a word.  The table of characters is a parameter; what is used of it is that
  an ASCII character is lower-cased as in ASCII, and that ASCII characters other than letters come
  from themselves only (`Lowering`).

  A text without sigmas therefore occurs in a lower-cased text exactly when it occurs in what the
  table makes of the characters (`occurs_iff`), and a text without quotes that occurs in a text with
  a quoted name occurs in front of the name, in the name, or behind it (`occurs_quoted_iff`).
-/
import Vad.Lib.Text

namespace PyText

/-! ## Occurrences -/

section Occurrences

variable {α β : Type}

/-- What occurs in a list that a separator divides occurs on one side of it. -/
theorem infix_append_cons_iff {p x y : List α} {c : α} (hc : c ∉ p) :
    p <:+: x ++ c :: y ↔ p <:+: x ∨ p <:+: y := by
  constructor
  · rintro ⟨s, t, h⟩
    rcases List.append_eq_append_iff.mp h with ⟨more, hx, -⟩ | ⟨more, hs, hy⟩
    · exact Or.inl ⟨s, more, hx.symm⟩
    · cases more with
      | nil => exact Or.inl ⟨s, [], by rw [hs, List.append_nil, List.append_nil]⟩
      | cons d more =>
        obtain ⟨rfl, rfl⟩ := List.cons.inj hy
        -- the separator is behind the front of the text, so the text is behind it
        rcases List.append_eq_append_iff.mp hs with ⟨more', -, hp⟩ | ⟨more', -, hp⟩
        · exact absurd (hp ▸ List.mem_append_right _ List.mem_cons_self) hc
        · cases more' with
          | nil => exact absurd (show c ∈ p from (List.nil_append p ▸ hp) ▸ List.mem_cons_self) hc
          | cons d' more' =>
            obtain ⟨-, rfl⟩ := List.cons.inj hp
            exact Or.inr ⟨more', t, rfl⟩
  · rintro (h | h)
    · exact h.trans (List.prefix_append ..).isInfix
    · exact h.trans (((List.suffix_cons c y).trans (List.suffix_append x _)).isInfix)

/-- A list with an element that the other lacks does not occur in it. -/
theorem not_infix_of_not_mem {p x : List α} {c : α} (hp : c ∈ p) (hx : c ∉ x) : ¬ p <:+: x :=
  fun h => hx (h.subset hp)

/-- Mapping the other elements to others does not make a list occur, or stop occurring. -/
theorem infix_map_iff {f : α → α} {p x : List α} (hf : ∀ a, f a ∈ p → f a = a)
    (hp : ∀ a ∈ p, f a = a) : p <:+: x.map f ↔ p <:+: x := by
  have hself : p.map f = p := by
    conv_rhs => rw [← List.map_id p]
    exact List.map_congr_left hp
  constructor
  · rintro ⟨s, t, h⟩
    obtain ⟨front, back, rfl, hfront, -⟩ := List.map_eq_append_iff.mp h.symm
    obtain ⟨s', p', rfl, -, hp'⟩ := List.map_eq_append_iff.mp hfront
    have hsame : p' = p := by
      rw [← hp']
      conv_lhs => rw [← List.map_id p']
      refine List.map_congr_left fun a ha => (hf a ?_).symm
      rw [← hp']
      exact List.mem_map_of_mem ha
    exact ⟨s', back, by rw [hsame]⟩
  · rintro ⟨s, t, rfl⟩
    refine ⟨s.map f, t.map f, ?_⟩
    rw [List.map_append, List.map_append, hself]

end Occurrences

/-! ## Lower case -/

/-- The small sigma in its form inside a word. -/
def plainSigma (c : Char) : Char := if c = 'ς' then 'σ' else c

/-- `str.lower`, with the table of what each character becomes. -/
structure Lowering where
  lower : Text → Text
  table : Char → Text
  lower_eq : ∀ t, (lower t).map plainSigma = t.flatMap table
  ascii : ∀ c, c.toNat < 128 → table c = [c.toLower]
  other : ∀ c d, d ∈ table c → d.toNat < 128 → d.isAlpha = false → d = c

namespace Lowering

variable (L : Lowering)

/-- A text without sigmas occurs in what is lower-cased as it does in what the table makes of it. -/
theorem occurs_iff {p : Text} (hp : 'σ' ∉ p ∧ 'ς' ∉ p) (t : Text) :
    p <:+: L.lower t ↔ p <:+: t.flatMap L.table := by
  rw [← L.lower_eq]
  refine (infix_map_iff (fun a ha => ?_) fun a ha => ?_).symm
  · unfold plainSigma at ha ⊢
    split
    · rename_i h
      rw [if_pos h] at ha
      exact absurd ha hp.1
    · rfl
  · exact if_neg fun h : a = 'ς' => hp.2 (h ▸ ha)

theorem table_ascii {t : Text} (h : ∀ c ∈ t, c.toNat < 128) :
    t.flatMap L.table = t.map Char.toLower := by
  induction t with
  | nil => rfl
  | cons c t ih =>
    rw [List.flatMap_cons, L.ascii c (h c (List.mem_cons_self ..)),
      ih fun d hd => h d (List.mem_cons_of_mem c hd)]
    rfl

/-- A name in quotes. -/
def quoted (before name after : Text) : Text := before ++ '\'' :: (name ++ '\'' :: after)

/-- A text without quotes occurs in front of the name, in it, or behind it. -/
theorem occurs_quoted_iff {p : Text} (hp : 'σ' ∉ p ∧ 'ς' ∉ p) (hquote : '\'' ∉ p)
    (before name after : Text) :
    p <:+: L.lower (quoted before name after) ↔
      p <:+: before.flatMap L.table ∨ p <:+: L.lower name ∨ p <:+: after.flatMap L.table := by
  have hmark : L.table '\'' = ['\''] := L.ascii '\'' (by decide)
  rw [L.occurs_iff hp, L.occurs_iff hp]
  unfold quoted
  rw [List.flatMap_append, List.flatMap_cons, hmark, List.flatMap_append, List.flatMap_cons, hmark]
  exact (infix_append_cons_iff hquote).trans (or_congr_right (infix_append_cons_iff hquote))

end Lowering

end PyText
