/-
  Text as Python sees it: a list of Unicode scalar values.

  White space and `strip`, the line boundaries of `splitlines` and the newline translation of a
  file opened in text mode.  The three notions of a line end differ — a file in text mode knows
  `\n`, `\r\n` and `\r`, `splitlines` knows seven more, a diff knows `\n` only — and the lemmas
  say when they agree: on lines that contain no boundary inside (`IsLine`), `splitlines` gives back
  the lines a text was joined from (`splitlines_flatten`).

  The lines of a text without `\r` each end with one boundary, only the last may lack it
  (`lineList_splitlines`), so that a text determines its first lines (`ended_append_inj`) and the
  number of boundaries tells how many lines are ended.
-/
import Mathlib.Data.List.DropRight
import Mathlib.Tactic.Common

namespace PyText

abbrev Text := List Char

/-- What holds of each character of a list is decided by going through the list, not through all
    characters there are. -/
instance (priority := 2000) decidableForallMem (l : List Char) (p : Char → Prop) [DecidablePred p] :
    Decidable (∀ c ∈ l, p c) := List.decidableBAll p l

/-- The same is found for these types whatever else is imported. -/
instance (priority := 2000) lawfulBEqChars : LawfulBEq (List Char) := List.instLawfulBEq

instance (priority := 2000) decidableEqBytes : DecidableEq ByteArray := ByteArray.instDecidableEq

/-- `line.startswith(mark)`. -/
def startsWith (mark line : Text) : Bool := mark.isPrefixOf line

/-! ## White space -/

/-- `str.isspace` of one character. -/
def isSpace (c : Char) : Bool :=
  let n := c.toNat
  (9 ≤ n && n ≤ 13) || (28 ≤ n && n ≤ 32) || n == 0x85 || n == 0xa0 || n == 0x1680 ||
    (0x2000 ≤ n && n ≤ 0x200a) || n == 0x2028 || n == 0x2029 || n == 0x202f || n == 0x205f ||
    n == 0x3000

/-- `str.strip()`. -/
def strip (t : Text) : Text := (t.dropWhile isSpace).rdropWhile isSpace

/-- A text whose two ends are not white space is what `strip` leaves alone. -/
theorem strip_eq_self {t : Text} (hhead : ∀ c ∈ t.head?, isSpace c = false)
    (hlast : ∀ c ∈ t.getLast?, isSpace c = false) : strip t = t := by
  have hdrop : t.dropWhile isSpace = t := by
    cases t with
    | nil => rfl
    | cons c t => rw [List.dropWhile_cons_of_neg (by simpa using hhead c rfl)]
  rw [strip, hdrop, List.rdropWhile_eq_self_iff]
  intro hne
  simpa using hlast _ (List.getLast?_eq_some_getLast hne)

theorem strip_strip (t : Text) : strip (strip t) = strip t := by
  apply strip_eq_self
  · intro c hc
    -- the head of the stripped text is the head of what `dropWhile` left
    have hpre : strip t <+: t.dropWhile isSpace := List.rdropWhile_prefix _ _
    have hc' : (t.dropWhile isSpace).head? = some c := by
      obtain ⟨rest, hrest⟩ := hpre
      rw [← hrest, List.head?_append, Option.mem_def.mp hc]
      rfl
    have hnot := List.head?_dropWhile_not isSpace t
    rw [hc'] at hnot
    simpa using hnot
  · intro c hc
    have hne : strip t ≠ [] := by
      intro h
      rw [h] at hc
      simp at hc
    have hlast := List.rdropWhile_last_not (p := isSpace) (l := t.dropWhile isSpace) hne
    have heq : (strip t).getLast hne = c := by
      have := List.getLast?_eq_some_getLast hne
      rw [Option.mem_def.mp hc] at this
      exact (Option.some.inj this).symm
    rw [← heq]
    simpa [strip] using hlast

/-! ## Numbers -/

/-- The zero of each run of ten decimal digits in Unicode. -/
def decimalZeros : List Nat := [
  0x30, 0x660, 0x6F0, 0x7C0, 0x966, 0x9E6, 0xA66, 0xAE6, 0xB66, 0xBE6, 0xC66, 0xCE6, 0xD66, 0xDE6,
  0xE50, 0xED0, 0xF20, 0x1040, 0x1090, 0x17E0, 0x1810, 0x1946, 0x19D0, 0x1A80, 0x1A90, 0x1B50,
  0x1BB0, 0x1C40, 0x1C50, 0xA620, 0xA8D0, 0xA900, 0xA9D0, 0xA9F0, 0xAA50, 0xABF0, 0xFF10, 0x104A0,
  0x10D30, 0x11066, 0x110F0, 0x11136, 0x111D0, 0x112F0, 0x11450, 0x114D0, 0x11650, 0x116C0,
  0x11730, 0x118E0, 0x11950, 0x11C50, 0x11D50, 0x11DA0, 0x11F50, 0x16A60, 0x16AC0, 0x16B50,
  0x1D7CE, 0x1D7D8, 0x1D7E2, 0x1D7EC, 0x1D7F6, 0x1E140, 0x1E2F0, 0x1E4D0, 0x1E950, 0x1FBF0]

/-- The value of a decimal digit. -/
def digitValue (c : Char) : Option Nat :=
  (decimalZeros.find? (fun z => decide (z ≤ c.toNat) && decide (c.toNat < z + 10))).map
    (fun z => c.toNat - z)

/-- The number that the rest of a numeral adds to `n`; single underscores stand between digits. -/
def digitsFrom (n : Nat) (afterDigit : Bool) : Text → Option Nat
  | [] => if afterDigit then some n else none
  | c :: t =>
    if c = '_' then if afterDigit then digitsFrom n false t else none
    else match digitValue c with
      | some d => digitsFrom (n * 10 + d) true t
      | none => none

/-- `int(t)`: `none` is its `ValueError`. -/
def parseInt (t : Text) : Option Int :=
  match strip t with
  | '-' :: digits => (digitsFrom 0 false digits).map fun n => -(n : Int)
  | '+' :: digits => (digitsFrom 0 false digits).map fun n => (n : Int)
  | digits => (digitsFrom 0 false digits).map fun n => (n : Int)

/-- The value of a numeral of the digits `0` to `9`. -/
def numeral (digits : Text) : Nat := digits.foldl (fun n c => n * 10 + (c.toNat - 48)) 0

/-- Different numbers have different numerals. -/
theorem toString_injective : Function.Injective fun n : Nat => toString n := by
  intro m n h
  have hrepr : m.repr = n.repr := h
  have hdigits : Nat.toDigits 10 m = Nat.toDigits 10 n := by
    rw [← Nat.toList_repr, ← Nat.toList_repr, hrepr]
  rw [← Nat.ofDigitChars_ten_toDigits (n := m), ← Nat.ofDigitChars_ten_toDigits (n := n), hdigits]

theorem digitValue_ascii {c : Char} (h : c.isDigit = true) : digitValue c = some (c.toNat - 48) := by
  have hrange : 48 ≤ c.toNat ∧ c.toNat < 58 := by
    simp only [Char.isDigit, Bool.and_eq_true, decide_eq_true_eq] at h
    exact ⟨h.1, Nat.lt_succ_of_le h.2⟩
  have hfirst : (decide (0x30 ≤ c.toNat) && decide (c.toNat < 0x30 + 10)) = true := by
    simp only [Bool.and_eq_true, decide_eq_true_eq]
    omega
  have hfind : decimalZeros.find? (fun z => decide (z ≤ c.toNat) && decide (c.toNat < z + 10)) =
      some 0x30 := List.find?_cons_of_pos hfirst
  rw [digitValue, hfind]
  rfl

theorem digitsFrom_ascii {digits : Text} (h : ∀ c ∈ digits, c.isDigit = true) (n : Nat) :
    digitsFrom n true digits = some (digits.foldl (fun n c => n * 10 + (c.toNat - 48)) n) := by
  induction digits generalizing n with
  | nil => rfl
  | cons c t ih =>
    have hc := h c (List.mem_cons_self ..)
    have hne : c ≠ '_' := fun heq => by rw [heq] at hc; exact absurd hc (by decide)
    rw [digitsFrom, if_neg hne, digitValue_ascii hc, List.foldl_cons]
    exact ih (fun x hx => h x (List.mem_cons_of_mem c hx)) _

theorem isSpace_digit {c : Char} (h : c.isDigit = true) : isSpace c = false := by
  have hrange : 48 ≤ c.toNat ∧ c.toNat < 58 := by
    simp only [Char.isDigit, Bool.and_eq_true, decide_eq_true_eq] at h
    exact ⟨h.1, Nat.lt_succ_of_le h.2⟩
  simp only [isSpace, Bool.or_eq_false_iff, Bool.and_eq_false_iff, decide_eq_false_iff_not,
    beq_eq_false_iff_ne]
  omega

/-- A numeral is read as what it denotes, white space after it or not. -/
theorem parseInt_numeral {digits space : Text} (hne : digits ≠ [])
    (h : ∀ c ∈ digits, c.isDigit = true) (hspace : ∀ c ∈ space, isSpace c = true) :
    parseInt (digits ++ space) = some (numeral digits) := by
  obtain ⟨c, t, rfl⟩ := List.exists_cons_of_ne_nil hne
  have hc := h c (List.mem_cons_self ..)
  have hstrip : strip ((c :: t) ++ space) = c :: t := by
    have hdrop : ((c :: t) ++ space).dropWhile isSpace = (c :: t) ++ space :=
      List.dropWhile_cons_of_neg (by rw [isSpace_digit hc]; decide)
    rw [strip, hdrop, List.rdropWhile, List.reverse_append, List.dropWhile_append_of_pos
      (fun x hx => hspace x (List.mem_reverse.mp hx))]
    have hlast : ((c :: t).reverse).dropWhile isSpace = (c :: t).reverse := by
      cases hrev : (c :: t).reverse with
      | nil => rfl
      | cons x rest =>
        have hx : x ∈ c :: t := List.mem_reverse.mp (hrev ▸ List.mem_cons_self ..)
        exact List.dropWhile_cons_of_neg (by rw [isSpace_digit (h x hx)]; decide)
    rw [hlast, List.reverse_reverse]
  have hminus : c ≠ '-' := fun heq => by rw [heq] at hc; exact absurd hc (by decide)
  have hplus : c ≠ '+' := fun heq => by rw [heq] at hc; exact absurd hc (by decide)
  have hunder : c ≠ '_' := fun heq => by rw [heq] at hc; exact absurd hc (by decide)
  have hdigits : digitsFrom 0 false (c :: t) = some (numeral (c :: t)) := by
    rw [digitsFrom, if_neg hunder, digitValue_ascii hc]
    exact digitsFrom_ascii (fun x hx => h x (List.mem_cons_of_mem c hx)) _
  unfold parseInt
  rw [hstrip]
  split
  · rename_i heq; cases heq; exact absurd rfl hminus
  · rename_i heq; cases heq; exact absurd rfl hplus
  · rw [hdigits]; rfl

/-! ## Lines -/

/-- A character after which `splitlines` starts a new line. -/
def isBoundary (c : Char) : Bool :=
  let n := c.toNat
  (10 ≤ n && n ≤ 13) || (28 ≤ n && n ≤ 30) || n == 0x85 || n == 0x2028 || n == 0x2029

/-- `str.splitlines(keepends=True)`. -/
def splitlines : Text → List Text
  | [] => []
  | '\r' :: '\n' :: t => ['\r', '\n'] :: splitlines t
  | c :: t =>
    if isBoundary c then [c] :: splitlines t
    else match splitlines t with
      | [] => [[c]]
      | line :: rest => (c :: line) :: rest

/-- The lines of a text make up the text. -/
theorem flatten_splitlines (t : Text) : (splitlines t).flatten = t := by
  fun_induction splitlines t with
  | case1 => rfl
  | case2 t ih => rw [List.flatten_cons, ih]; rfl
  | case3 c t _ _ ih => rw [List.flatten_cons, ih]; rfl
  | case4 c t _ _ hnil ih =>
    rw [hnil] at ih
    rw [← ih]
    rfl
  | case5 c t _ _ line rest hcons ih =>
    rw [hcons] at ih
    rw [← ih]
    rfl

/-- Reading a file in text mode: `\r\n` and `\r` become `\n`. -/
def universalNewlines : Text → Text
  | [] => []
  | '\r' :: '\n' :: t => '\n' :: universalNewlines t
  | c :: t => (if c = '\r' then '\n' else c) :: universalNewlines t

/-- A text without `\r` is read as it is. -/
theorem universalNewlines_eq_self {t : Text} (h : '\r' ∉ t) : universalNewlines t = t := by
  fun_induction universalNewlines t with
  | case1 => rfl
  | case2 t ih => exact absurd (List.mem_cons_self ..) h
  | case3 c t _ ih =>
    rw [List.mem_cons, not_or] at h
    have hc : c ≠ '\r' := fun heq => h.1 heq.symm
    rw [if_neg hc, ih h.2]

/-- What is read never contains `\r`. -/
theorem cr_not_mem_universalNewlines (t : Text) : '\r' ∉ universalNewlines t := by
  fun_induction universalNewlines t with
  | case1 => exact List.not_mem_nil
  | case2 t ih => rw [List.mem_cons, not_or]; exact ⟨by decide, ih⟩
  | case3 c t _ ih =>
    rw [List.mem_cons, not_or]
    refine ⟨?_, ih⟩
    split
    · decide
    · rename_i hc; exact fun heq => hc heq.symm

/-- A line: no boundary but the `\n` or `\r\n` at its end. -/
structure IsLine (line : Text) : Prop where
  ends : ∃ body ending, line = body ++ ending ∧ (∀ c ∈ body, isBoundary c = false) ∧
    (ending = ['\n'] ∨ ending = ['\r', '\n'])

theorem isBoundary_newline : isBoundary '\n' = true := by decide

theorem isBoundary_cr : isBoundary '\r' = true := by decide

/-- A line in front of a text is the first of its lines. -/
theorem splitlines_line {line : Text} (h : IsLine line) (t : Text) :
    splitlines (line ++ t) = line :: splitlines t := by
  obtain ⟨body, ending, rfl, hbody, hend⟩ := h.ends
  clear h
  rw [List.append_assoc]
  induction body with
  | nil =>
    rcases hend with rfl | rfl
    · show splitlines ('\n' :: t) = ['\n'] :: splitlines t
      rw [splitlines, if_pos isBoundary_newline]
      intro t' h
      exact absurd h (by decide)
    · rfl
  | cons c body ih =>
    have hc : isBoundary c = false := hbody c (List.mem_cons_self ..)
    have hcr : c ≠ '\r' := fun heq => by rw [heq, isBoundary_cr] at hc; cases hc
    have hrest := ih fun x hx => hbody x (List.mem_cons_of_mem c hx)
    rw [List.cons_append, splitlines, if_neg (by rw [hc]; decide), hrest]
    · rfl
    · intro t' h _
      exact absurd h hcr

/-- The lines that a text was joined from are the lines that it is split into. -/
theorem splitlines_flatten {lines : List Text} (h : ∀ line ∈ lines, IsLine line) (t : Text) :
    splitlines (lines.flatten ++ t) = lines ++ splitlines t := by
  induction lines with
  | nil => rfl
  | cons line rest ih =>
    rw [List.flatten_cons, List.append_assoc, splitlines_line (h line (List.mem_cons_self ..)),
      ih fun x hx => h x (List.mem_cons_of_mem line hx)]
    rfl

/-! ## Ended lines -/

/-- A line with one boundary, at its end. -/
def Ended (line : Text) : Prop :=
  ∃ body ending, line = body ++ [ending] ∧ (∀ c ∈ body, isBoundary c = false) ∧
    isBoundary ending = true

/-- The lines of a text: each is ended, only the last may lack its boundary. -/
inductive LineList : List Text → Prop where
  | nil : LineList []
  | last (line : Text) (hne : line ≠ []) (h : ∀ c ∈ line, isBoundary c = false) : LineList [line]
  | cons (line : Text) (rest : List Text) (h : Ended line) (hrest : LineList rest) :
    LineList (line :: rest)

/-- The number of boundaries in a text. -/
def countEnds (t : Text) : Nat := t.countP isBoundary

theorem countEnds_append (t u : Text) : countEnds (t ++ u) = countEnds t + countEnds u :=
  List.countP_append

theorem countEnds_eq_zero {t : Text} (h : ∀ c ∈ t, isBoundary c = false) : countEnds t = 0 :=
  List.countP_eq_zero.mpr fun c hc => by rw [h c hc]; decide

theorem countEnds_ended {line : Text} (h : Ended line) : countEnds line = 1 := by
  obtain ⟨body, ending, rfl, hbody, hend⟩ := h
  rw [countEnds_append, countEnds_eq_zero hbody, countEnds, List.countP_singleton, if_pos hend]

/-- The lines of a text without `\r`. -/
theorem lineList_splitlines {t : Text} (h : '\r' ∉ t) : LineList (splitlines t) := by
  fun_induction splitlines t with
  | case1 => exact .nil
  | case2 t ih => exact absurd (List.mem_cons_self ..) h
  | case3 c t _ hend ih =>
    exact .cons [c] _ ⟨[], c, rfl, fun _ hx => absurd hx List.not_mem_nil, hend⟩
      (ih fun hmem => h (List.mem_cons_of_mem c hmem))
  | case4 c t _ hend hnil ih =>
    refine .last [c] (List.cons_ne_nil c []) fun x hx => ?_
    rw [List.mem_singleton.mp hx]
    simpa using hend
  | case5 c t _ hend line rest hcons ih =>
    have hlines := ih fun hmem => h (List.mem_cons_of_mem c hmem)
    rw [hcons] at hlines
    have hc : isBoundary c = false := by simpa using hend
    cases hlines with
    | last _ _ hline => exact .last _ (List.cons_ne_nil c line) (List.forall_mem_cons.mpr ⟨hc, hline⟩)
    | cons _ _ hline hrest =>
      obtain ⟨body, ending, rfl, hbody, hending⟩ := hline
      exact .cons _ _ ⟨c :: body, ending, rfl, List.forall_mem_cons.mpr ⟨hc, hbody⟩, hending⟩ hrest

/-- The first line of a text is determined by the text. -/
theorem ended_append_inj {line line' t t' : Text} (h : Ended line) (h' : Ended line')
    (heq : line ++ t = line' ++ t') : line = line' ∧ t = t' := by
  obtain ⟨body, ending, rfl, hbody, hend⟩ := h
  obtain ⟨body', ending', rfl, hbody', hend'⟩ := h'
  simp only [List.append_assoc, List.singleton_append] at heq
  -- the body is what stands before the first boundary
  have htake : ∀ {b e u}, (∀ c ∈ b, isBoundary c = false) → isBoundary e = true →
      (b ++ e :: u).takeWhile (fun c => !isBoundary c) = b := by
    intro b e u hb he
    rw [List.takeWhile_append_of_pos (fun c hc => by rw [hb c hc]; rfl),
      List.takeWhile_cons_of_neg (by rw [he]; decide), List.append_nil]
  have hbodies : body = body' := by
    rw [← htake hbody hend, heq, htake hbody' hend']
  subst hbodies
  have hrest := List.append_cancel_left heq
  cases hrest
  exact ⟨rfl, rfl⟩

/-- The first `n` lines of a text are determined by the text, when all of them are ended. -/
theorem ended_flatten_inj {lines lines' : List Text} {t t' : Text}
    (hlength : lines.length = lines'.length) (h : ∀ l ∈ lines, Ended l) (h' : ∀ l ∈ lines', Ended l)
    (heq : lines.flatten ++ t = lines'.flatten ++ t') : lines = lines' ∧ t = t' := by
  induction lines generalizing lines' with
  | nil =>
    have hnil : lines' = [] := List.eq_nil_of_length_eq_zero hlength.symm
    subst hnil
    exact ⟨rfl, heq⟩
  | cons line rest ih =>
    cases lines' with
    | nil => cases hlength
    | cons line' rest' =>
      rw [List.flatten_cons, List.flatten_cons, List.append_assoc, List.append_assoc] at heq
      obtain ⟨hline, hmore⟩ := ended_append_inj (h line (List.mem_cons_self ..))
        (h' line' (List.mem_cons_self ..)) heq
      obtain ⟨hrest, ht⟩ := ih (Nat.succ.inj hlength)
        (fun l hl => h l (List.mem_cons_of_mem _ hl)) (fun l hl => h' l (List.mem_cons_of_mem _ hl))
        hmore
      exact ⟨by rw [hline, hrest], ht⟩

theorem countEnds_flatten {lines : List Text} (h : ∀ l ∈ lines, Ended l) :
    countEnds lines.flatten = lines.length := by
  induction lines with
  | nil => rfl
  | cons line rest ih =>
    rw [List.flatten_cons, countEnds_append, countEnds_ended (h line (List.mem_cons_self ..)),
      ih fun l hl => h l (List.mem_cons_of_mem _ hl), List.length_cons]
    omega

/-- The first `n` lines are all ended, or they are all the lines and the last is not ended. -/
theorem LineList.take_cases {lines : List Text} (h : LineList lines) {n : Nat}
    (hn : n ≤ lines.length) :
    (∀ l ∈ lines.take n, Ended l) ∨ (n = lines.length ∧ countEnds lines.flatten + 1 = n) := by
  induction h generalizing n with
  | nil => exact Or.inl fun l hl => by simp at hl
  | last line hne hline =>
    cases n with
    | zero => exact Or.inl fun l hl => by simp at hl
    | succ n =>
      have hzero : n = 0 := by
        have : n + 1 ≤ 1 := hn
        omega
      refine Or.inr ⟨by rw [hzero]; rfl, ?_⟩
      rw [List.flatten_singleton, countEnds_eq_zero hline, hzero]
  | cons line rest hline _ ih =>
    cases n with
    | zero => exact Or.inl fun l hl => by simp at hl
    | succ n =>
      rcases ih (Nat.le_of_succ_le_succ hn) with hall | ⟨hlen, hcount⟩
      · exact Or.inl (List.forall_mem_cons.mpr ⟨hline, hall⟩)
      · refine Or.inr ⟨by rw [hlen]; rfl, ?_⟩
        rw [List.flatten_cons, countEnds_append, countEnds_ended hline]
        omega

theorem LineList.drop {lines : List Text} (h : LineList lines) (n : Nat) :
    LineList (lines.drop n) := by
  induction h generalizing n with
  | nil => rw [List.drop_nil]; exact .nil
  | last line hne hline =>
    cases n with
    | zero => exact .last line hne hline
    | succ n => rw [List.drop_succ_cons, List.drop_nil]; exact .nil
  | cons line rest hline hrest ih =>
    cases n with
    | zero => exact .cons line rest hline hrest
    | succ n => exact ih n

/-- A text determines its lines. -/
theorem LineList.flatten_inj {lines lines' : List Text} (h : LineList lines) (h' : LineList lines')
    (heq : lines.flatten = lines'.flatten) : lines = lines' := by
  induction h generalizing lines' with
  | nil =>
    cases h' with
    | nil => rfl
    | last line hne _ => simp at heq; exact absurd heq hne
    | cons line rest hline _ =>
      have hcount := countEnds_ended hline
      have hnil : line = [] := by simp at heq; exact heq.1
      rw [hnil] at hcount
      cases hcount
  | last line hne hline =>
    have hcount : countEnds lines'.flatten = 0 := by
      rw [← heq, List.flatten_singleton, countEnds_eq_zero hline]
    cases h' with
    | nil => simp at heq; exact absurd heq hne
    | last line' _ _ => simpa using heq
    | cons line' rest hline' _ =>
      rw [List.flatten_cons, countEnds_append, countEnds_ended hline'] at hcount
      omega
  | cons line rest hline _ ih =>
    cases h' with
    | nil =>
      have hcount := countEnds_ended hline
      have hnil : line = [] := by simp at heq; exact heq.1
      rw [hnil] at hcount
      cases hcount
    | last line' _ hline' =>
      have hcount : countEnds (line :: rest).flatten = 0 := by
        rw [heq, List.flatten_singleton, countEnds_eq_zero hline']
      rw [List.flatten_cons, countEnds_append, countEnds_ended hline] at hcount
      omega
    | cons line' rest' hline' hrest' =>
      obtain ⟨hfirst, hmore⟩ := ended_append_inj hline hline' heq
      rw [hfirst, ih hrest' hmore]

end PyText
