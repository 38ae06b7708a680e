/-
  The indented text of JSON, as `json.dumps(value, indent=2)` writes it.

  1. Outside of quoted texts, spaces and line ends say nothing (`compact`); a quoted text is kept as
     it is, whatever blanks it has (`compact_quote`).
  2. Without these blanks the indented text of a value is its compact one (`compact_indented`), so
     it determines the value as well (`indented_injective`).
-/
import Vad.Lib.CanonicalJson

namespace CanonicalJson

variable {φ : Type}

/-! ## The text -/

/-- The start of a line at a depth. -/
def newline (depth : Nat) : List Char := '\n' :: List.replicate (2 * depth) ' '

mutual

/-- The text of a value that stands at a depth. -/
def indented (F : FloatText φ) (depth : Nat) : Value φ → List Char
  | .null => write F .null
  | .bool b => write F (.bool b)
  | .int n => write F (.int n)
  | .float x => write F (.float x)
  | .text s => write F (.text s)
  | .array [] => ['[', ']']
  | .array (v :: rest) =>
    '[' :: (newline (depth + 1) ++ (indented F (depth + 1) v ++ indentedElements F depth rest))
  | .object [] => ['{', '}']
  | .object ((key, v) :: rest) =>
    '{' :: (newline (depth + 1) ++ (quote key ++
      ':' :: ' ' :: (indented F (depth + 1) v ++ indentedEntries F depth rest)))

/-- The further elements of an array at the depth. -/
def indentedElements (F : FloatText φ) (depth : Nat) : List (Value φ) → List Char
  | [] => newline depth ++ [']']
  | v :: rest =>
    ',' :: (newline (depth + 1) ++ (indented F (depth + 1) v ++ indentedElements F depth rest))

/-- The further entries of an object at the depth. -/
def indentedEntries (F : FloatText φ) (depth : Nat) : List (String × Value φ) → List Char
  | [] => newline depth ++ ['}']
  | (key, v) :: rest =>
    ',' :: (newline (depth + 1) ++ (quote key ++
      ':' :: ' ' :: (indented F (depth + 1) v ++ indentedEntries F depth rest)))

end

/-! ## Without blanks -/

mutual

/-- A text without the blanks outside of quoted texts. -/
def compact : List Char → List Char
  | [] => []
  | c :: rest =>
    if c = ' ' ∨ c = '\n' then compact rest
    else if c = '"' then c :: compactQuoted rest
    else c :: compact rest

/-- The same from inside of a quoted text on. -/
def compactQuoted : List Char → List Char
  | [] => []
  | '\\' :: c :: rest => '\\' :: c :: compactQuoted rest
  | c :: rest => if c = '"' then c :: compact rest else c :: compactQuoted rest

end

theorem compact_blank {c : Char} (h : c = ' ' ∨ c = '\n') (rest : List Char) :
    compact (c :: rest) = compact rest := by
  rw [compact, if_pos h]

theorem compact_newline (depth : Nat) (rest : List Char) :
    compact (newline depth ++ rest) = compact rest := by
  unfold newline
  rw [List.cons_append, compact_blank (Or.inr rfl)]
  generalize 2 * depth = n
  induction n with
  | zero => rfl
  | succ n ih => rw [List.replicate_succ, List.cons_append, compact_blank (Or.inl rfl), ih]

/-- Neither a blank nor a quote. -/
def Plain (c : Char) : Prop := c ≠ ' ' ∧ c ≠ '\n' ∧ c ≠ '"'

instance : DecidablePred Plain := fun c =>
  inferInstanceAs (Decidable (c ≠ ' ' ∧ c ≠ '\n' ∧ c ≠ '"'))

theorem compact_plain {c : Char} (h : Plain c) (rest : List Char) :
    compact (c :: rest) = c :: compact rest := by
  obtain ⟨hspace, hline, hquote⟩ := h
  rw [compact, if_neg (by simp [hspace, hline]), if_neg hquote]

theorem compact_plains {text : List Char} (h : ∀ c ∈ text, Plain c) (rest : List Char) :
    compact (text ++ rest) = text ++ compact rest := by
  induction text with
  | nil => rfl
  | cons c text ih =>
    rw [List.cons_append, compact_plain (h c (List.mem_cons_self ..)),
      ih fun x hx => h x (List.mem_cons_of_mem c hx), List.cons_append]

theorem plain_of_number {c : Char} (h : isNumberChar c = true) : Plain c := by
  refine ⟨?_, ?_, ?_⟩
  all_goals
    rintro rfl
    exact absurd h (by decide)

/-! ## Quoted texts -/

theorem compactQuoted_plain {c : Char} (hslash : c ≠ '\\') (hquote : c ≠ '"') (rest : List Char) :
    compactQuoted (c :: rest) = c :: compactQuoted rest := by
  rw [compactQuoted, if_neg hquote]
  rintro x y rfl
  exact absurd rfl hslash

theorem hexDigit_plain (n : Nat) : hexDigit (n % 16) ≠ '\\' ∧ hexDigit (n % 16) ≠ '"' := by
  have hall : ∀ k < 16, hexDigit k ≠ '\\' ∧ hexDigit k ≠ '"' := by decide
  exact hall (n % 16) (Nat.mod_lt n (by decide))

theorem compactQuoted_hex (n : Nat) (rest : List Char) :
    compactQuoted (hexEscape n ++ rest) = hexEscape n ++ compactQuoted rest := by
  have h₁ := hexDigit_plain (n / 4096)
  have h₂ := hexDigit_plain (n / 256)
  have h₃ := hexDigit_plain (n / 16)
  have h₄ := hexDigit_plain n
  unfold hexEscape
  simp only [List.cons_append, List.nil_append]
  rw [compactQuoted, compactQuoted_plain h₁.1 h₁.2, compactQuoted_plain h₂.1 h₂.2,
    compactQuoted_plain h₃.1 h₃.2, compactQuoted_plain h₄.1 h₄.2]

/-- An escaped character is kept, a blank too. -/
theorem compactQuoted_escape (c : Char) (rest : List Char) :
    compactQuoted (escape c ++ rest) = escape c ++ compactQuoted rest := by
  unfold escape
  cases hfind : shortEscapes.find? fun e => e.1 = c with
  | some e => rw [List.cons_append, List.cons_append, List.nil_append, compactQuoted]; rfl
  | none =>
    have hslash : c ≠ '\\' := by
      rintro rfl
      exact absurd hfind (by decide)
    have hquote : c ≠ '"' := by
      rintro rfl
      exact absurd hfind (by decide)
    dsimp only
    by_cases hplain : 32 ≤ c.toNat ∧ c.toNat < 127
    · rw [if_pos hplain]
      exact compactQuoted_plain hslash hquote rest
    · rw [if_neg hplain]
      by_cases hbmp : c.toNat < 65536
      · rw [if_pos hbmp, compactQuoted_hex]
      · rw [if_neg hbmp, List.append_assoc, compactQuoted_hex, compactQuoted_hex, List.append_assoc]

/-- **A quoted text is kept.** -/
theorem compact_quote (s : String) (rest : List Char) :
    compact (quote s ++ rest) = quote s ++ compact rest := by
  have hbody : ∀ text : List Char, compactQuoted (text.flatMap escape ++ '"' :: rest) =
      text.flatMap escape ++ '"' :: compact rest := by
    intro text
    induction text with
    | nil =>
      show compactQuoted ('"' :: rest) = '"' :: compact rest
      rw [compactQuoted, if_pos rfl]
      rintro x y ⟨⟩
    | cons c text ih =>
      rw [List.flatMap_cons, List.append_assoc, compactQuoted_escape, ih, List.append_assoc]
  unfold quote
  rw [List.cons_append, compact, if_neg (by decide), if_pos rfl, List.append_assoc]
  simp only [List.cons_append, List.nil_append, List.append_assoc, hbody]

/-! ## Values -/

section Values

variable {F : FloatText φ}

/-- What `compact` makes of the text of a value, in front of anything. -/
def Compacts (F : FloatText φ) (v : Value φ) : Prop :=
  ∀ depth rest, compact (indented F depth v ++ rest) = write F v ++ compact rest

theorem compacts_elements {values : List (Value φ)} (h : ∀ v ∈ values, Compacts F v) (depth : Nat)
    (rest : List Char) : compact (indentedElements F depth values ++ rest) =
      writeElements F values ++ compact rest := by
  induction values with
  | nil =>
    rw [indentedElements, writeElements, List.append_assoc, compact_newline]
    exact compact_plain (by decide) rest
  | cons v values ih =>
    have hrest := ih fun x hx => h x (List.mem_cons_of_mem v hx)
    rw [indentedElements, writeElements, List.cons_append, compact_plain (by decide),
      List.append_assoc, compact_newline, List.append_assoc, h v (List.mem_cons_self ..), hrest,
      List.cons_append, List.append_assoc]

/-- A key and its value, in front of the further entries. -/
theorem compacts_entry {key : String} {v : Value φ} (h : Compacts F v) (depth : Nat)
    (rest : List Char) :
    compact (newline depth ++ (quote key ++ ':' :: ' ' :: (indented F depth v ++ rest))) =
      quote key ++ ':' :: (write F v ++ compact rest) := by
  rw [compact_newline, compact_quote, compact_plain (by decide), compact_blank (Or.inl rfl), h]

theorem compacts_entries {entries : List (String × Value φ)} (h : ∀ e ∈ entries, Compacts F e.2)
    (depth : Nat) (rest : List Char) : compact (indentedEntries F depth entries ++ rest) =
      writeEntries F entries ++ compact rest := by
  induction entries with
  | nil =>
    rw [indentedEntries, writeEntries, List.append_assoc, compact_newline]
    exact compact_plain (by decide) rest
  | cons e entries ih =>
    have hrest := ih fun x hx => h x (List.mem_cons_of_mem e hx)
    have hentry := @compacts_entry φ F e.1 e.2 (h e (List.mem_cons_self ..)) (depth + 1)
    rw [indentedEntries, writeEntries, List.cons_append, compact_plain (by decide)]
    simp only [List.append_assoc, List.cons_append, hentry, hrest]

/-- **Without its blanks the indented text is the compact one.** -/
theorem compact_indented (v : Value φ) : Compacts F v := by
  induction v using Value.induction with
  | null =>
    have hword : ∀ c ∈ ['n', 'u', 'l', 'l'], Plain c := by decide
    exact fun depth rest => compact_plains hword rest
  | bool b =>
    have htrue : ∀ c ∈ ['t', 'r', 'u', 'e'], Plain c := by decide
    have hfalse : ∀ c ∈ ['f', 'a', 'l', 's', 'e'], Plain c := by decide
    intro depth rest
    cases b with
    | true => exact compact_plains htrue rest
    | false => exact compact_plains hfalse rest
  | int n => exact fun depth rest =>
      compact_plains (fun c hc => plain_of_number (intText_isNumber n c hc)) rest
  | float x => exact fun depth rest =>
      compact_plains (fun c hc => plain_of_number (F.chars x c hc)) rest
  | text s => exact fun depth rest => compact_quote s rest
  | array values ih =>
    intro depth rest
    cases values with
    | nil =>
      have hpair : ∀ c ∈ ['[', ']'], Plain c := by decide
      exact compact_plains hpair rest
    | cons v values =>
      have hrest := compacts_elements (fun x hx => ih x (List.mem_cons_of_mem v hx)) depth rest
      rw [indented, write, List.cons_append, compact_plain (by decide), List.append_assoc,
        compact_newline, List.append_assoc, ih v (List.mem_cons_self ..), hrest, List.cons_append,
        List.append_assoc]
  | object entries ih =>
    intro depth rest
    cases entries with
    | nil =>
      have hpair : ∀ c ∈ ['{', '}'], Plain c := by decide
      exact compact_plains hpair rest
    | cons e entries =>
      have hrest := compacts_entries (fun x hx => ih x (List.mem_cons_of_mem e hx)) depth rest
      have hentry := @compacts_entry φ F e.1 e.2 (ih e (List.mem_cons_self ..)) (depth + 1)
      rw [indented, write, List.cons_append, compact_plain (by decide)]
      simp only [List.append_assoc, List.cons_append, hentry, hrest]

/-- The indented text determines the value. -/
theorem indented_injective (depth : Nat) : Function.Injective (indented F depth) := by
  intro v w h
  have hv := @compact_indented φ F v depth []
  have hw := @compact_indented φ F w depth []
  rw [h, hw] at hv
  exact write_injective (List.append_cancel_right hv).symm

end Values

end CanonicalJson
