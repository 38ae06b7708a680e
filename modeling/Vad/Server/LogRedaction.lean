/-
  What the redaction of a log hides (`_redact_log_text` of `vad/server/app.py`).

  1. **Matches** (`Matched`) — the first pattern matches a text exactly if it is a secret marker, a
     sign among white space, a value token and a rest.  No marker contains another, so a marker that
     starts inside a match starts in its value (`starts_in_value`).

  2. **Scan** (`Scan`) — the positions at which `re.sub` looks for a match, each with what it has put
     out before it.  A marker is passed by without its value only if it stands in the value of a
     match and white space parts it from its own value (`HidesMarker`).

  3. **Two texts** (`DifferInValues`) — they are the same but for the values of markers that both
     have.  Unless a marker is hidden, both are scanned alike (`redacted_eq`); the value of a hidden
     marker can be read off the redaction (`leaks_of_hides`).

  4. **Result** (`logRedacted_iff`) — keys never show; values never do exactly if no marker is
     hidden.
-/
import Vad.Server.Dashboard

namespace Vad

open PyText (Text isSpace)

/-! ## Markers -/

/-- The small spellings of the markers. -/
def markerWords : List Text :=
  ["apikey", "api_key", "api-key", "token", "password", "secret", "privatekey", "private_key",
    "private-key"].map String.toList

/-- The text spells the word, case ignored. -/
def Spells (word text : Text) : Prop :=
  List.Forall₂ (fun letter c => sameLetter letter c = true) word text

/-- `api[_-]?key|token|password|secret|private[_-]?key`, in any case. -/
def IsMarker (name : Text) : Prop := ∃ word ∈ markerWords, Spells word name

theorem Spells.split {first second name : Text} (h : Spells (first ++ second) name) :
    ∃ taken more, name = taken ++ more ∧ Spells first taken ∧ Spells second more := by
  refine ⟨name.take first.length, name.drop first.length, (List.take_append_drop ..).symm, ?_, ?_⟩
  · have htaken := List.forall₂_take first.length h
    rwa [List.take_left] at htaken
  · have hmore := List.forall₂_drop first.length h
    rwa [List.drop_left] at hmore

theorem Spells.join {first second taken more : Text} (h : Spells first taken)
    (h' : Spells second more) : Spells (first ++ second) (taken ++ more) :=
  List.rel_append h h'

theorem takeWord_iff {word t taken rest : Text} : takeWord word t = some (taken, rest) ↔
    t = taken ++ rest ∧ Spells word taken := by
  unfold Spells
  induction word generalizing t taken with
  | nil =>
    unfold takeWord
    rw [List.forall₂_nil_left_iff, Option.some.injEq, Prod.mk.injEq]
    constructor
    · rintro ⟨rfl, rfl⟩
      exact ⟨rfl, rfl⟩
    · rintro ⟨h, rfl⟩
      exact ⟨rfl, h⟩
  | cons letter word ih =>
    cases t with
    | nil =>
      refine ⟨fun h => (nomatch h), ?_⟩
      rintro ⟨h, hword⟩
      obtain ⟨rfl, -⟩ := List.append_eq_nil_iff.mp h.symm
      cases hword
    | cons c t =>
      unfold takeWord
      constructor
      · intro h
        by_cases hc : sameLetter letter c = true
        · rw [if_pos hc] at h
          obtain ⟨⟨more, rest'⟩, hmore, heq⟩ := Option.map_eq_some_iff.mp h
          obtain ⟨rfl, rfl⟩ := Prod.mk.inj heq
          obtain ⟨rfl, hword⟩ := ih.mp hmore
          exact ⟨rfl, List.Forall₂.cons hc hword⟩
        · rw [if_neg hc] at h
          cases h
      · rintro ⟨h, hword⟩
        obtain ⟨c', more, hc, hmore, rfl⟩ := List.forall₂_cons_left_iff.mp hword
        rw [List.cons_append] at h
        obtain ⟨rfl, rfl⟩ := List.cons.inj h
        rw [if_pos hc, ih.mpr ⟨rfl, hmore⟩]
        rfl

/-- The spelling of the two words with the separator or without one. -/
theorem takeWords_iff {first second t name rest : Text} {letter : Char} {word : Text}
    (hsecond : second = letter :: word) (hunder : sameLetter letter '_' = false)
    (hdash : sameLetter letter '-' = false) : takeWords first second t = some (name, rest) ↔
      t = name ++ rest ∧ ∃ separator ∈ [[], ['_'], ['-']],
        Spells (first ++ (separator ++ second)) name := by
  have hsame {x c : Char} (h : x = '_' ∨ x = '-') : sameLetter x c = true ↔ c = x := by
    rcases h with rfl | rfl <;> simp [sameLetter]
  unfold takeWords
  constructor
  · intro h
    obtain ⟨⟨taken, more⟩, htaken, h⟩ := Option.bind_eq_some_iff.mp h
    obtain ⟨⟨taken', rest'⟩, htaken', h⟩ := Option.bind_eq_some_iff.mp h
    obtain ⟨rfl, rfl⟩ := Prod.mk.inj (Option.some.inj h)
    obtain ⟨rfl, hfirst⟩ := takeWord_iff.mp htaken
    obtain ⟨hmore, hsec⟩ := takeWord_iff.mp htaken'
    have hsep : ∃ separator ∈ [[], ['_'], ['-']],
        ((more.take 1).filter fun c => c = '_' || c = '-') = separator ∧
          more = separator ++ more.drop separator.length := by
      cases more with
      | nil => exact ⟨[], by decide, rfl, rfl⟩
      | cons c more =>
        by_cases hc : c = '_' ∨ c = '-'
        · refine ⟨[c], ?_, ?_, rfl⟩
          · rcases hc with rfl | rfl <;> decide
          · rcases hc with rfl | rfl <;> rfl
        · refine ⟨[], by decide, ?_, rfl⟩
          have hnot : (decide (c = '_') || decide (c = '-')) = false := by simpa using hc
          exact List.filter_cons_of_neg (by simp [hnot])
    obtain ⟨separator, hin, hfilter, hsplit⟩ := hsep
    rw [hfilter] at hmore ⊢
    refine ⟨?_, separator, hin, ?_⟩
    · rw [hsplit, hmore]
      simp only [List.append_assoc]
    · rw [List.append_assoc]
      refine hfirst.join (Spells.join ?_ hsec)
      simp only [List.mem_cons, List.not_mem_nil, or_false] at hin
      rcases hin with rfl | rfl | rfl
      · exact List.Forall₂.nil
      · exact List.Forall₂.cons ((hsame (Or.inl rfl)).mpr rfl) List.Forall₂.nil
      · exact List.Forall₂.cons ((hsame (Or.inr rfl)).mpr rfl) List.Forall₂.nil
  · rintro ⟨rfl, separator, hin, hname⟩
    obtain ⟨taken, more, rfl, hfirst, hmore⟩ := hname.split
    obtain ⟨between, taken', rfl, hbetween, hsec⟩ := hmore.split
    obtain rfl : between = separator := by
      simp only [List.mem_cons, List.not_mem_nil, or_false] at hin
      rcases hin with rfl | rfl | rfl
      · exact List.forall₂_nil_left_iff.mp hbetween
      · obtain ⟨c, u, hc, hu, rfl⟩ := List.forall₂_cons_left_iff.mp hbetween
        rw [List.forall₂_nil_left_iff.mp hu, (hsame (Or.inl rfl)).mp hc]
      · obtain ⟨c, u, hc, hu, rfl⟩ := List.forall₂_cons_left_iff.mp hbetween
        rw [List.forall₂_nil_left_iff.mp hu, (hsame (Or.inr rfl)).mp hc]
    have hfilter : (((between ++ (taken' ++ rest)).take 1).filter fun c => c = '_' || c = '-') =
        between := by
      simp only [List.mem_cons, List.not_mem_nil, or_false] at hin
      rcases hin with rfl | rfl | rfl
      · -- the second word starts with none of the separators
        obtain ⟨c, u, hc, -, rfl⟩ := List.forall₂_cons_left_iff.mp (hsecond ▸ hsec)
        have hnot : (decide (c = '_') || decide (c = '-')) = false := by
          rw [Bool.or_eq_false_iff, decide_eq_false_iff_not, decide_eq_false_iff_not]
          refine ⟨fun h => ?_, fun h => ?_⟩
          · rw [h, hunder] at hc
            cases hc
          · rw [h, hdash] at hc
            cases hc
        exact List.filter_cons_of_neg (by simp [hnot])
      · rfl
      · rfl
    rw [List.append_assoc, List.append_assoc]
    refine Option.bind_eq_some_iff.mpr ⟨_, takeWord_iff.mpr ⟨rfl, hfirst⟩, ?_⟩
    dsimp only
    rw [hfilter]
    refine Option.bind_eq_some_iff.mpr ⟨(taken', rest), takeWord_iff.mpr ⟨?_, hsec⟩, ?_⟩
    · exact List.drop_left
    · rw [← List.append_assoc]
      rfl

theorem takeSecretName_of {t name rest : Text} (h : takeSecretName t = some (name, rest)) :
    t = name ++ rest ∧ IsMarker name := by
  have hwords (first : Text) (hin : ∀ separator ∈ [[], ['_'], ['-']],
      first ++ (separator ++ "key".toList) ∈ markerWords)
      (h : takeWords first "key".toList t = some (name, rest)) :
      t = name ++ rest ∧ IsMarker name := by
    obtain ⟨hsplit, separator, hsep, hname⟩ := (takeWords_iff rfl (by decide) (by decide)).mp h
    exact ⟨hsplit, _, hin separator hsep, hname⟩
  have hword (word : Text) (hin : word ∈ markerWords) (h : takeWord word t = some (name, rest)) :
      t = name ++ rest ∧ IsMarker name := by
    obtain ⟨hsplit, hname⟩ := takeWord_iff.mp h
    exact ⟨hsplit, word, hin, hname⟩
  unfold takeSecretName at h
  simp only [Option.orElse_eq_orElse, Option.orElse_eq_or, Option.or_eq_some_iff] at h
  rcases h with h | ⟨-, h | ⟨-, h | ⟨-, h | ⟨-, h⟩⟩⟩⟩
  · exact hwords "api".toList (by decide) h
  · exact hword "token".toList (by decide) h
  · exact hword "password".toList (by decide) h
  · exact hword "secret".toList (by decide) h
  · exact hwords "private".toList (by decide) h

/-- The letters of the markers. -/
def markerLetters : List Char := "acdeiknoprstvwy_-".toList

/-- The characters that are not letters of the markers but stand for one. -/
def oddLetters : List Char :=
  [Char.ofNat 0x212a, Char.ofNat 0x17f, Char.ofNat 0x130, Char.ofNat 0x131]

theorem sameLetter_mem {letter c : Char} (h : sameLetter letter c = true) :
    c ∈ letter :: letter.toUpper :: oddLetters := by
  have hodd {n : ℕ} (hc : c.toNat = n) : c = Char.ofNat n := by
    rw [← hc, Char.ofNat_toNat]
  unfold sameLetter at h
  simp only [Bool.or_eq_true, Bool.and_eq_true, decide_eq_true_eq] at h
  unfold oddLetters
  simp only [List.mem_cons, List.not_mem_nil, or_false]
  rcases h with (((h | h) | ⟨-, h⟩) | ⟨-, h⟩) | ⟨-, h | h⟩
  · exact Or.inl h
  · exact Or.inr (Or.inl h)
  · exact Or.inr (Or.inr (Or.inl (hodd h)))
  · exact Or.inr (Or.inr (Or.inr (Or.inl (hodd h))))
  · exact Or.inr (Or.inr (Or.inr (Or.inr (Or.inl (hodd h)))))
  · exact Or.inr (Or.inr (Or.inr (Or.inr (Or.inr (hodd h)))))

/-- A character stands for one letter. -/
theorem sameLetter_unique {letter letter' c : Char} (hletter : letter ∈ markerLetters)
    (hletter' : letter' ∈ markerLetters) (h : sameLetter letter c = true)
    (h' : sameLetter letter' c = true) : letter = letter' := by
  have hall : ∀ a ∈ markerLetters, ∀ c ∈ a :: a.toUpper :: oddLetters, sameLetter a c = true →
      ∀ b ∈ markerLetters, sameLetter b c = true → a = b := by decide
  exact hall letter hletter c (sameLetter_mem h) h letter' hletter' h'

theorem letters_of_marker {word : Text} (h : word ∈ markerWords) :
    ∀ letter ∈ word, letter ∈ markerLetters := by
  have hall : ∀ word ∈ markerWords, ∀ letter ∈ word, letter ∈ markerLetters := by decide
  exact hall word h

/-- A text spells one word. -/
theorem spells_unique {word word' text : Text} (hword : ∀ letter ∈ word, letter ∈ markerLetters)
    (hword' : ∀ letter ∈ word', letter ∈ markerLetters) (h : Spells word text)
    (h' : Spells word' text) : word = word' := by
  induction text generalizing word word' with
  | nil => rw [List.forall₂_nil_right_iff.mp h, List.forall₂_nil_right_iff.mp h']
  | cons c text ih =>
    obtain ⟨a, rest, ha, hrest, rfl⟩ := List.forall₂_cons_right_iff.mp h
    obtain ⟨b, rest', hb, hrest', rfl⟩ := List.forall₂_cons_right_iff.mp h'
    obtain ⟨hain, hin⟩ := List.forall_mem_cons.mp hword
    obtain ⟨hbin, hin'⟩ := List.forall_mem_cons.mp hword'
    rw [sameLetter_unique hain hbin ha hb, ih hin hin' hrest hrest']

theorem Spells.split_text {word taken more : Text} (h : Spells word (taken ++ more)) :
    ∃ first second, word = first ++ second ∧ Spells first taken ∧ Spells second more := by
  refine ⟨word.take taken.length, word.drop taken.length, (List.take_append_drop ..).symm, ?_, ?_⟩
  · have htaken := List.forall₂_take taken.length h
    rwa [List.take_left] at htaken
  · have hmore := List.forall₂_drop taken.length h
    rwa [List.drop_left] at hmore

/-- No marker is a part of another. -/
theorem IsMarker.apart {before name after : Text} (h : IsMarker (before ++ (name ++ after)))
    (hname : IsMarker name) : before = [] ∧ after = [] := by
  obtain ⟨whole, hwhole, hspells⟩ := h
  obtain ⟨part, hpart, hpart'⟩ := hname
  obtain ⟨front, others, rfl, hfront, hothers⟩ := hspells.split_text
  obtain ⟨middle, back, rfl, hmiddle, hback⟩ := hothers.split_text
  have hletters := letters_of_marker hwhole
  have hsame : middle = part := spells_unique (fun letter hletter => hletters letter
    (List.mem_append_right _ (List.mem_append_left _ hletter))) (letters_of_marker hpart) hmiddle
    hpart'
  have hapart : ∀ whole ∈ markerWords, ∀ part ∈ markerWords, part <:+: whole →
      part.length = whole.length := by decide +kernel
  have hlength := hapart _ hwhole part hpart (hsame ▸ ⟨front, back, List.append_assoc ..⟩)
  rw [← hsame, List.length_append, List.length_append] at hlength
  have hnil : front.length = 0 ∧ back.length = 0 := by omega
  rw [List.length_eq_zero_iff, List.length_eq_zero_iff] at hnil
  rw [hnil.1] at hfront
  rw [hnil.2] at hback
  exact ⟨List.forall₂_nil_left_iff.mp hfront, List.forall₂_nil_left_iff.mp hback⟩

theorem IsMarker.ne_nil {name : Text} (h : IsMarker name) : name ≠ [] := by
  rintro rfl
  obtain ⟨word, hin, hword⟩ := h
  have hall : ∀ word ∈ markerWords, word ≠ [] := by decide
  exact hall word hin (List.forall₂_nil_right_iff.mp hword)

/-- A character of a marker is no white space, no sign and no separator of values. -/
theorem IsMarker.plain {name : Text} (h : IsMarker name) :
    ∀ c ∈ name, isSpace c = false ∧ c ≠ ':' ∧ c ≠ '=' ∧ valueChar c = true := by
  intro c hc
  obtain ⟨word, hin, hword⟩ := h
  obtain ⟨before, after, rfl⟩ := List.append_of_mem hc
  obtain ⟨front, others, rfl, -, hothers⟩ := hword.split_text
  obtain ⟨letter, back, hletter, -, rfl⟩ := List.forall₂_cons_right_iff.mp hothers
  have hin := letters_of_marker hin letter
    (List.mem_append_right _ (List.mem_cons_self ..))
  have hall : ∀ a ∈ markerLetters, ∀ c ∈ a :: a.toUpper :: oddLetters,
      isSpace c = false ∧ c ≠ ':' ∧ c ≠ '=' ∧ valueChar c = true := by decide
  exact hall letter hin c (sameLetter_mem hletter)

/-- The first character of a marker is none of `0` and `1`. -/
theorem IsMarker.head {c : Char} {name : Text} (h : IsMarker (c :: name)) : c ≠ '0' ∧ c ≠ '1' := by
  obtain ⟨word, hin, hword⟩ := h
  obtain ⟨letter, back, hletter, -, rfl⟩ := List.forall₂_cons_right_iff.mp hword
  have hin := letters_of_marker hin letter (List.mem_cons_self ..)
  have hall : ∀ a ∈ markerLetters, ∀ c ∈ a :: a.toUpper :: oddLetters, c ≠ '0' ∧ c ≠ '1' := by
    decide +kernel
  exact hall letter hin c (sameLetter_mem hletter)

theorem takeSecretName_iff {t name rest : Text} : takeSecretName t = some (name, rest) ↔
    t = name ++ rest ∧ IsMarker name := by
  refine ⟨takeSecretName_of, ?_⟩
  rintro ⟨rfl, hmarker⟩
  have hsome : takeSecretName (name ++ rest) ≠ none := by
    intro hnone
    unfold takeSecretName at hnone
    simp only [Option.orElse_eq_orElse, Option.orElse_eq_or, Option.or_eq_none_iff] at hnone
    obtain ⟨hapi, htoken, hpassword, hsecret, hprivate⟩ := hnone
    have hwords (first separator : Text) (hin : separator ∈ [[], ['_'], ['-']])
        (hnone : takeWords first "key".toList (name ++ rest) = none)
        (hspells : Spells (first ++ (separator ++ "key".toList)) name) : False := by
      have hfound : takeWords first "key".toList (name ++ rest) = some (name, rest) :=
        (takeWords_iff rfl (by decide) (by decide)).mpr ⟨rfl, separator, hin, hspells⟩
      rw [hfound] at hnone
      cases hnone
    have hword (word : Text) (hnone : takeWord word (name ++ rest) = none)
        (hspells : Spells word name) : False := by
      rw [takeWord_iff.mpr ⟨rfl, hspells⟩] at hnone
      cases hnone
    obtain ⟨word, hin, hspells⟩ := hmarker
    unfold markerWords at hin
    simp only [List.map_cons, List.map_nil, List.mem_cons, List.not_mem_nil, or_false] at hin
    rcases hin with rfl | rfl | rfl | rfl | rfl | rfl | rfl | rfl | rfl
    · exact hwords _ [] (by decide) hapi hspells
    · exact hwords _ ['_'] (by decide) hapi hspells
    · exact hwords _ ['-'] (by decide) hapi hspells
    · exact hword _ htoken hspells
    · exact hword _ hpassword hspells
    · exact hword _ hsecret hspells
    · exact hwords _ [] (by decide) hprivate hspells
    · exact hwords _ ['_'] (by decide) hprivate hspells
    · exact hwords _ ['-'] (by decide) hprivate hspells
  obtain ⟨⟨name', rest'⟩, hfound⟩ := Option.ne_none_iff_exists'.mp hsome
  obtain ⟨hsplit, hmarker'⟩ := takeSecretName_of hfound
  -- one of two markers at one place is a part of the other
  rw [hfound]
  rcases List.append_eq_append_iff.mp hsplit with ⟨more, rfl, rfl⟩ | ⟨more, rfl, rfl⟩
  · obtain ⟨-, rfl⟩ := @IsMarker.apart [] name more hmarker' hmarker
    rw [List.append_nil]
    rfl
  · obtain ⟨-, rfl⟩ := @IsMarker.apart [] name' more hmarker hmarker'
    rw [List.append_nil]
    rfl

/-! ## Matches of the first pattern -/

/-- A sign among white space. -/
def IsSign (sign : Text) : Prop :=
  ∃ before c after, sign = before ++ c :: after ∧ (∀ x ∈ before, isSpace x = true) ∧
    (c = ':' ∨ c = '=') ∧ ∀ x ∈ after, isSpace x = true

/-- No character of a value comes next. -/
def ValueEnds (rest : Text) : Prop := ∀ c ∈ rest.head?, valueChar c = false

/-- A token of a value: a run of its characters that ends where the rest starts. -/
structure ValueToken (value rest : Text) : Prop where
  nonempty : value ≠ []
  chars : ∀ c ∈ value, valueChar c = true
  ends : ValueEnds rest

/-- The parts of a match and the rest of the text. -/
structure Matched (name sign value rest : Text) : Prop where
  marker : IsMarker name
  sign : IsSign sign
  token : ValueToken value rest

/-- A run of a text that ends with its characters is where they end. -/
theorem run_eq {p : Char → Bool} {run rest : Text} (hrun : ∀ c ∈ run, p c = true)
    (hrest : ∀ c ∈ rest.head?, p c = false) :
    (run ++ rest).takeWhile p = run ∧ (run ++ rest).dropWhile p = rest := by
  rw [List.takeWhile_append_of_pos hrun, List.dropWhile_append_of_pos hrun]
  cases rest with
  | nil => exact ⟨List.append_nil run, rfl⟩
  | cons c rest =>
    have hc : ¬ p c = true := by simpa using hrest c rfl
    rw [List.takeWhile_cons_of_neg hc, List.dropWhile_cons_of_neg hc, List.append_nil]
    exact ⟨rfl, rfl⟩

theorem run_unique {p : Char → Bool} {run run' rest rest' : Text} (hrun : ∀ c ∈ run, p c = true)
    (hrest : ∀ c ∈ rest.head?, p c = false) (hrun' : ∀ c ∈ run', p c = true)
    (hrest' : ∀ c ∈ rest'.head?, p c = false) (h : run ++ rest = run' ++ rest') :
    run = run' ∧ rest = rest' := by
  have hfirst := run_eq hrun hrest
  have hsecond := run_eq hrun' hrest'
  rw [h] at hfirst
  exact ⟨hfirst.1.symm.trans hsecond.1, hfirst.2.symm.trans hsecond.2⟩

theorem space_not_value {c : Char} (h : isSpace c = true) : valueChar c = false := by
  unfold valueChar
  rw [h, Bool.or_true]
  rfl

theorem value_not_space {c : Char} (h : valueChar c = true) : isSpace c = false := by
  by_contra hspace
  rw [space_not_value (by simpa using hspace)] at h
  cases h

theorem ends_dropWhile (t : Text) : ValueEnds (t.dropWhile valueChar) := by
  intro c hc
  have hnot := List.head?_dropWhile_not valueChar t
  rw [Option.mem_def.mp hc] at hnot
  exact hnot

theorem takeAssignment_iff {t out rest : Text} : takeAssignment t = some (out, rest) ↔
    ∃ name sign value, t = name ++ (sign ++ (value ++ rest)) ∧ Matched name sign value rest ∧
      out = name ++ "=[REDACTED]".toList := by
  unfold takeAssignment
  constructor
  · intro h
    obtain ⟨⟨name, more⟩, hname, hbody⟩ := Option.bind_eq_some_iff.mp h
    obtain ⟨rfl, hmarker⟩ := takeSecretName_iff.mp hname
    have hmore := (@List.takeWhile_append_dropWhile _ isSpace more).symm
    dsimp only at hbody
    cases hdrop : more.dropWhile isSpace with
    | nil =>
      rw [hdrop] at hbody
      cases hbody
    | cons c after =>
      rw [hdrop] at hbody hmore
      dsimp only at hbody
      split at hbody
      · rename_i hsign
        split at hbody
        · cases hbody
        · rename_i hvalue
          obtain ⟨rfl, rfl⟩ := Prod.mk.inj (Option.some.inj hbody)
          refine ⟨name, more.takeWhile isSpace ++ c :: after.takeWhile isSpace,
            (after.dropWhile isSpace).takeWhile valueChar, ?_, ⟨hmarker, ?_, ?_⟩, rfl⟩
          · rw [List.takeWhile_append_dropWhile, List.append_assoc, List.cons_append,
              List.takeWhile_append_dropWhile, ← hmore]
          · refine ⟨_, c, _, rfl, fun x hx => List.mem_takeWhile_imp hx, ?_,
              fun x hx => List.mem_takeWhile_imp hx⟩
            simpa using hsign
          · refine ⟨fun h => hvalue (by rw [h]; rfl), fun x hx => List.mem_takeWhile_imp hx, ?_⟩
            exact ends_dropWhile _
      · cases hbody
  · rintro ⟨name, sign, value, rfl,
      ⟨hmarker, ⟨before, c, after, rfl, hbefore, hsign, hafter⟩, hvalue⟩, rfl⟩
    refine Option.bind_eq_some_iff.mpr ⟨_, takeSecretName_iff.mpr ⟨rfl, hmarker⟩, ?_⟩
    have hc : isSpace c = false := by rcases hsign with rfl | rfl <;> decide
    have hdrop : ((before ++ c :: after) ++ (value ++ rest)).dropWhile isSpace =
        c :: (after ++ (value ++ rest)) := by
      rw [List.append_assoc]
      refine (run_eq hbefore fun x hx => ?_).2
      obtain rfl := Option.some.inj hx
      exact hc
    have hstart : (after ++ (value ++ rest)).dropWhile isSpace = value ++ rest := by
      refine (run_eq hafter fun x hx => ?_).2
      obtain ⟨v, more, rfl⟩ := List.exists_cons_of_ne_nil hvalue.nonempty
      obtain rfl := Option.some.inj hx
      exact value_not_space (hvalue.chars _ (List.mem_cons_self ..))
    obtain ⟨htake, hrest⟩ := run_eq hvalue.chars hvalue.ends
    dsimp only
    rw [hdrop]
    dsimp only
    rw [if_pos (by simpa using hsign), hstart, htake, hrest, if_neg]
    rw [List.isEmpty_iff]
    exact hvalue.nonempty

/-- What stands between a marker and its value. -/
def Between (c : Char) : Prop := isSpace c = true ∨ c = ':' ∨ c = '='

theorem IsSign.between {sign : Text} (h : IsSign sign) : ∀ c ∈ sign, Between c := by
  obtain ⟨before, sign, after, rfl, hbefore, hsign, hafter⟩ := h
  intro c hc
  rcases List.mem_append.mp hc with hc | hc
  · exact Or.inl (hbefore c hc)
  rcases List.mem_cons.mp hc with rfl | hc
  · exact Or.inr hsign
  · exact Or.inl (hafter c hc)

theorem IsSign.ne_nil {sign : Text} (h : IsSign sign) : sign ≠ [] := by
  obtain ⟨before, c, after, rfl, -⟩ := h
  simp

theorem IsMarker.not_between {name : Text} (h : IsMarker name) : ∀ c ∈ name, ¬ Between c := by
  intro c hc hbetween
  obtain ⟨hspace, hcolon, hequals, -⟩ := h.plain c hc
  rcases hbetween with h | h | h
  · rw [hspace] at h
    cases h
  · exact hcolon h
  · exact hequals h

/-- No marker starts between another and its value. -/
theorem IsMarker.head_ne {name more u : Text} {c : Char} (h : IsMarker name)
    (heq : name ++ more = c :: u) : ¬ Between c := by
  obtain ⟨letter, rest, rfl⟩ := List.exists_cons_of_ne_nil h.ne_nil
  obtain ⟨rfl, -⟩ := List.cons.inj heq
  exact h.not_between _ (List.mem_cons_self ..)

/-- A marker that starts inside a match starts in its value. -/
theorem starts_in_value {name sign value rest before name' more : Text}
    (h : Matched name sign value rest) (hmarker : IsMarker name')
    (heq : name ++ (sign ++ (value ++ rest)) = before ++ (name' ++ more)) (hne : before ≠ [])
    (hlt : before.length < (name ++ (sign ++ value)).length) :
    ∃ v₁ v₂, value = v₁ ++ v₂ ∧ v₂ ≠ [] ∧ before = name ++ (sign ++ v₁) ∧
      v₂ ++ rest = name' ++ more := by
  have hsign : ∀ {u w : Text}, u ≠ [] → (∀ c ∈ u, c ∈ sign) → name' ++ more = u ++ w → False := by
    intro u w hu hin heq
    obtain ⟨c, u', rfl⟩ := List.exists_cons_of_ne_nil hu
    exact hmarker.head_ne heq (h.sign.between c (hin c (List.mem_cons_self ..)))
  rcases List.append_eq_append_iff.mp heq with ⟨mid, rfl, hmid⟩ | ⟨part, rfl, hpart⟩
  · rcases List.append_eq_append_iff.mp hmid with ⟨v₁, rfl, hv⟩ | ⟨gap, rfl, hgap⟩
    · have hshort : v₁.length < value.length := by
        simp only [List.length_append] at hlt
        omega
      rcases List.append_eq_append_iff.mp hv with ⟨further, rfl, -⟩ | ⟨v₂, rfl, hv₂⟩
      · rw [List.length_append] at hshort
        omega
      · refine ⟨v₁, v₂, rfl, fun hnil => ?_, rfl, hv₂.symm⟩
        rw [hnil, List.append_nil] at hshort
        exact lt_irrefl _ hshort
    · rcases List.eq_nil_or_concat' gap with rfl | hgap'
      · -- the marker starts where the value does
        refine ⟨[], value, rfl, h.token.nonempty, ?_, hgap.symm⟩
        rw [List.append_nil, List.append_nil]
      · refine (hsign ?_ (fun c hc => List.mem_append_right mid hc) hgap).elim
        rintro rfl
        obtain ⟨u, c, hc⟩ := hgap'
        exact absurd hc (by simp)
  · rcases List.append_eq_append_iff.mp hpart with ⟨after, rfl, -⟩ | ⟨further, rfl, hfurther⟩
    · exact absurd (@IsMarker.apart before name' after h.marker hmarker).1 hne
    · cases further with
      | nil =>
        have hwhole : IsMarker (before ++ (part ++ [] ++ [])) := by
          rw [List.append_nil, List.append_nil]
          exact h.marker
        exact absurd (IsMarker.apart hwhole hmarker).1 hne
      | cons c further =>
        -- the marker would go on where the sign starts
        obtain ⟨x, sign', rfl⟩ := List.exists_cons_of_ne_nil h.sign.ne_nil
        obtain rfl : x = c := (List.cons.inj hfurther).1
        exact absurd (h.sign.between x (List.mem_cons_self ..))
          (hmarker.not_between x (List.mem_append_right part (List.mem_cons_self ..)))

/-! ## Replacing the matches -/

section Substitute

variable {matchAt : Text → Option (Text × Text)}

/-- Every match takes a character at least. -/
def Shrinks (matchAt : Text → Option (Text × Text)) : Prop :=
  ∀ t replacement rest, matchAt t = some (replacement, rest) → rest.length < t.length

/-- All matches of the text are replaced. -/
def replaced (matchAt : Text → Option (Text × Text)) (t : Text) : Text :=
  subMatches matchAt t.length t

theorem subMatches_skip {n : ℕ} {c : Char} {t : Text} (h : matchAt (c :: t) = none) :
    subMatches matchAt (n + 1) (c :: t) = c :: subMatches matchAt n t := by
  rw [subMatches, h]

theorem subMatches_found {n : ℕ} {c : Char} {t replacement rest : Text}
    (h : matchAt (c :: t) = some (replacement, rest)) :
    subMatches matchAt (n + 1) (c :: t) = replacement ++ subMatches matchAt n rest := by
  rw [subMatches, h]

/-- More turns than characters change nothing. -/
theorem subMatches_fuel (h : Shrinks matchAt) {n : ℕ} {t : Text} (hn : t.length ≤ n) :
    subMatches matchAt n t = replaced matchAt t := by
  unfold replaced
  induction hlen : t.length using Nat.strong_induction_on generalizing n t with
  | _ len ih =>
    subst hlen
    cases t with
    | nil => cases n <;> rfl
    | cons c t =>
      obtain ⟨m, rfl⟩ : ∃ m, n = m + 1 := Nat.exists_eq_succ_of_ne_zero (by
        rw [List.length_cons] at hn
        omega)
      rw [List.length_cons] at hn ⊢
      cases hmatch : matchAt (c :: t) with
      | none =>
        rw [subMatches_skip hmatch, subMatches_skip hmatch,
          @ih t.length (Nat.lt_succ_self _) m t (by omega) rfl]
      | some found =>
        obtain ⟨replacement, rest⟩ := found
        have hshort := h _ _ _ hmatch
        rw [List.length_cons] at hshort
        rw [subMatches_found hmatch, subMatches_found hmatch,
          @ih rest.length (by simpa using hshort) m rest (by omega) rfl,
          @ih rest.length (by simpa using hshort) t.length rest (by omega) rfl]

theorem replaced_skip {c : Char} {t : Text} (h : matchAt (c :: t) = none) :
    replaced matchAt (c :: t) = c :: replaced matchAt t := subMatches_skip h

theorem replaced_match (hshrinks : Shrinks matchAt) {t replacement rest : Text}
    (h : matchAt t = some (replacement, rest)) :
    replaced matchAt t = replacement ++ replaced matchAt rest := by
  have hshort := hshrinks _ _ _ h
  cases t with
  | nil => exact absurd hshort (Nat.not_lt_zero _)
  | cons c t =>
    rw [List.length_cons] at hshort
    unfold replaced
    rw [List.length_cons, subMatches_found h, subMatches_fuel hshrinks (by omega)]
    rfl

/-- A match is looked for at the start of what is left of the text (last), after what was passed
    (first) and replaced by what was put out. -/
inductive Scan (matchAt : Text → Option (Text × Text)) : Text → Text → Text → Prop
  | start (t : Text) : Scan matchAt [] [] t
  | skip {passed out t : Text} {c : Char} : Scan matchAt passed out (c :: t) →
      matchAt (c :: t) = none → Scan matchAt (passed ++ [c]) (out ++ [c]) t
  | jump {passed out taken rest replacement : Text} : Scan matchAt passed out (taken ++ rest) →
      matchAt (taken ++ rest) = some (replacement, rest) →
      Scan matchAt (passed ++ taken) (out ++ replacement) rest

theorem Scan.replaced_eq (hshrinks : Shrinks matchAt) {passed out t : Text}
    (h : Scan matchAt passed out t) :
    replaced matchAt (passed ++ t) = out ++ replaced matchAt t := by
  induction h with
  | start t => rfl
  | skip _ hmatch ih =>
    rw [List.append_assoc, List.append_assoc, List.singleton_append, List.singleton_append, ih,
      replaced_skip hmatch]
  | jump _ hmatch ih =>
    rw [List.append_assoc, List.append_assoc, ih, replaced_match hshrinks hmatch]

theorem Scan.skip_all {passed out more t : Text} (h : Scan matchAt passed out (more ++ t))
    (hnone : ∀ c ∈ more, ∀ u, matchAt (c :: u) = none) :
    Scan matchAt (passed ++ more) (out ++ more) t := by
  induction more generalizing passed out with
  | nil =>
    rw [List.append_nil, List.append_nil]
    exact h
  | cons c more ih =>
    have hnext := ih (Scan.skip h (hnone c (List.mem_cons_self ..) _))
      fun c' hc' => hnone c' (List.mem_cons_of_mem c hc')
    rw [List.append_assoc, List.append_assoc] at hnext
    exact hnext

end Substitute

theorem takeAssignment_shrinks : Shrinks takeAssignment := by
  intro t out rest h
  obtain ⟨name, sign, value, rfl, hassigned, -⟩ := takeAssignment_iff.mp h
  have hpos := List.length_pos_of_ne_nil hassigned.marker.ne_nil
  simp only [List.length_append]
  omega

/-- What starts no marker is passed. -/
theorem takeAssignment_none {c : Char} {t : Text} (h : ∀ name, ¬ IsMarker (c :: name)) :
    takeAssignment (c :: t) = none := by
  by_contra hne
  obtain ⟨⟨out, rest⟩, hsome⟩ := Option.ne_none_iff_exists'.mp hne
  obtain ⟨name, sign, value, hsplit, hassigned, -⟩ := takeAssignment_iff.mp hsome
  obtain ⟨letter, name', rfl⟩ := List.exists_cons_of_ne_nil hassigned.marker.ne_nil
  obtain ⟨rfl, -⟩ := List.cons.inj hsplit
  exact h _ hassigned.marker

theorem between_none {c : Char} {t : Text} (h : Between c) : takeAssignment (c :: t) = none :=
  takeAssignment_none fun _ hmarker => hmarker.not_between c (List.mem_cons_self ..) h

theorem Scan.jump_assigned {passed out name sign value rest : Text}
    (h : Scan takeAssignment passed out (name ++ (sign ++ (value ++ rest))))
    (hassigned : Matched name sign value rest) :
    Scan takeAssignment (passed ++ (name ++ (sign ++ value)))
      (out ++ (name ++ "=[REDACTED]".toList)) rest := by
  have hassoc : name ++ (sign ++ (value ++ rest)) = (name ++ (sign ++ value)) ++ rest := by
    simp only [List.append_assoc]
  refine Scan.jump (hassoc ▸ h) ?_
  rw [← hassoc]
  exact takeAssignment_iff.mpr ⟨name, sign, value, rfl, hassigned, rfl⟩

/-! ## Hidden markers -/

/-- The text starts with a match, in whose value another marker stands that white space parts from
    its own value. -/
def HidesNext (t : Text) : Prop :=
  ∃ name sign v₁ v₂ rest, t = name ++ (sign ++ ((v₁ ++ v₂) ++ rest)) ∧
    Matched name sign (v₁ ++ v₂) rest ∧
    ∃ name' sign' value' rest', v₂ ++ rest = name' ++ (sign' ++ (value' ++ rest')) ∧
      Matched name' sign' value' rest' ∧ ∃ c ∈ sign', isSpace c = true

/-- A marker stands in the value of another, and white space parts it from its own value. -/
def HidesMarker (t : Text) : Prop := ∃ before after, t = before ++ after ∧ HidesNext after

/-- Without white space the value of an inner marker ends where the outer one does. -/
theorem inner_value {v rest name sign value rest' : Text} (hv : ∀ c ∈ v, valueChar c = true)
    (hrest : ValueEnds rest) (h : Matched name sign value rest')
    (hspace : ¬ ∃ c ∈ sign, isSpace c = true)
    (heq : v ++ rest = name ++ (sign ++ (value ++ rest'))) :
    v = name ++ (sign ++ value) ∧ rest = rest' := by
  have hchars : ∀ c ∈ name ++ (sign ++ value), valueChar c = true := by
    intro c hc
    rcases List.mem_append.mp hc with hc | hc
    · exact (h.marker.plain c hc).2.2.2
    rcases List.mem_append.mp hc with hc | hc
    · rcases h.sign.between c hc with hs | rfl | rfl
      · exact absurd ⟨c, hc, hs⟩ hspace
      · decide
      · decide
    · exact h.token.chars c hc
  refine run_unique hv hrest hchars h.token.ends ?_
  rw [heq]
  simp only [List.append_assoc]

/-- What a match takes is its marker and its value. -/
theorem taken_eq {name sign value taken after : Text}
    (h : taken ++ after = name ++ (sign ++ (value ++ after))) : taken = name ++ (sign ++ value) := by
  refine List.append_cancel_right (h.trans ?_)
  simp only [List.append_assoc]

/-- A match ends where its value does. -/
theorem Matched.longer {name sign value rest taken : Text} (h : Matched name sign value rest)
    (heq : taken ++ rest = name ++ (sign ++ (value ++ rest))) :
    (name ++ sign).length < taken.length := by
  have hlength := congrArg List.length heq
  have hpos := List.length_pos_of_ne_nil h.token.nonempty
  simp only [List.length_append] at hlength ⊢
  omega

/-- A marker that was passed by without its value is hidden. -/
theorem Scan.hides {passed out t : Text} (h : Scan takeAssignment passed out t)
    {front back name sign value rest : Text} (hpassed : passed = front ++ back) (hne : back ≠ [])
    (heq : back ++ t = name ++ (sign ++ (value ++ rest))) (hassigned : Matched name sign value rest)
    (hlt : back.length ≤ (name ++ sign).length) : HidesMarker (passed ++ t) := by
  induction h generalizing front back with
  | start t => exact absurd (List.append_eq_nil_iff.mp hpassed.symm).2 hne
  | @skip passed out t c _ hmatch ih =>
    obtain ⟨back', c', rfl⟩ := (List.eq_nil_or_concat' back).resolve_left hne
    rw [← List.append_assoc] at hpassed
    obtain ⟨rfl, hc⟩ := List.append_inj' hpassed rfl
    obtain rfl : c = c' := List.singleton_inj.mp hc
    rw [List.append_assoc, List.singleton_append] at heq ⊢
    rw [List.length_append] at hlt
    by_cases hnil : back' = []
    · rw [hnil, List.nil_append] at heq
      rw [takeAssignment_iff.mpr ⟨name, sign, value, heq, hassigned, rfl⟩] at hmatch
      cases hmatch
    · exact ih rfl hnil heq (by omega)
  | @jump passed out taken after replacement _ hmatch ih =>
    obtain ⟨name₀, sign₀, value₀, hsplit, hassigned₀, -⟩ := takeAssignment_iff.mp hmatch
    have htaken := taken_eq hsplit
    have hwhole : back ≠ taken := by
      rintro rfl
      have hsame := takeAssignment_iff.mpr ⟨name, sign, value, heq, hassigned, rfl⟩
      rw [hmatch] at hsame
      obtain ⟨-, rfl⟩ := Prod.mk.inj (Option.some.inj hsame)
      exact absurd (hassigned.longer heq) (not_lt.mpr hlt)
    rw [List.append_assoc]
    rcases List.append_eq_append_iff.mp hpassed with ⟨before, rfl, hbefore⟩ | ⟨more, rfl, rfl⟩
    · have hbefore' : before ≠ [] := by
        rintro rfl
        exact hwhole hbefore.symm
      have hstart : name₀ ++ (sign₀ ++ (value₀ ++ after)) =
          before ++ (name ++ (sign ++ (value ++ rest))) := by
        rw [← hsplit, hbefore, List.append_assoc, heq]
      have hpos := List.length_pos_of_ne_nil hne
      have hshort : before.length < (name₀ ++ (sign₀ ++ value₀)).length := by
        rw [← htaken, hbefore, List.length_append]
        omega
      obtain ⟨v₁, v₂, rfl, -, rfl, hv₂⟩ :=
        starts_in_value hassigned₀ hassigned.marker hstart hbefore' hshort
      obtain rfl : back = v₂ := by
        refine List.append_cancel_left (hbefore.symm.trans (htaken.trans ?_))
        simp only [List.append_assoc]
      by_cases hspace : ∃ c ∈ sign, isSpace c = true
      · exact ⟨passed, _, rfl, name₀, sign₀, v₁, back, after, hsplit, hassigned₀, name, sign, value,
          rest, hv₂, hassigned, hspace⟩
      · -- else the value was taken together with its marker
        obtain ⟨rfl, rfl⟩ := inner_value (fun c hc => hassigned₀.token.chars c
          (List.mem_append_right v₁ hc)) hassigned₀.token.ends hassigned hspace heq
        exact absurd (hassigned.longer heq) (not_lt.mpr hlt)
    · by_cases hnil : more = []
      · subst hnil
        exact absurd rfl hwhole
      · rw [List.append_assoc] at heq
        rw [List.length_append] at hlt
        exact ih rfl hnil heq (by omega)

/-! ## Texts that differ in values -/

/-- A value may come next. -/
def AfterMarker (passed : Text) : Prop :=
  ∃ front name sign, passed = front ++ (name ++ sign) ∧ IsMarker name ∧ IsSign sign

/-- What is left of two texts (second and fourth), after what was passed of each, is the same but for
    value tokens of markers. -/
inductive Differ : Text → Text → Text → Text → Prop
  | nil {p p' : Text} : Differ p [] p' []
  | char {p p' t t' : Text} (c : Char) : Differ (p ++ [c]) t (p' ++ [c]) t' →
      Differ p (c :: t) p' (c :: t')
  | value {p p' v v' t t' : Text} : AfterMarker p → AfterMarker p' → ValueToken v t →
      ValueToken v' t' → Differ (p ++ v) t (p' ++ v') t' → Differ p (v ++ t) p' (v' ++ t')

/-- The texts differ in value tokens only. -/
def DifferInValues (t t' : String) : Prop := Differ [] t.toList [] t'.toList

theorem Differ.symm {p t p' t' : Text} (h : Differ p t p' t') : Differ p' t' p t := by
  induction h with
  | nil => exact Differ.nil
  | char c _ ih => exact Differ.char c ih
  | value hp hp' hv hv' _ ih => exact Differ.value hp' hp hv' hv ih

/-- Both texts go on with one character, or a value token starts in both. -/
theorem Differ.cases_cons {p t p' s : Text} {c : Char} (h : Differ p (c :: t) p' s) :
    (∃ t', s = c :: t' ∧ Differ (p ++ [c]) t (p' ++ [c]) t') ∨
      ∃ v r v' r', c :: t = v ++ r ∧ s = v' ++ r' ∧ AfterMarker p ∧ ValueToken v r ∧
        ValueToken v' r' ∧ Differ (p ++ v) r (p' ++ v') r' := by
  generalize hwhole : c :: t = whole at h
  cases h with
  | nil => cases hwhole
  | char x hnext =>
    obtain ⟨rfl, rfl⟩ := List.cons.inj hwhole
    exact Or.inl ⟨_, rfl, hnext⟩
  | value hp _ hv hv' hnext => exact Or.inr ⟨_, _, _, _, rfl, rfl, hp, hv, hv', hnext⟩

theorem Differ.ends {p t p' t' : Text} (h : Differ p t p' t') (ht : ValueEnds t) :
    ValueEnds t' := by
  cases h with
  | nil => exact ht
  | char c _ => exact ht
  | value _ _ hv _ _ =>
    obtain ⟨c, v, rfl⟩ := List.exists_cons_of_ne_nil hv.nonempty
    have hin := hv.chars c (List.mem_cons_self ..)
    rw [ht c rfl] at hin
    cases hin

/-- Where a value stands in one text, one stands in the other. -/
theorem Differ.token {p v t p' s : Text} (h : Differ p (v ++ t) p' s) (hv : ValueToken v t) :
    ∃ v' t', s = v' ++ t' ∧ ValueToken v' t' ∧ Differ (p ++ v) t (p' ++ v') t' := by
  induction v generalizing p p' s with
  | nil => exact absurd rfl hv.nonempty
  | cons c v ih =>
    rcases Differ.cases_cons h with ⟨s', rfl, hnext⟩ |
      ⟨w, r, v', r', hwhole, rfl, -, hw, hv', hnext⟩
    · have hc := hv.chars c (List.mem_cons_self ..)
      by_cases hnil : v = []
      · subst hnil
        exact ⟨[c], s', rfl, ⟨List.cons_ne_nil _ _, List.forall_mem_singleton.mpr hc,
          hnext.ends hv.ends⟩, hnext⟩
      · have hrest : ValueToken v t :=
          ⟨hnil, fun x hx => hv.chars x (List.mem_cons_of_mem c hx), hv.ends⟩
        obtain ⟨v', t', rfl, hv', hafter⟩ := ih hnext hrest
        rw [List.append_assoc, List.append_assoc] at hafter
        exact ⟨c :: v', t', rfl, ⟨List.cons_ne_nil _ _, List.forall_mem_cons.mpr ⟨hc, hv'.chars⟩,
          hv'.ends⟩, hafter⟩
    · obtain ⟨rfl, rfl⟩ := run_unique hv.chars hv.ends hw.chars hw.ends hwhole
      exact ⟨v', r', rfl, hv', hnext⟩

/-- Where no value can start, the texts are the same. -/
theorem Differ.walk {p u t p' s : Text} (h : Differ p (u ++ t) p' s)
    (hno : ∀ u₁ u₂ c, u = u₁ ++ c :: u₂ → valueChar c = true → ¬ AfterMarker (p ++ u₁)) :
    ∃ t', s = u ++ t' ∧ Differ (p ++ u) t (p' ++ u) t' := by
  induction u generalizing p p' s with
  | nil =>
    refine ⟨s, rfl, ?_⟩
    rw [List.append_nil, List.append_nil]
    exact h
  | cons c u ih =>
    rcases Differ.cases_cons h with ⟨s', rfl, hnext⟩ | ⟨v, r, v', r', hwhole, -, hp, hv, -, -⟩
    · obtain ⟨t', rfl, hafter⟩ := ih hnext fun u₁ u₂ x hu hx hmarker => by
        refine hno (c :: u₁) u₂ x (congrArg (c :: ·) hu) hx ?_
        rwa [List.append_assoc] at hmarker
      rw [List.append_assoc, List.append_assoc] at hafter
      exact ⟨t', rfl, hafter⟩
    · obtain ⟨x, v₀, rfl⟩ := List.exists_cons_of_ne_nil hv.nonempty
      obtain ⟨rfl, -⟩ := List.cons.inj hwhole
      refine absurd ?_ (hno [] u c rfl (hv.chars c (List.mem_cons_self ..)))
      rwa [List.append_nil]

/-- The last character of a text that is no white space. -/
theorem last_unique {x y a b : Text} {c d : Char} (ha : ∀ z ∈ a, isSpace z = true)
    (hb : ∀ z ∈ b, isSpace z = true) (hc : isSpace c = false) (hd : isSpace d = false)
    (h : x ++ c :: a = y ++ d :: b) : c = d := by
  rcases List.append_eq_append_iff.mp h with ⟨more, -, hmore⟩ | ⟨more, -, hmore⟩
  · cases more with
    | nil => exact (List.cons.inj hmore).1
    | cons z more =>
      obtain ⟨-, rfl⟩ := List.cons.inj hmore
      have hspace := ha d (List.mem_append_right more (List.mem_cons_self ..))
      rw [hd] at hspace
      cases hspace
  · cases more with
    | nil => exact (List.cons.inj hmore).1.symm
    | cons z more =>
      obtain ⟨-, rfl⟩ := List.cons.inj hmore
      have hspace := hb c (List.mem_append_right more (List.mem_cons_self ..))
      rw [hc] at hspace
      cases hspace

/-- No value comes next after a marker and white space. -/
theorem not_afterMarker {p name space : Text} {c : Char} (hmarker : IsMarker name) (hc : c ∈ name)
    (hspace : ∀ z ∈ space, isSpace z = true) : ¬ AfterMarker (p ++ c :: space) := by
  rintro ⟨front, name', sign, heq, -, before, d, after, rfl, -, hd, hafter⟩
  obtain ⟨hplain, hcolon, hequals, -⟩ := hmarker.plain c hc
  have hd' : isSpace d = false := by rcases hd with rfl | rfl <;> decide
  have heq' : p ++ c :: space = (front ++ (name' ++ before)) ++ d :: after := by
    rw [heq]
    simp only [List.append_assoc]
  obtain rfl := last_unique hspace hafter hplain hd' heq'
  exact hd.elim hcolon hequals

/-- Inside a match no value starts but its own. -/
theorem no_value_inside {p name sign : Text} {c : Char} (hmarker : IsMarker (c :: name))
    (hsign : IsSign sign) :
    ∀ u₁ u₂ x, name ++ sign = u₁ ++ x :: u₂ → valueChar x = true →
      ¬ AfterMarker ((p ++ [c]) ++ u₁) := by
  intro u₁ u₂ x heq hx
  -- a part of a marker has a last character
  have hpart {part space : Text} (hin : ∀ z ∈ part, z ∈ c :: name)
      (hspace : ∀ z ∈ space, isSpace z = true) : ¬ AfterMarker ((p ++ [c]) ++ (part ++ space)) := by
    rcases List.eq_nil_or_concat' part with rfl | ⟨front, last, rfl⟩
    · have hnot := @not_afterMarker p _ _ _ hmarker (List.mem_cons_self ..) hspace
      rwa [List.append_assoc]
    · have hlast : last ∈ c :: name :=
        hin last (List.mem_append_right front (List.mem_singleton.mpr rfl))
      have hnot := @not_afterMarker (p ++ ([c] ++ front)) _ _ _ hmarker hlast hspace
      simpa only [List.append_assoc, List.singleton_append, List.cons_append, List.nil_append]
        using hnot
  rcases List.append_eq_append_iff.mp heq with ⟨front, rfl, hfront⟩ | ⟨back, rfl, -⟩
  · -- in front of the sign there is white space
    obtain ⟨before, d, after, rfl, hbefore, -, hafter⟩ := hsign
    refine hpart (fun z hz => List.mem_cons_of_mem c hz) fun z hz => ?_
    rcases List.append_eq_append_iff.mp hfront with ⟨more, rfl, hmore⟩ | ⟨more, rfl, -⟩
    · cases more with
      | nil =>
        rw [List.append_nil] at hz
        exact hbefore z hz
      | cons y more =>
        obtain ⟨-, rfl⟩ := List.cons.inj hmore
        have hspace := hafter x (List.mem_append_right more (List.mem_cons_self ..))
        rw [value_not_space hx] at hspace
        cases hspace
    · exact hbefore z (List.mem_append_left _ hz)
  · have hnot := @hpart u₁ [] (fun z hz => List.mem_cons_of_mem c (List.mem_append_left _ hz))
      fun z hz => nomatch hz
    rwa [List.append_nil] at hnot

/-- Two texts that differ in values only are matched alike. -/
theorem Differ.matched {p t p' t' : Text} {c : Char} (h : Differ (p ++ [c]) t (p' ++ [c]) t')
    {out rest : Text} (hmatch : takeAssignment (c :: t) = some (out, rest)) :
    ∃ taken taken' rest', c :: t = taken ++ rest ∧ c :: t' = taken' ++ rest' ∧
      takeAssignment (c :: t') = some (out, rest') ∧
      Differ (p ++ taken) rest (p' ++ taken') rest' := by
  obtain ⟨name, sign, value, hsplit, ⟨hmarker, hsign, htoken⟩, rfl⟩ := takeAssignment_iff.mp hmatch
  obtain ⟨x, name, rfl⟩ := List.exists_cons_of_ne_nil hmarker.ne_nil
  obtain ⟨rfl, rfl⟩ := List.cons.inj hsplit
  have hassoc : name ++ (sign ++ (value ++ rest)) = (name ++ sign) ++ (value ++ rest) :=
    (List.append_assoc ..).symm
  rw [List.append_eq, hassoc] at h
  obtain ⟨s, rfl, hvalues⟩ := h.walk (no_value_inside hmarker hsign)
  obtain ⟨value', rest', rfl, htoken', hrest⟩ := hvalues.token htoken
  refine ⟨c :: ((name ++ sign) ++ value), c :: ((name ++ sign) ++ value'), rest', ?_, ?_, ?_, ?_⟩
  · simp only [List.append_eq, List.cons_append, List.append_assoc]
  · simp only [List.cons_append, List.append_assoc]
  · refine takeAssignment_iff.mpr ⟨c :: name, sign, value', ?_, ⟨hmarker, hsign, htoken'⟩, rfl⟩
    simp only [List.cons_append, List.append_assoc]
  · simpa only [List.append_assoc, List.singleton_append, List.cons_append, List.nil_append]
      using hrest

/-- Texts that differ in values only are left the same, unless one hides a marker. -/
theorem redacted_eq {p out t p' t' : Text} (hscan : Scan takeAssignment p out t)
    (hdiffer : Differ p t p' t') (hnot : ¬ HidesMarker (p ++ t)) :
    replaced takeAssignment t = replaced takeAssignment t' := by
  induction hlen : t.length using Nat.strong_induction_on generalizing p out t p' t' with
  | _ len ih =>
    subst hlen
    have htoken {v r : Text} (hp : AfterMarker p) (hv : ValueToken v r) (ht : t = v ++ r) :
        False := by
      obtain ⟨front, name, sign, hpassed, hmarker, hsign⟩ := hp
      refine hnot (@Scan.hides _ _ _ hscan front (name ++ sign) name sign v r hpassed ?_ ?_
        ⟨hmarker, hsign, hv⟩ le_rfl)
      · exact fun hnil => hmarker.ne_nil (List.append_eq_nil_iff.mp hnil).1
      · rw [ht, List.append_assoc]
    cases t with
    | nil =>
      generalize hwhole : ([] : Text) = whole at hdiffer
      cases hdiffer with
      | nil => rfl
      | char c _ => cases hwhole
      | value hp _ hv _ _ => exact (htoken hp hv hwhole).elim
    | cons c t =>
      rcases Differ.cases_cons hdiffer with ⟨t', rfl, hnext⟩ | ⟨v, r, _, _, ht, -, hp, hv, -, -⟩
      · cases hmatch : takeAssignment (c :: t) with
        | none =>
          have hmatch' : takeAssignment (c :: t') = none := by
            by_contra hne
            obtain ⟨⟨out', rest'⟩, hsome⟩ := Option.ne_none_iff_exists'.mp hne
            obtain ⟨-, -, rest, -, -, hmatch', -⟩ := hnext.symm.matched hsome
            rw [hmatch] at hmatch'
            cases hmatch'
          rw [replaced_skip hmatch, replaced_skip hmatch']
          refine congrArg (c :: ·)
            (ih t.length (Nat.lt_succ_self _) (Scan.skip hscan hmatch) hnext ?_ rfl)
          rwa [List.append_assoc]
        | some found =>
          obtain ⟨out', rest⟩ := found
          have hshort := takeAssignment_shrinks _ _ _ hmatch
          obtain ⟨taken, taken', rest', ht, -, hmatch', hrest⟩ := hnext.matched hmatch
          rw [replaced_match takeAssignment_shrinks hmatch,
            replaced_match takeAssignment_shrinks hmatch']
          rw [ht] at hscan hmatch hnot
          refine congrArg (out' ++ ·) (ih rest.length hshort (Scan.jump hscan hmatch) hrest ?_ rfl)
          rwa [List.append_assoc]
      · exact (htoken hp hv ht).elim

/-! ## What can be read off a redaction -/

/-- The scan gets to a match that hides a marker. -/
theorem Scan.reaches {p out t : Text} (h : Scan takeAssignment p out t) (hhides : HidesMarker t) :
    ∃ p' out' t', Scan takeAssignment p' out' t' ∧ p' ++ t' = p ++ t ∧ HidesNext t' := by
  induction hlen : t.length using Nat.strong_induction_on generalizing p out t with
  | _ len ih =>
    subst hlen
    obtain ⟨before, after, rfl, hnext⟩ := hhides
    cases before with
    | nil => exact ⟨p, out, _, h, rfl, hnext⟩
    | cons c before =>
      cases hmatch : takeAssignment (c :: before ++ after) with
      | none =>
        obtain ⟨p', out', t', hscan, heq, hfound⟩ := ih (before ++ after).length
          (Nat.lt_succ_self _) (Scan.skip h hmatch) ⟨before, after, rfl, hnext⟩ rfl
        refine ⟨p', out', t', hscan, ?_, hfound⟩
        rw [heq, List.append_assoc]
        rfl
      | some found =>
        obtain ⟨replacement, rest₀⟩ := found
        have hshort := takeAssignment_shrinks _ _ _ hmatch
        obtain ⟨name₀, sign₀, value₀, hsplit, hassigned₀, -⟩ := takeAssignment_iff.mp hmatch
        have htaken : name₀ ++ (sign₀ ++ (value₀ ++ rest₀)) =
            (name₀ ++ (sign₀ ++ value₀)) ++ rest₀ := by
          simp only [List.append_assoc]
        by_cases hlt : (c :: before).length < (name₀ ++ (sign₀ ++ value₀)).length
        · refine ⟨p, out, _, h, rfl, ?_⟩
          obtain ⟨name, sign, v₁, v₂, rest, rfl, hassigned, hinner⟩ := hnext
          obtain ⟨u₁, u₂, rfl, -, -, hu₂⟩ := starts_in_value hassigned₀ hassigned.marker hsplit.symm
            (List.cons_ne_nil _ _) hlt
          by_cases hspace : ∃ x ∈ sign, isSpace x = true
          · exact ⟨name₀, sign₀, u₁, u₂, rest₀, hsplit, hassigned₀, name, sign, v₁ ++ v₂, rest, hu₂,
              hassigned, hspace⟩
          · -- the value that hides the marker is a part of the value taken
            obtain ⟨rfl, rfl⟩ := inner_value (fun x hx => hassigned₀.token.chars x
              (List.mem_append_right u₁ hx)) hassigned₀.token.ends hassigned hspace hu₂
            have hassoc : u₁ ++ (name ++ (sign ++ (v₁ ++ v₂))) =
                (u₁ ++ (name ++ (sign ++ v₁))) ++ v₂ := by
              simp only [List.append_assoc]
            rw [hassoc] at hsplit hassigned₀
            exact ⟨name₀, sign₀, _, v₂, rest₀, hsplit, hassigned₀, hinner⟩
        · rw [htaken] at hsplit
          rcases List.append_eq_append_iff.mp hsplit with ⟨more, heq, hrest⟩ | ⟨more, heq, hrest⟩
          · have hnil : more = [] := by
              have hlength := congrArg List.length heq
              simp only [List.length_append] at hlength hlt
              exact List.length_eq_zero_iff.mp (by omega)
            subst hnil
            rw [hsplit] at h hmatch
            obtain ⟨p', out', t', hscan, heq', hfound⟩ := ih rest₀.length hshort
              (Scan.jump h hmatch) ⟨[], after, hrest.symm, hnext⟩ rfl
            refine ⟨p', out', t', hscan, ?_, hfound⟩
            rw [heq', hsplit, List.append_assoc]
          · rw [hsplit] at h hmatch
            obtain ⟨p', out', t', hscan, heq', hfound⟩ := ih rest₀.length hshort
              (Scan.jump h hmatch) ⟨more, after, hrest, hnext⟩ rfl
            refine ⟨p', out', t', hscan, ?_, hfound⟩
            rw [heq', hsplit, List.append_assoc]

theorem Differ.refl (p t p' : Text) : Differ p t p' t := by
  induction t generalizing p p' with
  | nil => exact Differ.nil
  | cons c t ih => exact Differ.char c (ih _ _)

theorem Differ.prepend {p u t p' t' : Text} (h : Differ (p ++ u) t (p' ++ u) t') :
    Differ p (u ++ t) p' (u ++ t') := by
  induction u generalizing p p' with
  | nil =>
    rw [List.append_nil, List.append_nil] at h
    exact h
  | cons c u ih =>
    refine Differ.char c (ih ?_)
    rw [List.append_assoc, List.append_assoc]
    exact h

/-- One value is put for another. -/
theorem Differ.put {p u v v' r : Text} (hp : AfterMarker (p ++ u)) (hv : ValueToken v r)
    (hv' : ValueToken v' r) : Differ p (u ++ (v ++ r)) p (u ++ (v' ++ r)) :=
  Differ.prepend (Differ.value hp hp hv hv' (Differ.refl _ _ _))

/-- What was put out in front of a value does not depend on the value. -/
theorem Scan.put {p out u v v' r : Text} (h : Scan takeAssignment p out (u ++ (v ++ r)))
    (hp : AfterMarker (p ++ u)) (hv : ValueToken v r) (hv' : ValueToken v' r) :
    Scan takeAssignment p out (u ++ (v' ++ r)) := by
  generalize hwhole : u ++ (v ++ r) = whole at h
  induction h generalizing u with
  | start t => exact Scan.start _
  | @skip passed out t c _ hmatch ih =>
    subst hwhole
    rw [List.append_assoc] at hp
    refine Scan.skip (@ih (c :: u) hp rfl) ?_
    by_contra hne
    obtain ⟨⟨out', rest'⟩, hsome⟩ := Option.ne_none_iff_exists'.mp hne
    have hdiffer : Differ (passed ++ [c]) (u ++ (v' ++ r)) (passed ++ [c]) (u ++ (v ++ r)) := by
      refine Differ.put ?_ hv' hv
      rwa [List.append_assoc]
    obtain ⟨-, -, rest, -, -, hmatch', -⟩ := hdiffer.matched hsome
    rw [hmatch] at hmatch'
    cases hmatch'
  | @jump passed out taken rest replacement _ hmatch ih =>
    subst hwhole
    rw [List.append_assoc] at hp
    have hbefore := @ih (taken ++ u) hp (List.append_assoc ..)
    rw [List.append_assoc] at hbefore
    refine Scan.jump hbefore ?_
    obtain ⟨name, sign, value, hsplit, ⟨hmarker, hsign, htoken⟩, rfl⟩ :=
      takeAssignment_iff.mp hmatch
    have htaken := taken_eq hsplit
    have hends : ValueEnds (u ++ (v' ++ r)) := by
      cases u with
      | nil =>
        obtain ⟨x, v, rfl⟩ := List.exists_cons_of_ne_nil hv.nonempty
        have hx := hv.chars x (List.mem_cons_self ..)
        rw [htoken.ends x rfl] at hx
        cases hx
      | cons x u => exact htoken.ends
    refine takeAssignment_iff.mpr ⟨name, sign, value, ?_,
      ⟨hmarker, hsign, htoken.nonempty, htoken.chars, hends⟩, rfl⟩
    rw [htaken]
    simp only [List.append_assoc]

/-- White space or a sign parts the value of a hidden marker from the value that hides it. -/
theorem gap_of_hidden {v rest name sign value rest' : Text} (hv : ∀ c ∈ v, valueChar c = true)
    (hrest : ValueEnds rest) (h : Matched name sign value rest')
    (hspace : ∃ c ∈ sign, isSpace c = true)
    (heq : v ++ rest = name ++ (sign ++ (value ++ rest'))) :
    ∃ gap, rest = gap ++ (value ++ rest') ∧ gap ≠ [] ∧ (∀ c ∈ gap, Between c) ∧
      v ++ gap = name ++ sign := by
  obtain ⟨c, hc, hcspace⟩ := hspace
  have hnot : c ∉ v := fun hin => by
    have hcv := hv c hin
    rw [space_not_value hcspace] at hcv
    cases hcv
  rw [← List.append_assoc] at heq
  rcases List.append_eq_append_iff.mp heq with ⟨gap, hgap, rfl⟩ | ⟨more, hmore, -⟩
  · have hne : gap ≠ [] := by
      rintro rfl
      rw [List.append_nil] at hgap
      exact hnot (hgap ▸ List.mem_append_right name hc)
    refine ⟨gap, rfl, hne, ?_, hgap.symm⟩
    rcases List.append_eq_append_iff.mp hgap with ⟨front, -, rfl⟩ | ⟨part, rfl, rfl⟩
    · exact fun x hx => h.sign.between x (List.mem_append_right front hx)
    · cases part with
      | nil => exact h.sign.between
      | cons x part =>
        -- the marker does not go on behind the value
        have hx := (h.marker.plain x (List.mem_append_right v (List.mem_cons_self ..))).2.2.2
        rw [hrest x rfl] at hx
        cases hx
  · exact absurd (hmore ▸ List.mem_append_left more (List.mem_append_right name hc)) hnot

/-! ## Keys -/

/-- A character of `[A-Za-z0-9_-]`. -/
def isKeyChar (c : Char) : Bool := c.isAlphanum || c = '_' || c = '-'

/-- The text shows `sk-` and a character of a key. -/
def ShowsKey (t : Text) : Prop :=
  ∃ before c after, t = before ++ 's' :: 'k' :: '-' :: c :: after ∧ isKeyChar c = true

theorem space_not_key {c : Char} (h : isSpace c = true) : isKeyChar c = false := by
  by_contra hkey
  have hkey' : isKeyChar c = true := by simpa using hkey
  unfold isKeyChar Char.isAlphanum Char.isAlpha Char.isUpper Char.isLower Char.isDigit at hkey'
  simp only [Bool.or_eq_true, Bool.and_eq_true, decide_eq_true_eq] at hkey'
  have hnat : (48 ≤ c.toNat ∧ c.toNat ≤ 57) ∨ (65 ≤ c.toNat ∧ c.toNat ≤ 90) ∨
      (97 ≤ c.toNat ∧ c.toNat ≤ 122) ∨ c.toNat = 95 ∨ c.toNat = 45 := by
    rcases hkey' with (((h | h) | h) | rfl) | rfl
    · exact Or.inr (Or.inl h)
    · exact Or.inr (Or.inr (Or.inl h))
    · exact Or.inl h
    · exact Or.inr (Or.inr (Or.inr (Or.inl rfl)))
    · exact Or.inr (Or.inr (Or.inr (Or.inr rfl)))
  unfold isSpace at h
  simp only [Bool.or_eq_true, Bool.and_eq_true, decide_eq_true_eq, beq_iff_eq] at h
  omega

theorem takeKey_some {c : Char} (rest : Text) (hc : isKeyChar c = true) :
    takeKey ('s' :: 'k' :: '-' :: c :: rest) =
      some ("secret=[REDACTED]".toList, rest.dropWhile isKeyChar) := by
  have htake : (c :: rest).takeWhile isKeyChar = c :: rest.takeWhile isKeyChar :=
    List.takeWhile_cons_of_pos hc
  have hdrop : (c :: rest).dropWhile isKeyChar = rest.dropWhile isKeyChar :=
    List.dropWhile_cons_of_pos hc
  show (if ((c :: rest).takeWhile isKeyChar).isEmpty then none
    else some ("secret=[REDACTED]".toList, (c :: rest).dropWhile isKeyChar)) = _
  rw [htake, hdrop]
  rfl

theorem takeKey_cases (t : Text) : takeKey t = none ∨
    ∃ c rest, t = 's' :: 'k' :: '-' :: c :: rest ∧ isKeyChar c = true := by
  unfold takeKey
  split
  · rename_i rest
    cases rest with
    | nil => exact Or.inl rfl
    | cons c rest =>
      by_cases hc : isKeyChar c = true
      · exact Or.inr ⟨c, rest, rfl, hc⟩
      · have htake : (c :: rest).takeWhile isKeyChar = [] := List.takeWhile_cons_of_neg hc
        left
        show (if ((c :: rest).takeWhile isKeyChar).isEmpty then none
          else some ("secret=[REDACTED]".toList, (c :: rest).dropWhile isKeyChar)) = _
        rw [htake]
        rfl
  · exact Or.inl rfl

theorem takeKey_shrinks : Shrinks takeKey := by
  intro t out rest h
  rcases takeKey_cases t with hnone | ⟨c, more, rfl, hc⟩
  · rw [hnone] at h
    cases h
  · rw [takeKey_some more hc] at h
    obtain ⟨-, rfl⟩ := Prod.mk.inj (Option.some.inj h)
    have hle := (@List.dropWhile_sublist _ more isKeyChar).length_le
    simp only [List.length_cons]
    omega

theorem secret_toList : "secret=[REDACTED]".toList = 's' :: "ecret=[REDACTED]".toList := by decide

/-- A character that is no `s` stands in the result only where it stood in the text. -/
theorem replaced_key_cons {t u : Text} {c : Char} (h : replaced takeKey t = c :: u) (hc : c ≠ 's') :
    ∃ t', t = c :: t' ∧ u = replaced takeKey t' := by
  rcases takeKey_cases t with hnone | ⟨x, rest, rfl, hx⟩
  · cases t with
    | nil => cases h
    | cons y t =>
      rw [replaced_skip hnone] at h
      obtain ⟨rfl, rfl⟩ := List.cons.inj h
      exact ⟨t, rfl, rfl⟩
  · rw [replaced_match takeKey_shrinks (takeKey_some rest hx)] at h
    rw [secret_toList] at h
    exact absurd (List.cons.inj h).1.symm hc

theorem ShowsKey.tail {c : Char} {u : Text} (h : ShowsKey (c :: u))
    (hnot : c ≠ 's' ∨ u.head? ≠ some 'k') : ShowsKey u := by
  obtain ⟨before, x, after, heq, hx⟩ := h
  cases before with
  | nil =>
    obtain ⟨rfl, rfl⟩ := List.cons.inj heq
    exact absurd rfl (hnot.resolve_left fun hne => hne rfl)
  | cons y before =>
    obtain ⟨-, rfl⟩ := List.cons.inj heq
    exact ⟨before, x, after, rfl, hx⟩

theorem ShowsKey.drop {w u : Text} (h : ShowsKey (w ++ u)) (hw : ∀ c ∈ w, c ≠ 's') :
    ShowsKey u := by
  induction w with
  | nil => exact h
  | cons c w ih =>
    obtain ⟨hc, hw⟩ := List.forall_mem_cons.mp hw
    exact ih (ShowsKey.tail h (Or.inl hc)) hw

/-- No key is left. -/
theorem no_key_left (t : Text) : ¬ ShowsKey (replaced takeKey t) := by
  induction hlen : t.length using Nat.strong_induction_on generalizing t with
  | _ len ih =>
    subst hlen
    intro hshows
    rcases takeKey_cases t with hnone | ⟨x, rest, rfl, hx⟩
    · cases t with
      | nil =>
        obtain ⟨before, x, after, heq, -⟩ := hshows
        exact absurd heq.symm (by simp [replaced, subMatches])
      | cons c t =>
        rw [replaced_skip hnone] at hshows
        have hbehind := ih t.length (Nat.lt_succ_self _) t rfl
        by_cases hc : c = 's' ∧ (replaced takeKey t).head? = some 'k'
        · obtain ⟨before, x, after, heq, hx⟩ := hshows
          cases before with
          | nil =>
            -- the key would have been in the text
            obtain ⟨rfl, hk⟩ := List.cons.inj heq
            obtain ⟨t₁, rfl, hdash⟩ := replaced_key_cons hk (by decide)
            obtain ⟨t₂, rfl, hlast⟩ := replaced_key_cons hdash.symm (by decide)
            have hkey : ∃ y t₃, t₂ = y :: t₃ ∧ isKeyChar y = true := by
              rcases takeKey_cases t₂ with hnone' | ⟨y, rest, rfl, -⟩
              · cases t₂ with
                | nil => cases hlast
                | cons y t₃ =>
                  rw [replaced_skip hnone'] at hlast
                  obtain ⟨rfl, -⟩ := List.cons.inj hlast
                  exact ⟨_, t₃, rfl, hx⟩
              · exact ⟨'s', _, rfl, by decide⟩
            obtain ⟨y, t₃, rfl, hy⟩ := hkey
            rw [takeKey_some t₃ hy] at hnone
            cases hnone
          | cons y before =>
            obtain ⟨-, heq⟩ := List.cons.inj heq
            exact hbehind ⟨before, x, after, heq, hx⟩
        · exact hbehind (hshows.tail (not_and_or.mp hc))
    · rw [replaced_match takeKey_shrinks (takeKey_some rest hx)] at hshows
      have hplain : ∀ c ∈ "ecret=[REDACTED]".toList, c ≠ 's' := by decide
      have hhead : "ecret=[REDACTED]".toList = 'e' :: "cret=[REDACTED]".toList := by
        decide
      rw [secret_toList] at hshows
      have htail : ShowsKey ("ecret=[REDACTED]".toList ++
          replaced takeKey (rest.dropWhile isKeyChar)) :=
        hshows.tail (Or.inr (by rw [hhead]; simp))
      have hle := (@List.dropWhile_sublist _ rest isKeyChar).length_le
      refine ih (rest.dropWhile isKeyChar).length ?_ _ rfl (htail.drop hplain)
      simp only [List.length_cons]
      omega

/-- No match goes over a character that is not of a key. -/
theorem takeKey_append {x : Char} (hx : isKeyChar x = false) (u w : Text) :
    takeKey (u ++ x :: w) = (takeKey u).map fun found => (found.1, found.2 ++ x :: w) := by
  rcases takeKey_cases u with hnone | ⟨c, rest, rfl, hc⟩
  · rw [hnone]
    rcases takeKey_cases (u ++ x :: w) with hnone' | ⟨c, rest, heq, hc⟩
    · exact hnone'
    · have hne {y : Char} (hy : isKeyChar y = true) : x ≠ y := by
        rintro rfl
        rw [hx] at hy
        cases hy
      rcases u with _ | ⟨a, _ | ⟨b, _ | ⟨d, _ | ⟨e, u⟩⟩⟩⟩
      · exact absurd (List.cons.inj heq).1 (hne (by decide))
      · obtain ⟨-, heq⟩ := List.cons.inj heq
        exact absurd (List.cons.inj heq).1 (hne (by decide))
      · obtain ⟨-, heq⟩ := List.cons.inj heq
        obtain ⟨-, heq⟩ := List.cons.inj heq
        exact absurd (List.cons.inj heq).1 (hne (by decide))
      · obtain ⟨-, heq⟩ := List.cons.inj heq
        obtain ⟨-, heq⟩ := List.cons.inj heq
        obtain ⟨-, heq⟩ := List.cons.inj heq
        exact absurd (List.cons.inj heq).1 (hne hc)
      · simp only [List.cons_append, List.cons.injEq] at heq
        obtain ⟨rfl, rfl, rfl, rfl, -⟩ := heq
        rw [takeKey_some u hc] at hnone
        cases hnone
  · have hdrop : (rest ++ x :: w).dropWhile isKeyChar = rest.dropWhile isKeyChar ++ x :: w := by
      rw [List.dropWhile_append]
      split
      · rename_i hnil
        rw [List.isEmpty_iff.mp hnil, List.nil_append, List.dropWhile_cons_of_neg (by simp [hx])]
      · rfl
    rw [takeKey_some rest hc, List.cons_append, List.cons_append, List.cons_append,
      List.cons_append, takeKey_some _ hc, hdrop]
    rfl

theorem replaced_key_append {x : Char} (hx : isKeyChar x = false) (u w : Text) :
    replaced takeKey (u ++ x :: w) = replaced takeKey u ++ x :: replaced takeKey w := by
  induction hlen : u.length using Nat.strong_induction_on generalizing u with
  | _ len ih =>
    subst hlen
    have hmatch := takeKey_append hx u w
    cases hu : takeKey u with
    | none =>
      rw [hu, Option.map_none] at hmatch
      cases u with
      | nil => exact replaced_skip hmatch
      | cons c u =>
        rw [List.cons_append] at hmatch ⊢
        rw [replaced_skip hmatch, replaced_skip hu, ih u.length (Nat.lt_succ_self _) u rfl]
        rfl
    | some found =>
      obtain ⟨replacement, rest⟩ := found
      rw [hu, Option.map_some] at hmatch
      rw [replaced_match takeKey_shrinks hmatch, replaced_match takeKey_shrinks hu,
        ih rest.length (takeKey_shrinks _ _ _ hu) rest rfl, List.append_assoc]

/-! ## What is redacted -/

/-- The digits that are put for hidden values. -/
def IsDigit (d : Char) : Prop := d = '0' ∨ d = '1'

theorem IsDigit.token {d : Char} (h : IsDigit d) {rest : Text} (hrest : ValueEnds rest) :
    ValueToken [d] rest := by
  refine ⟨List.cons_ne_nil _ _, List.forall_mem_singleton.mpr ?_, hrest⟩
  rcases h with rfl | rfl <;> decide

theorem IsDigit.no_marker {d : Char} (h : IsDigit d) (name : Text) : ¬ IsMarker (d :: name) := by
  intro hmarker
  obtain ⟨hzero, hone⟩ := hmarker.head
  exact h.elim hzero hone

/-- A digit behind white space or a sign shows. -/
theorem redacted_digit {p out name sign v gap rest : Text} {d : Char} (hd : IsDigit d)
    (hscan : Scan takeAssignment p out (name ++ (sign ++ (v ++ (gap ++ ([d] ++ rest))))))
    (hassigned : Matched name sign v (gap ++ ([d] ++ rest))) (hne : gap ≠ [])
    (hgap : ∀ c ∈ gap, Between c) :
    replaced takeKey (replaced takeAssignment
        (p ++ (name ++ (sign ++ (v ++ (gap ++ ([d] ++ rest))))))) =
      replaced takeKey (out ++ (name ++ "=[REDACTED]".toList) ++ gap) ++
        d :: replaced takeKey (replaced takeAssignment rest) := by
  have hskip := (hscan.jump_assigned hassigned).skip_all fun c hc u => between_none (hgap c hc)
  have hfirst := hskip.replaced_eq takeAssignment_shrinks
  rw [List.singleton_append, replaced_skip (takeAssignment_none hd.no_marker)] at hfirst
  have hwhole : p ++ (name ++ (sign ++ (v ++ (gap ++ ([d] ++ rest))))) =
      ((p ++ (name ++ (sign ++ v))) ++ gap) ++ d :: rest := by
    simp only [List.append_assoc, List.singleton_append]
  obtain ⟨front, x, rfl⟩ := (List.eq_nil_or_concat' gap).resolve_left hne
  have hx : isKeyChar x = false := by
    rcases hgap x (List.mem_append_right front (List.mem_singleton.mpr rfl)) with hspace | rfl | rfl
    · exact space_not_key hspace
    · decide
    · decide
  have hdigit (w : Text) : takeKey (d :: w) = none := by
    rcases takeKey_cases (d :: w) with hnone | ⟨c, more, heq, -⟩
    · exact hnone
    · obtain ⟨rfl, -⟩ := List.cons.inj heq
      exact absurd hd (by unfold IsDigit; decide)
  have hsplit (w : Text) :
      replaced takeKey (out ++ (name ++ "=[REDACTED]".toList) ++ (front ++ [x]) ++ w) =
        replaced takeKey (out ++ (name ++ "=[REDACTED]".toList) ++ front) ++
          x :: replaced takeKey w := by
    rw [← replaced_key_append hx]
    simp only [List.append_assoc, List.singleton_append]
  have hend := hsplit []
  rw [List.append_nil] at hend
  have hnil : replaced takeKey [] = [] := rfl
  rw [hwhole, hfirst, hsplit, hend, replaced_skip (hdigit _), hnil]
  simp only [List.append_assoc, List.singleton_append]

/-- The redaction hides every key and every value. -/
def LogRedacted (t : String) : Prop :=
  ¬ ShowsKey (redactLogText t).toList ∧
    ∀ t', DifferInValues t t' → redactLogText t = redactLogText t'

theorem redactLogText_eq (t : String) :
    redactLogText t = String.ofList (replaced takeKey (replaced takeAssignment t.toList)) := rfl

/-- The value of a hidden marker can be read off the redaction. -/
theorem leaks_of_hides {t : String} (h : HidesMarker t.toList) :
    ∃ t', DifferInValues t t' ∧ redactLogText t ≠ redactLogText t' := by
  obtain ⟨p, out, _, hscan, hp, name, sign, v₁, v₂, rest, rfl, hassigned, name', sign', value',
    rest', hinner, hassigned', hspace⟩ := (Scan.start t.toList).reaches h
  obtain ⟨gap, rfl, hne, hgap, hmarker⟩ := gap_of_hidden (fun c hc => hassigned.token.chars c
    (List.mem_append_right v₁ hc)) hassigned.token.ends hassigned' hspace hinner
  have hassoc (w : Text) : name ++ (sign ++ ((v₁ ++ v₂) ++ (gap ++ w))) =
      (name ++ (sign ++ ((v₁ ++ v₂) ++ gap))) ++ w := by
    simp only [List.append_assoc]
  have hafter : AfterMarker (p ++ (name ++ (sign ++ ((v₁ ++ v₂) ++ gap)))) := by
    refine ⟨p ++ (name ++ (sign ++ v₁)), name', sign', ?_, hassigned'.marker, hassigned'.sign⟩
    rw [← hmarker]
    simp only [List.append_assoc]
  let put (d : Char) : Text := p ++ (name ++ (sign ++ ((v₁ ++ v₂) ++ (gap ++ ([d] ++ rest')))))
  have hdiffer (d : Char) (hd : IsDigit d) : DifferInValues t (String.ofList (put d)) := by
    have htext : t.toList =
        (p ++ (name ++ (sign ++ ((v₁ ++ v₂) ++ gap)))) ++ (value' ++ rest') := by
      rw [List.append_assoc, ← hassoc, hp, List.nil_append]
    have hput : put d = (p ++ (name ++ (sign ++ ((v₁ ++ v₂) ++ gap)))) ++ ([d] ++ rest') := by
      rw [List.append_assoc, ← hassoc]
    unfold DifferInValues
    rw [String.toList_ofList, htext, hput]
    exact @Differ.put [] _ _ _ _ hafter hassigned'.token (hd.token hassigned'.token.ends)
  have hredacted (d : Char) (hd : IsDigit d) : redactLogText (String.ofList (put d)) = String.ofList
      (replaced takeKey (out ++ (name ++ "=[REDACTED]".toList) ++ gap) ++
        d :: replaced takeKey (replaced takeAssignment rest')) := by
    have hends : ValueEnds (gap ++ ([d] ++ rest')) := by
      obtain ⟨x, gap', rfl⟩ := List.exists_cons_of_ne_nil hne
      exact hassigned.token.ends
    have hscan' := Scan.put (hassoc _ ▸ hscan) hafter hassigned'.token
      (hd.token hassigned'.token.ends)
    rw [← hassoc] at hscan'
    rw [redactLogText_eq, String.toList_ofList]
    exact congrArg String.ofList (redacted_digit hd hscan' ⟨hassigned.marker, hassigned.sign,
      hassigned.token.nonempty, hassigned.token.chars, hends⟩ hne hgap)
  -- the two digits show, so that one of the redactions is another than the one of the text
  by_cases hzero : redactLogText t = redactLogText (String.ofList (put '0'))
  · refine ⟨_, hdiffer '1' (Or.inr rfl), fun hone => ?_⟩
    have hsame := hzero.symm.trans hone
    rw [hredacted '0' (Or.inl rfl), hredacted '1' (Or.inr rfl)] at hsame
    have hlists := List.append_cancel_left (String.ofList_injective hsame)
    exact absurd (List.cons.inj hlists).1 (by decide)
  · exact ⟨_, hdiffer '0' (Or.inl rfl), hzero⟩

/-- The redaction hides all that it should exactly if the text hides no marker. -/
theorem logRedacted_iff (t : String) : LogRedacted t ↔ ¬ HidesMarker t.toList := by
  constructor
  · rintro ⟨-, hsame⟩ hhides
    obtain ⟨t', hdiffer, hne⟩ := leaks_of_hides hhides
    exact hne (hsame t' hdiffer)
  · intro hnot
    refine ⟨?_, fun t' hdiffer => ?_⟩
    · rw [redactLogText_eq, String.toList_ofList]
      exact no_key_left _
    · rw [redactLogText_eq, redactLogText_eq, redacted_eq (Scan.start t.toList) hdiffer hnot]

/-- The value of the second marker shows. -/
theorem second_password_shows :
    redactLogText "token: password: abc" = "token=[REDACTED] abc" ∧
      ¬ LogRedacted "token: password: abc" := by
  have hshows : redactLogText "token: password: abc" = "token=[REDACTED] abc" := by decide
  refine ⟨hshows, fun h => ?_⟩
  have hmarker : IsMarker "password".toList := by
    have htake : takeSecretName "password".toList = some ("password".toList, []) := by
      decide
    exact (takeSecretName_iff.mp htake).2
  have hsign : IsSign ": ".toList := ⟨[], ':', [' '], by decide, by decide, by decide,
    by decide⟩
  have hafter : AfterMarker ([] ++ "token: password: ".toList) :=
    ⟨"token: ".toList, _, _, by decide, hmarker, hsign⟩
  have htoken : ∀ v ∈ ["abc".toList, "xyz".toList], ValueToken v [] := by
    intro v hv
    have hchars : ∀ v ∈ ["abc".toList, "xyz".toList], v ≠ [] ∧ ∀ c ∈ v, valueChar c = true := by
      decide
    exact ⟨(hchars v hv).1, (hchars v hv).2, fun c hc => nomatch hc⟩
  have hdiffer : DifferInValues "token: password: abc" "token: password: xyz" := by
    have hput := Differ.put hafter (htoken "abc".toList (by simp)) (htoken "xyz".toList (by simp))
    have habc : "token: password: abc".toList =
        "token: password: ".toList ++ ("abc".toList ++ []) := by decide
    have hxyz : "token: password: xyz".toList =
        "token: password: ".toList ++ ("xyz".toList ++ []) := by decide
    unfold DifferInValues
    rw [habc, hxyz]
    exact hput
  exact absurd (h.2 _ hdiffer) (by decide)

end Vad
