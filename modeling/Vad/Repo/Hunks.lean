/-
  What hunks do to the lines of a file.

  1. `applyBody_iff` — a hunk body says which lines it expects (`oldLines`: the context and the
     deleted lines) and which it leaves (`newLines`: the context and the added lines).  It applies
     exactly where the file goes on with the expected lines, and then it puts the others there.

  2. `applyHunksFrom_cons` — a hunk in front of others: the lines up to where it starts are kept,
     its own are exchanged, and the other hunks go on behind them.

  3. `patchText_injective` — a file is determined by the hunks and by what they make of it.  The
     line counts that are kept are fixed by the headers, so two files with one outcome are read in
     step; only the last line of a file may lack its line end, and there the number of line ends
     in the outcome decides (`countEnds_outcome`).
-/
import Vad.Repo.PatchApply

namespace Vad

open PyText (Text splitlines isBoundary)

/-! ## The body of a hunk -/

/-- The lines that a body expects. -/
def oldLines : List Text → List Text
  | [] => []
  | line :: rest =>
    match line with
    | ' ' :: content => content :: oldLines rest
    | '-' :: content => content :: oldLines rest
    | _ => oldLines rest

/-- The lines that a body leaves. -/
def newLines : List Text → List Text
  | [] => []
  | line :: rest =>
    match line with
    | ' ' :: content => content :: newLines rest
    | '+' :: content => content :: newLines rest
    | _ => newLines rest

/-- The four kinds of body lines. -/
inductive BodyLine : Text → Prop where
  | context (content : Text) : BodyLine (' ' :: content)
  | deleted (content : Text) : BodyLine ('-' :: content)
  | added (content : Text) : BodyLine ('+' :: content)
  | noNewline (content : Text) : BodyLine ('\\' :: content)

/-- The file goes on with these lines at the cursor. -/
def GoesOn (original : List Text) (cursor : Nat) (lines : List Text) : Prop :=
  lines <+: original.drop cursor

theorem goesOn_nil (original : List Text) (cursor : Nat) : GoesOn original cursor [] :=
  List.nil_prefix

/-- The expected lines are there when the first is at the cursor and the others follow it. -/
theorem goesOn_cons {original : List Text} {cursor : Nat} {line : Text} {rest : List Text} :
    GoesOn original cursor (line :: rest) ↔
      original[cursor]? = some line ∧ GoesOn original (cursor + 1) rest := by
  unfold GoesOn
  constructor
  · rintro ⟨tail, htail⟩
    have hget : original[cursor]? = some line := by
      have hhead : (original.drop cursor)[0]? = some line := by rw [← htail]; rfl
      simpa using hhead
    refine ⟨hget, tail, ?_⟩
    rw [← List.drop_drop, ← htail]
    rfl
  · rintro ⟨hget, tail, htail⟩
    refine ⟨tail, ?_⟩
    obtain ⟨hlt, hline⟩ := List.getElem?_eq_some_iff.mp hget
    rw [List.drop_eq_getElem_cons hlt, hline, ← htail]
    rfl

/-- **A body applies exactly where the file goes on with the lines that it expects.** -/
theorem applyBody_iff {original body output output' : List Text} {cursor cursor' : Nat} :
    applyBody original body output cursor = some (output', cursor') ↔
      (∀ line ∈ body, BodyLine line) ∧ GoesOn original cursor (oldLines body) ∧
      output' = output ++ newLines body ∧ cursor' = cursor + (oldLines body).length := by
  induction body generalizing output cursor with
  | nil =>
    simp only [applyBody, oldLines, newLines, List.append_nil, List.length_nil, Nat.add_zero,
      Option.some.injEq, Prod.mk.injEq]
    constructor
    · rintro ⟨rfl, rfl⟩
      exact ⟨fun _ h => absurd h List.not_mem_nil, goesOn_nil .., rfl, rfl⟩
    · rintro ⟨-, -, rfl, rfl⟩
      exact ⟨rfl, rfl⟩
  | cons line rest ih =>
    cases line with
    | nil =>
      constructor
      · intro h
        cases h
      · rintro ⟨hbody, -⟩
        cases hbody [] (List.mem_cons_self ..)
    | cons c content =>
      -- one case for each kind of line, and the lines that are of no kind
      by_cases hcontext : c = ' '
      · subst hcontext
        show (if original[cursor]? = some content then _ else none) = _ ↔ _
        rw [Option.ite_none_right_eq_some, ih, oldLines, newLines, goesOn_cons,
          List.forall_mem_cons, List.append_assoc, List.length_cons]
        constructor
        · rintro ⟨hget, hall, hgoes, rfl, rfl⟩
          exact ⟨⟨.context content, hall⟩, ⟨hget, hgoes⟩, rfl, by omega⟩
        · rintro ⟨⟨-, hall⟩, ⟨hget, hgoes⟩, rfl, rfl⟩
          exact ⟨hget, hall, hgoes, rfl, by omega⟩
      by_cases hdeleted : c = '-'
      · subst hdeleted
        show (if original[cursor]? = some content then _ else none) = _ ↔ _
        have hold : oldLines (('-' :: content) :: rest) = content :: oldLines rest := rfl
        have hnew : newLines (('-' :: content) :: rest) = newLines rest := rfl
        rw [Option.ite_none_right_eq_some, ih, hold, hnew, goesOn_cons, List.forall_mem_cons,
          List.length_cons]
        constructor
        · rintro ⟨hget, hall, hgoes, rfl, rfl⟩
          exact ⟨⟨.deleted content, hall⟩, ⟨hget, hgoes⟩, rfl, by omega⟩
        · rintro ⟨⟨-, hall⟩, ⟨hget, hgoes⟩, rfl, rfl⟩
          exact ⟨hget, hall, hgoes, rfl, by omega⟩
      by_cases hadded : c = '+'
      · subst hadded
        show applyBody original rest (output ++ [content]) cursor = _ ↔ _
        have hold : oldLines (('+' :: content) :: rest) = oldLines rest := rfl
        have hnew : newLines (('+' :: content) :: rest) = content :: newLines rest := rfl
        rw [ih, hold, hnew, List.forall_mem_cons, List.append_assoc]
        constructor
        · rintro ⟨hall, hrest⟩
          exact ⟨⟨.added content, hall⟩, hrest⟩
        · rintro ⟨⟨-, hall⟩, hrest⟩
          exact ⟨hall, hrest⟩
      by_cases hmarker : c = '\\'
      · subst hmarker
        show applyBody original rest output cursor = _ ↔ _
        have hold : oldLines (('\\' :: content) :: rest) = oldLines rest := rfl
        have hnew : newLines (('\\' :: content) :: rest) = newLines rest := rfl
        rw [ih, hold, hnew, List.forall_mem_cons]
        constructor
        · rintro ⟨hall, hrest⟩
          exact ⟨⟨.noNewline content, hall⟩, hrest⟩
        · rintro ⟨⟨-, hall⟩, hrest⟩
          exact ⟨hall, hrest⟩
      constructor
      · intro h
        simp [applyBody, hcontext, hdeleted, hadded, hmarker] at h
      · rintro ⟨hbody, -⟩
        cases hbody _ (List.mem_cons_self ..) with
        | context => exact absurd rfl hcontext
        | deleted => exact absurd rfl hdeleted
        | added => exact absurd rfl hadded
        | noNewline => exact absurd rfl hmarker

/-! ## The hunks of a section -/

/-- What hunks make of a file from a cursor on. -/
inductive Patched (original : List Text) : Nat → List (List Text) → List Text → Prop where
  | done (cursor : Nat) : Patched original cursor [] (original.drop cursor)
  | hunk {cursor : Nat} {header : Text} {body : List Text} {rest : List (List Text)} {start : Int}
      {tail : List Text} (hstart : oldStart header = some start)
      (hforward : cursor ≤ targetIndex start) (hlength : targetIndex start ≤ original.length)
      (hbody : ∀ line ∈ body, BodyLine line)
      (hgoes : GoesOn original (targetIndex start) (oldLines body))
      (hrest : Patched original (targetIndex start + (oldLines body).length) rest tail) :
      Patched original cursor ((header :: body) :: rest)
        ((original.take (targetIndex start)).drop cursor ++ newLines body ++ tail)

/-- The loop adds the outcome of the hunks to what it has so far. -/
theorem applyHunksFrom_iff {original output out : List Text} {hunks : List (List Text)}
    {cursor : Nat} :
    applyHunksFrom original hunks output cursor = some out ↔
      ∃ tail, Patched original cursor hunks tail ∧ out = output ++ tail := by
  induction hunks generalizing output cursor with
  | nil =>
    constructor
    · intro h
      cases h
      exact ⟨_, .done cursor, rfl⟩
    · rintro ⟨tail, hout, rfl⟩
      cases hout
      rfl
  | cons hunk rest ih =>
    constructor
    · intro h
      unfold applyHunksFrom at h
      split at h
      · cases h
      · rename_i header body
        split at h
        · cases h
        · rename_i start hstart
          simp only at h
          split at h
          · cases h
          · rename_i hbounds
            split at h
            · cases h
            · rename_i output' cursor' happly
              obtain ⟨hbody, hgoes, rfl, rfl⟩ := applyBody_iff.mp happly
              obtain ⟨tail, hrest, rfl⟩ := ih.mp h
              refine ⟨_, .hunk hstart (by omega) (by omega) hbody hgoes hrest, ?_⟩
              simp only [List.append_assoc]
    · rintro ⟨tail, hout, rfl⟩
      cases hout with
      | hunk hstart hforward hlength hbody hgoes hrest =>
        rename_i header body start tail
        have happly : applyBody original body
            (output ++ (original.take (targetIndex start)).drop cursor) (targetIndex start) =
            some (output ++ (original.take (targetIndex start)).drop cursor ++ newLines body,
              targetIndex start + (oldLines body).length) :=
          applyBody_iff.mpr ⟨hbody, hgoes, rfl, rfl⟩
        unfold applyHunksFrom
        simp only [hstart]
        rw [if_neg (by omega), happly]
        simp only
        refine ih.mpr ⟨tail, hrest, ?_⟩
        simp only [List.append_assoc]

theorem applyHunks_iff {original out : List Text} {hunks : List (List Text)} :
    applyHunks original hunks = some out ↔ Patched original 0 hunks out := by
  unfold applyHunks
  rw [applyHunksFrom_iff]
  constructor
  · rintro ⟨tail, hout, rfl⟩
    exact hout
  · intro hout
    exact ⟨out, hout, rfl⟩

/-! ## A file is determined by what hunks make of it -/

/-- The lines that hunks leave, without the lines that they keep in between. -/
def leftLines : List (List Text) → List Text
  | [] => []
  | hunk :: rest => newLines hunk.tail ++ leftLines rest

/-- What is kept from the cursor on up to a later place. -/
theorem drop_split {original : List Text} {cursor target : Nat} (h : cursor ≤ target) :
    original.drop cursor = (original.take target).drop cursor ++ original.drop target := by
  have hsplit : original.take target ++ original.drop target = original :=
    List.take_append_drop target original
  by_cases hlen : cursor ≤ (original.take target).length
  · rw [← List.drop_append_of_le_length hlen, hsplit]
  · rw [List.length_take] at hlen
    have hshort : original.length ≤ cursor := by omega
    rw [List.drop_eq_nil_of_le hshort, List.drop_eq_nil_of_le (by rw [List.length_take]; omega),
      List.drop_eq_nil_of_le (by omega)]
    rfl

/-- Behind the last line there is nothing to keep. -/
theorem Patched.at_end {original out : List Text} {hunks : List (List Text)} {cursor : Nat}
    (h : Patched original cursor hunks out) (hend : original.length ≤ cursor) :
    out = leftLines hunks := by
  induction h with
  | done cursor => exact List.drop_eq_nil_of_le hend
  | @hunk cursor header body rest start tail hstart hforward hlength hbody hgoes hrest ih =>
    have hkept : (original.take (targetIndex start)).drop cursor = [] :=
      List.drop_eq_nil_of_le (by rw [List.length_take]; omega)
    rw [hkept, ih (by omega)]
    rfl

/-- An outcome has at least the line ends of the lines that the hunks leave. -/
theorem Patched.countEnds_le {original out : List Text} {hunks : List (List Text)} {cursor : Nat}
    (h : Patched original cursor hunks out) :
    PyText.countEnds (leftLines hunks).flatten ≤ PyText.countEnds out.flatten := by
  induction h with
  | done cursor => exact Nat.zero_le _
  | @hunk cursor header body rest start tail _ _ _ _ _ _ ih =>
    have hleft : leftLines ((header :: body) :: rest) = newLines body ++ leftLines rest := rfl
    simp only [hleft, List.flatten_append, PyText.countEnds_append]
    omega

/-- The kept lines of one file cannot all be ended while the last of the other's is not: the
    outcomes would differ in the number of their line ends. -/
theorem kept_ended_absurd {original original' body tail tail' : List Text}
    {rest : List (List Text)} {cursor target : Nat}
    (hforward : cursor ≤ target) (hlength' : target ≤ original'.length)
    (hend : original.drop target = []) (hn : target - cursor = (original.drop cursor).length)
    (hcount : PyText.countEnds (original.drop cursor).flatten + 1 = target - cursor)
    (hended : ∀ l ∈ (original'.take target).drop cursor, PyText.Ended l)
    (hrest : Patched original (target + (oldLines body).length) rest tail)
    (hrest' : Patched original' (target + (oldLines body).length) rest tail')
    (heq : ((original.take target).drop cursor ++ newLines body ++ tail).flatten =
      ((original'.take target).drop cursor ++ newLines body ++ tail').flatten) : False := by
  have hlen : original.length ≤ target := List.drop_eq_nil_iff.mp hend
  have htail : tail = leftLines rest := hrest.at_end (by omega)
  have hkept : (original.take target).drop cursor = original.drop cursor := by
    rw [List.take_of_length_le hlen]
  have hsame := congrArg PyText.countEnds heq
  simp only [List.flatten_append, PyText.countEnds_append, hkept, htail,
    PyText.countEnds_flatten hended] at hsame
  have hmore := hrest'.countEnds_le
  rw [List.length_drop, List.length_take] at hsame
  omega

/-- Two files with one outcome go on with the same lines. -/
theorem Patched.drop_inj {original original' out out' : List Text} {hunks : List (List Text)}
    {cursor : Nat} (h : Patched original cursor hunks out)
    (h' : Patched original' cursor hunks out') (hlines : PyText.LineList (original.drop cursor))
    (hlines' : PyText.LineList (original'.drop cursor)) (heq : out.flatten = out'.flatten) :
    original.drop cursor = original'.drop cursor := by
  induction h generalizing out' with
  | done cursor =>
    cases h'
    exact hlines.flatten_inj hlines' heq
  | @hunk cursor header body rest start tail hstart hforward hlength hbody hgoes hrest ih =>
    cases h' with
    | @hunk _ _ _ _ start' tail' hstart' hforward' hlength' hbody' hgoes' hrest' =>
      obtain rfl : start = start' := Option.some.inj (hstart.symm.trans hstart')
      have hn : targetIndex start - cursor ≤ (original.drop cursor).length := by
        rw [List.length_drop]; omega
      have hn' : targetIndex start - cursor ≤ (original'.drop cursor).length := by
        rw [List.length_drop]; omega
      have hkept := hlines.take_cases hn
      have hkept' := hlines'.take_cases hn'
      rw [← List.drop_take] at hkept hkept'
      -- behind the kept lines both files go on with the expected ones
      have hbehind : ∀ {o : List Text}, GoesOn o (targetIndex start) (oldLines body) →
          o.drop (targetIndex start) =
            oldLines body ++ o.drop (targetIndex start + (oldLines body).length) := by
        rintro o ⟨more, hmore⟩
        rw [← hmore, ← List.drop_drop, ← hmore, List.drop_left]
      rcases hkept with hended | ⟨hlast, hcount⟩
      · rcases hkept' with hended' | ⟨hlast', hcount'⟩
        · have hlen : ((original.take (targetIndex start)).drop cursor).length =
              ((original'.take (targetIndex start)).drop cursor).length := by
            simp only [List.length_drop, List.length_take]; omega
          simp only [List.append_assoc, List.flatten_append] at heq
          obtain ⟨hsame, hmore⟩ := PyText.ended_flatten_inj hlen hended hended' heq
          have hgo : original.drop (targetIndex start + (oldLines body).length) =
              original'.drop (targetIndex start + (oldLines body).length) := by
            have hl := hlines.drop (targetIndex start + (oldLines body).length - cursor)
            have hl' := hlines'.drop (targetIndex start + (oldLines body).length - cursor)
            rw [List.drop_drop, Nat.add_sub_cancel' (by omega)] at hl hl'
            exact ih hrest' hl hl' (List.append_cancel_left hmore)
          rw [drop_split hforward, @drop_split original' _ _ hforward, hsame,
            hbehind hgoes, hbehind hgoes', hgo]
        · have hend' : original'.drop (targetIndex start) = [] := by
            rw [List.length_drop] at hlast'
            exact List.drop_eq_nil_of_le (by omega)
          exact (kept_ended_absurd hforward hlength hend' hlast' hcount' hended hrest' hrest
            heq.symm).elim
      · have hend : original.drop (targetIndex start) = [] := by
          rw [List.length_drop] at hlast
          exact List.drop_eq_nil_of_le (by omega)
        rcases hkept' with hended' | ⟨hlast', hcount'⟩
        · exact (kept_ended_absurd hforward hlength' hend hlast hcount hended' hrest hrest'
            heq).elim
        · -- both files end here: what is behind comes from the hunks alone
          have hend' : original'.drop (targetIndex start) = [] := by
            rw [List.length_drop] at hlast'
            exact List.drop_eq_nil_of_le (by omega)
          have htail := hrest.at_end
            (Nat.le_add_right_of_le (List.drop_eq_nil_iff.mp hend))
          have htail' := hrest'.at_end
            (Nat.le_add_right_of_le (List.drop_eq_nil_iff.mp hend'))
          rw [htail, htail', List.take_of_length_le (List.drop_eq_nil_iff.mp hend),
            List.take_of_length_le (List.drop_eq_nil_iff.mp hend')] at heq
          simp only [List.append_assoc, List.flatten_append] at heq
          exact hlines.flatten_inj hlines' (List.append_cancel_right heq)

/-- **A text that was read is determined by the hunks and by what they make of it.** -/
theorem patchText_injective {text text' out : Text} {hunks : List (List Text)}
    (hread : '\r' ∉ text) (hread' : '\r' ∉ text') (h : patchText text hunks = some out)
    (h' : patchText text' hunks = some out) : text = text' := by
  unfold patchText at h h'
  obtain ⟨lines, hlines, rfl⟩ := Option.map_eq_some_iff.mp h
  obtain ⟨lines', hlines', heq⟩ := Option.map_eq_some_iff.mp h'
  have hdrop := (applyHunks_iff.mp hlines).drop_inj (applyHunks_iff.mp hlines')
    (PyText.lineList_splitlines hread) (PyText.lineList_splitlines hread') heq.symm
  rw [← PyText.flatten_splitlines text, ← PyText.flatten_splitlines text']
  exact congrArg List.flatten hdrop

end Vad
