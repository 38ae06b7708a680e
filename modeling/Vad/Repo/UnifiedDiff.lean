/-
  Unified diffs of text files, and what `apply_unified_diff` (`vad/repo/patch_apply.py`) makes of
  them.

  1. **The format** — a diff has one section for each file, with lines that tell the file's name and
     with hunks (`FileDiff.render`).  A hunk says where it stands, and line by line what is kept,
     deleted and added.

  2. **The meaning** — `Rewrites`: the lines of the old file are those of the new one, but for the
     hunks, in order.  An empty old range names the line that it stands behind, every other range
     the line that it begins with.

  3. **What the code reads** — the lines of a text diff are split again by `splitlines`
     (`lines_of_render`), its sections and hunks are found by what lines begin with
     (`parse_render`), and the hunks are applied at the lines that they name
     (`patched_of_rewrites`).

  4. **The result** — `applies_of_supported`: a diff is applied as it is meant, if no line of it
     looks like another one, no file lacks its last line end inside a hunk, and the files have no
     other line boundaries (`Supported`).  Six diffs that are not are listed behind it
     (`unsupported_fail`).
-/
import Vad.Repo.RepeatedSections

namespace Vad

open PyText (Text splitlines IsLine startsWith strip)
open Files (Paths Disk encode)

/-! ## The format -/

inductive LineOp where
  | context | deleted | added
deriving DecidableEq, Repr

def LineOp.mark : LineOp → Char
  | .context => ' '
  | .deleted => '-'
  | .added => '+'

/-- A line of a hunk: only the last line of a file may lack its newline. -/
structure DiffLine where
  op : LineOp
  text : Text
  ended : Bool := true
deriving DecidableEq, Repr

/-- The line as it stands in the file. -/
def DiffLine.line (l : DiffLine) : Text := l.text ++ if l.ended then ['\n'] else []

/-- The line as it stands in the diff. -/
def DiffLine.shown (l : DiffLine) : Text := l.op.mark :: (l.text ++ ['\n'])

/-- The line that follows a line without newline. -/
def noNewlineLine : Text := "\\ No newline at end of file\n".toList

def DiffLine.render (l : DiffLine) : List Text :=
  l.shown :: if l.ended then [] else [noNewlineLine]

structure DiffHunk where
  oldStart : Nat
  newStart : Nat
  /-- A count of one is left out of a range. -/
  short : Bool := true
  /-- What stands behind the ranges. -/
  heading : Text := []
  body : List DiffLine
deriving DecidableEq, Repr

namespace DiffHunk

variable (h : DiffHunk)

/-- The lines of the old file. -/
def old : List Text := (h.body.filter fun l => l.op ≠ .added).map DiffLine.line

/-- The lines of the new file. -/
def new : List Text := (h.body.filter fun l => l.op ≠ .deleted).map DiffLine.line

/-- A range of lines, from a start on. -/
def range (start count : Nat) : Text :=
  Nat.toDigits 10 start ++ if h.short = true ∧ count = 1 then [] else ',' :: Nat.toDigits 10 count

def header : Text :=
  '@' :: '@' :: ' ' :: '-' :: (h.range h.oldStart h.old.length ++
    ' ' :: '+' :: (h.range h.newStart h.new.length ++
      ' ' :: '@' :: '@' :: (h.heading ++ ['\n'])))

def render : List Text := h.header :: h.body.flatMap DiffLine.render

/-- How many lines of the old file there are up to the end of the hunk. -/
def oldEnd : Nat := if h.old = [] then h.oldStart else h.oldStart - 1 + h.old.length

end DiffHunk

/-- The section of a file. -/
structure FileDiff where
  path : String
  /-- The names have the prefixes `a/` and `b/`. -/
  prefixed : Bool := true
  /-- What stands behind the names, such as a time. -/
  oldStamp : Text := []
  newStamp : Text := []
  /-- The lines in front of the names, such as `diff --git` and `index`. -/
  extended : List Text := []
  hunks : List DiffHunk
deriving DecidableEq, Repr

namespace FileDiff

variable (f : FileDiff)

def oldName : Text := (if f.prefixed then ['a', '/'] else []) ++ (f.path.toList ++ f.oldStamp)

def newName : Text := (if f.prefixed then ['b', '/'] else []) ++ (f.path.toList ++ f.newStamp)

/-- The two lines with the names, and the hunks. -/
def renderNames : List Text :=
  (oldFileMark ++ (f.oldName ++ ['\n'])) :: (newFileMark ++ (f.newName ++ ['\n'])) ::
    f.hunks.flatMap DiffHunk.render

def render : List Text := f.extended.map (· ++ ['\n']) ++ f.renderNames

/-- How many lines of the old file there are up to the end of the furthest hunk. -/
def reach : Nat := f.hunks.foldr (fun h n => max h.oldEnd n) 0

end FileDiff

/-- The text of a diff. -/
def renderDiff (files : List FileDiff) : Text := (files.flatMap FileDiff.render).flatten

/-- A section of a diff as tools write it. -/
structure FileDiff.WellFormed (f : FileDiff) : Prop where
  name : f.path ≠ "" ∧ '\n' ∉ f.path.toList ∧ '\t' ∉ f.path.toList
  stamps : ∀ stamp ∈ [f.oldStamp, f.newStamp], '\n' ∉ stamp ∧ (stamp = [] ∨ stamp.head? = some '\t')
  extended : ∀ line ∈ f.extended, '\n' ∉ line ∧ line.head?.any Char.isLower = true
  hunks : f.hunks ≠ []
  lines : ∀ h ∈ f.hunks, '\n' ∉ h.heading ∧ ∀ l ∈ h.body, '\n' ∉ l.text

/-! ## The meaning -/

/-- The lines of a text, with their newlines. -/
def fileLines : Text → List Text
  | [] => []
  | c :: t =>
    if c = '\n' then [c] :: fileLines t
    else
      match fileLines t with
      | [] => [[c]]
      | line :: rest => (c :: line) :: rest

theorem flatten_fileLines (t : Text) : (fileLines t).flatten = t := by
  induction t with
  | nil => rfl
  | cons c t ih =>
    unfold fileLines
    split
    · rw [List.flatten_cons, ih]
      rfl
    · split
      · rename_i hnil
        rw [hnil] at ih
        rw [← ih]
        rfl
      · rename_i hcons
        rw [hcons] at ih
        rw [← ih]
        rfl

/-- The number of a range that begins behind so many lines. -/
def startOf (before count : Nat) : Nat := if count = 0 then before else before + 1

/-- Hunks turn lines of the old file, behind so many, into lines of the new one, behind so many. -/
inductive Rewrites : Nat → Nat → List DiffHunk → List Text → List Text → Prop where
  | done (i j : Nat) (lines : List Text) : Rewrites i j [] lines lines
  | hunk {i j : Nat} {h : DiffHunk} {hunks : List DiffHunk} {kept olds news : List Text}
      (hold : h.oldStart = startOf (i + kept.length) h.old.length)
      (hnew : h.newStart = startOf (j + kept.length) h.new.length)
      (hrest : Rewrites (i + kept.length + h.old.length) (j + kept.length + h.new.length) hunks
        olds news) :
      Rewrites i j (h :: hunks) (kept ++ (h.old ++ olds)) (kept ++ (h.new ++ news))

/-- A file, what it becomes, and the section of the diff that says so. -/
structure FileChange where
  diff : FileDiff
  old : Text
  new : Text

structure FileChange.WellFormed (c : FileChange) : Prop where
  diff : c.diff.WellFormed
  rewrites : Rewrites 0 0 c.diff.hunks (fileLines c.old) (fileLines c.new)

instance (f : FileDiff) : Decidable f.WellFormed :=
  decidable_of_iff ((f.path ≠ "" ∧ '\n' ∉ f.path.toList ∧ '\t' ∉ f.path.toList) ∧
      (∀ stamp ∈ [f.oldStamp, f.newStamp],
        '\n' ∉ stamp ∧ (stamp = [] ∨ stamp.head? = some '\t')) ∧
      (∀ line ∈ f.extended, '\n' ∉ line ∧ line.head?.any Char.isLower = true) ∧ f.hunks ≠ [] ∧
      ∀ h ∈ f.hunks, '\n' ∉ h.heading ∧ ∀ l ∈ h.body, '\n' ∉ l.text)
    ⟨fun ⟨name, stamps, extended, hunks, lines⟩ => ⟨name, stamps, extended, hunks, lines⟩,
      fun h => ⟨h.name, h.stamps, h.extended, h.hunks, h.lines⟩⟩

/-- What hunks make of lines, if they can. -/
def rewriteFrom (i j : Nat) : List DiffHunk → List Text → Option (List Text)
  | [], lines => some lines
  | h :: hunks, lines =>
    let n := (if h.old = [] then h.oldStart else h.oldStart - 1) - i
    if h.oldStart = startOf (i + n) h.old.length ∧ h.newStart = startOf (j + n) h.new.length ∧
        n ≤ lines.length ∧ (lines.drop n).take h.old.length = h.old then
      (rewriteFrom (i + n + h.old.length) (j + n + h.new.length) hunks
        ((lines.drop n).drop h.old.length)).map fun news => lines.take n ++ (h.new ++ news)
    else none

theorem rewrites_of_rewriteFrom {hunks : List DiffHunk} : ∀ {i j : Nat} {olds news : List Text},
    rewriteFrom i j hunks olds = some news → Rewrites i j hunks olds news := by
  induction hunks with
  | nil =>
    intro i j olds news h
    cases h
    exact .done i j olds
  | cons h hunks ih =>
    intro i j olds news hnews
    unfold rewriteFrom at hnews
    dsimp only at hnews
    generalize (if h.old = [] then h.oldStart else h.oldStart - 1) - i = n at hnews
    split at hnews
    case isFalse => cases hnews
    rename_i hfits
    obtain ⟨hold, hnew, hlength, hthere⟩ := hfits
    obtain ⟨rest, hrest, rfl⟩ := Option.map_eq_some_iff.mp hnews
    have hkept : (olds.take n).length = n := by
      rw [List.length_take]
      omega
    have hdrop : h.old ++ (olds.drop n).drop h.old.length = olds.drop n := by
      conv_rhs => rw [← List.take_append_drop h.old.length (olds.drop n), hthere]
    have hrewrites := @Rewrites.hunk _ _ _ _ (olds.take n) _ _ (by rw [hkept]; exact hold)
      (by rw [hkept]; exact hnew) (by rw [hkept]; exact ih hrest)
    rwa [hdrop, List.take_append_drop] at hrewrites

/-! ## What the code reads -/

section Reading

/-! ### Headers -/

theorem numeral_toDigits (n : Nat) : PyText.numeral (Nat.toDigits 10 n) = n := by
  have hread := Nat.ofDigitChars_ten_toDigits (n := n)
  rw [Nat.ofDigitChars_eq_foldl] at hread
  simp only [Nat.mul_comm 10] at hread
  exact hread

theorem oldStart_header (h : DiffHunk) : oldStart h.header = some (h.oldStart : Int) := by
  have hdigit : ∀ n, ∀ c ∈ Nat.toDigits 10 n, c.isDigit = true := fun n c hc =>
    Nat.isDigit_of_mem_toDigits (by decide) (by decide) hc
  have hne : ∀ {c d : Char}, d.isDigit = false → c.isDigit = true → c ≠ d := by
    rintro c d hd hc rfl
    rw [hd] at hc
    cases hc
  -- the text of the old range, up to the space behind it
  have hspace : ∀ c ∈ '-' :: h.range h.oldStart h.old.length, decide (c ≠ ' ') = true := by
    intro c hc
    refine decide_eq_true ?_
    rcases List.mem_cons.mp hc with rfl | hc
    · decide
    rcases List.mem_append.mp hc with hc | hc
    · exact hne (by decide) (hdigit _ c hc)
    split at hc
    · exact absurd hc List.not_mem_nil
    rcases List.mem_cons.mp hc with rfl | hc
    · decide
    · exact hne (by decide) (hdigit _ c hc)
  have hfield : secondField h.header = some ('-' :: h.range h.oldStart h.old.length) := by
    show some (List.takeWhile (fun c => decide (c ≠ ' ')) (('-' :: h.range h.oldStart h.old.length) ++
      (' ' :: '+' :: (h.range h.newStart h.new.length ++
        ' ' :: '@' :: '@' :: (h.heading ++ ['\n']))))) = _
    rw [List.takeWhile_append_of_pos hspace, List.takeWhile_cons_of_neg (by decide),
      List.append_nil]
  have hdrop : ('-' :: h.range h.oldStart h.old.length).dropWhile (fun c => decide (c = '-')) =
      h.range h.oldStart h.old.length := by
    rw [List.dropWhile_cons_of_pos (by decide)]
    obtain ⟨c, t, hct⟩ := List.exists_cons_of_ne_nil (Nat.toDigits_ne_nil (b := 10) (n := h.oldStart))
    have hc := hdigit h.oldStart c (hct ▸ List.mem_cons_self ..)
    unfold DiffHunk.range
    rw [hct, List.cons_append, List.dropWhile_cons_of_neg]
    exact fun heq => hne (by decide) hc (of_decide_eq_true heq)
  have htake : (h.range h.oldStart h.old.length).takeWhile (fun c => decide (c ≠ ',')) =
      Nat.toDigits 10 h.oldStart := by
    unfold DiffHunk.range
    rw [List.takeWhile_append_of_pos fun c hc =>
      decide_eq_true (hne (by decide) (hdigit _ c hc))]
    split
    · rw [List.takeWhile_nil, List.append_nil]
    · rw [List.takeWhile_cons_of_neg (by decide), List.append_nil]
  have hparse := @PyText.parseInt_numeral (Nat.toDigits 10 h.oldStart) []
    Nat.toDigits_ne_nil (hdigit _) fun _ hc => absurd hc List.not_mem_nil
  rw [List.append_nil, numeral_toDigits] at hparse
  unfold oldStart
  rw [hfield]
  dsimp only
  rw [hdrop, htake, hparse]
  rfl

/-! ### Bodies -/

/-- The hunk is shown line by line, if no line of it lacks its newline. -/
theorem render_of_ended {h : DiffHunk} (hended : ∀ l ∈ h.body, l.ended = true) :
    h.render = h.header :: h.body.map DiffLine.shown := by
  unfold DiffHunk.render
  congr 1
  revert hended
  induction h.body with
  | nil => exact fun _ => rfl
  | cons l body ih =>
    intro hended
    have hfirst : l.render = [l.shown] := by
      unfold DiffLine.render
      rw [if_pos (hended l (List.mem_cons_self ..))]
    rw [List.flatMap_cons, List.map_cons, hfirst, ih fun x hx => hended x (List.mem_cons_of_mem _ hx)]
    rfl

theorem shown_of_ended {l : DiffLine} (h : l.ended = true) : l.shown = l.op.mark :: l.line := by
  unfold DiffLine.shown DiffLine.line
  rw [if_pos h]

theorem bodyLine_shown (l : DiffLine) : BodyLine l.shown := by
  unfold DiffLine.shown
  cases l.op with
  | context => exact .context _
  | deleted => exact .deleted _
  | added => exact .added _

/-- What the code expects and leaves are the old and the new lines. -/
theorem oldLines_newLines_shown {body : List DiffLine} (h : ∀ l ∈ body, l.ended = true) :
    oldLines (body.map DiffLine.shown) = (body.filter fun l => l.op ≠ .added).map DiffLine.line ∧
      newLines (body.map DiffLine.shown) =
        (body.filter fun l => l.op ≠ .deleted).map DiffLine.line := by
  induction body with
  | nil => exact ⟨rfl, rfl⟩
  | cons l body ih =>
    obtain ⟨hold, hnew⟩ := ih fun x hx => h x (List.mem_cons_of_mem _ hx)
    rw [List.map_cons, shown_of_ended (h l (List.mem_cons_self ..))]
    cases hop : l.op with
    | context =>
      rw [List.filter_cons_of_pos (by simp [hop]), List.filter_cons_of_pos (by simp [hop])]
      show l.line :: oldLines (body.map DiffLine.shown) = _ ∧
        l.line :: newLines (body.map DiffLine.shown) = _
      rw [hold, hnew]
      exact ⟨rfl, rfl⟩
    | deleted =>
      rw [List.filter_cons_of_pos (by simp [hop]), List.filter_cons_of_neg (by simp [hop])]
      show l.line :: oldLines (body.map DiffLine.shown) = _ ∧
        newLines (body.map DiffLine.shown) = _
      rw [hold, hnew]
      exact ⟨rfl, rfl⟩
    | added =>
      rw [List.filter_cons_of_neg (by simp [hop]), List.filter_cons_of_pos (by simp [hop])]
      show oldLines (body.map DiffLine.shown) = _ ∧
        l.line :: newLines (body.map DiffLine.shown) = _
      rw [hold, hnew]
      exact ⟨rfl, rfl⟩

/-! ### Sections -/

/-- No line of the body is taken for the first line of a section. -/
def NoFileMark (h : DiffHunk) : Prop := ∀ l ∈ h.body, startsWith oldFileMark l.shown = false

/-- What follows a section: nothing, or the first line of another one. -/
def SectionEnd (lines : List Text) : Prop := ∀ line ∈ lines.head?, startsWith oldFileMark line = true

theorem scanHunks_end {lines : List Text} (h : SectionEnd lines) : scanHunks lines = ([], []) := by
  cases lines with
  | nil => rfl
  | cons line rest =>
    unfold scanHunks
    rw [if_pos (h line rfl)]

/-- Lines that are neither headers of hunks nor of files are the body of a hunk. -/
theorem scanHunks_body {body rest lead : List Text} {hunks : List (List Text)}
    (hfile : ∀ line ∈ body, startsWith oldFileMark line = false)
    (hhunk : ∀ line ∈ body, startsWith hunkMark line = false)
    (hrest : scanHunks rest = (lead, hunks)) : scanHunks (body ++ rest) = (body ++ lead, hunks) := by
  induction body with
  | nil => exact hrest
  | cons line body ih =>
    have hmore := ih (fun x hx => hfile x (List.mem_cons_of_mem _ hx))
      fun x hx => hhunk x (List.mem_cons_of_mem _ hx)
    rw [List.cons_append, scanHunks, if_neg (by rw [hfile line (List.mem_cons_self ..)]; decide),
      hmore]
    dsimp only
    rw [if_neg (by rw [hhunk line (List.mem_cons_self ..)]; decide)]
    rfl

theorem not_hunkMark_shown (l : DiffLine) : startsWith hunkMark l.shown = false := by
  unfold DiffLine.shown
  cases l.op <;> rfl

/-- The hunks of a section are found. -/
theorem scanHunks_render {hunks : List DiffHunk} {rest : List Text} (hrest : SectionEnd rest)
    (hended : ∀ h ∈ hunks, ∀ l ∈ h.body, l.ended = true) (hmark : ∀ h ∈ hunks, NoFileMark h) :
    scanHunks (hunks.flatMap DiffHunk.render ++ rest) = ([], hunks.map DiffHunk.render) := by
  induction hunks with
  | nil => exact scanHunks_end hrest
  | cons h hunks ih =>
    have hmore := ih (fun x hx => hended x (List.mem_cons_of_mem _ hx))
      fun x hx => hmark x (List.mem_cons_of_mem _ hx)
    have hshown := render_of_ended (hended h (List.mem_cons_self ..))
    have hbody : scanHunks (h.body.map DiffLine.shown ++
        (hunks.flatMap DiffHunk.render ++ rest)) =
          (h.body.map DiffLine.shown ++ [], hunks.map DiffHunk.render) := by
      refine scanHunks_body (fun line hline => ?_) (fun line hline => ?_) hmore
      · obtain ⟨l, hl, rfl⟩ := List.mem_map.mp hline
        exact hmark h (List.mem_cons_self ..) l hl
      · obtain ⟨l, hl, rfl⟩ := List.mem_map.mp hline
        exact not_hunkMark_shown l
    rw [List.append_nil] at hbody
    rw [List.flatMap_cons, List.append_assoc, hshown, List.cons_append, scanHunks,
      if_neg (show ¬ startsWith oldFileMark h.header = true from Bool.false_ne_true), hbody,
      List.map_cons, hshown]
    rfl

/-- The lines of a section that are not its first are passed over. -/
theorem parseSections_skip {lines rest : List Text}
    (h : ∀ line ∈ lines, startsWith oldFileMark line = false) :
    parseSections (lines ++ rest) = parseSections rest := by
  induction lines with
  | nil => rfl
  | cons line lines ih =>
    rw [List.cons_append, parseSections.eq_def]
    dsimp only
    rw [if_neg (by rw [h line (List.mem_cons_self ..)]; decide)]
    exact ih fun x hx => h x (List.mem_cons_of_mem _ hx)

/-- The path that the code takes from the second line of a section. -/
def FileDiff.namedPath (f : FileDiff) : String :=
  String.ofList (cleanDiffPath (strip (f.newName ++ ['\n'])))

/-- A section as it is parsed. -/
def FileDiff.patch (f : FileDiff) : FilePatch := ⟨f.namedPath, f.hunks.map DiffHunk.render⟩

theorem parseSections_names {f : FileDiff} {rest : List Text} (hrest : SectionEnd rest)
    (hended : ∀ h ∈ f.hunks, ∀ l ∈ h.body, l.ended = true) (hmark : ∀ h ∈ f.hunks, NoFileMark h) :
    parseSections (f.renderNames ++ rest) = (parseSections rest).map (f.patch :: ·) := by
  have hhunks := scanHunks_render hrest hended hmark
  have hskip : parseSections (f.hunks.flatMap DiffHunk.render ++ rest) = parseSections rest := by
    refine parseSections_skip fun line hline => ?_
    obtain ⟨h, hh, hline⟩ := List.mem_flatMap.mp hline
    rw [render_of_ended (hended h hh)] at hline
    rcases List.mem_cons.mp hline with rfl | hline
    · rfl
    · obtain ⟨l, hl, rfl⟩ := List.mem_map.mp hline
      exact hmark h hh l hl
  unfold FileDiff.renderNames
  rw [List.cons_append, List.cons_append, parseSections.eq_def]
  dsimp only
  rw [if_pos (show startsWith oldFileMark (oldFileMark ++ _) = true from rfl)]
  rw [if_pos (show startsWith newFileMark (newFileMark ++ _) = true from rfl), hskip, hhunks]
  rfl

theorem sectionEnd_names (files : List FileDiff) :
    SectionEnd (files.flatMap FileDiff.renderNames) := by
  intro line hline
  cases files with
  | nil => cases hline
  | cons f files =>
    cases hline
    rfl

/-- **The sections of a diff are found**, if only the first has lines in front of its names. -/
theorem parse_render {f : FileDiff} {files : List FileDiff}
    (hlines : ∀ line ∈ (f :: files).flatMap FileDiff.render, IsLine line)
    (hended : ∀ x ∈ f :: files, ∀ h ∈ x.hunks, ∀ l ∈ h.body, l.ended = true)
    (hmark : ∀ x ∈ f :: files, ∀ h ∈ x.hunks, NoFileMark h)
    (hfront : ∀ line ∈ f.extended, line.head?.any Char.isLower = true)
    (hextended : ∀ x ∈ files, x.extended = []) :
    parseUnifiedDiff (renderDiff (f :: files)) = (f :: files).map FileDiff.patch := by
  have hsplit : splitlines (renderDiff (f :: files)) = (f :: files).flatMap FileDiff.render := by
    have hflatten := PyText.splitlines_flatten hlines []
    rwa [List.append_nil, splitlines, List.append_nil] at hflatten
  have hnames : ∀ x ∈ files, x.render = x.renderNames := by
    intro x hx
    unfold FileDiff.render
    rw [hextended x hx]
    rfl
  have hrest : ∀ (files : List FileDiff),
      (∀ x ∈ files, ∀ h ∈ x.hunks, ∀ l ∈ h.body, l.ended = true) →
      (∀ x ∈ files, ∀ h ∈ x.hunks, NoFileMark h) →
        parseSections (files.flatMap FileDiff.renderNames) = some (files.map FileDiff.patch) := by
    intro files
    induction files with
    | nil => exact fun _ _ => rfl
    | cons x files ih =>
      intro hended hmark
      rw [List.flatMap_cons, parseSections_names (sectionEnd_names files)
        (hended x (List.mem_cons_self ..)) (hmark x (List.mem_cons_self ..)),
        ih (fun y hy => hended y (List.mem_cons_of_mem _ hy))
          fun y hy => hmark y (List.mem_cons_of_mem _ hy)]
      rfl
  have hskip : ∀ line ∈ f.extended.map (· ++ ['\n']), startsWith oldFileMark line = false := by
    intro line hline
    obtain ⟨text, htext, rfl⟩ := List.mem_map.mp hline
    have hlower := hfront text htext
    cases text with
    | nil => cases hlower
    | cons c t =>
      have hne : ('-' == c) = false := by
        refine beq_eq_false_iff_ne.mpr ?_
        rintro rfl
        exact absurd (show Char.isLower '-' = true from hlower) (by decide)
      show (('-' == c) && _) = false
      rw [hne, Bool.false_and]
  unfold parseUnifiedDiff
  rw [hsplit, List.flatMap_cons, List.flatMap_congr hnames]
  unfold FileDiff.render
  rw [List.append_assoc, parseSections_skip hskip, ← List.flatMap_cons, hrest _ hended hmark]
  rfl

/-! ### Hunks -/

/-- The hunks make of the lines what they say: the file goes on, behind so many lines, with the old
    lines, of which those behind the last hunk may be split in another way. -/
theorem patched_of_rewrites {i j : Nat} {hunks : List DiffHunk} {olds news : List Text}
    (h : Rewrites i j hunks olds news) : ∀ original front back back' : List Text,
      (∀ h ∈ hunks, ∀ l ∈ h.body, l.ended = true) →
      (∀ h ∈ hunks, h.old = [] → h.oldStart = 0) →
      (∀ h ∈ hunks, h.oldEnd ≤ i + front.length) → olds = front ++ back →
      original.drop i = front ++ back' → back.flatten = back'.flatten → i ≤ original.length →
        ∃ out, Patched original i (hunks.map DiffHunk.render) out ∧ out.flatten = news.flatten := by
  induction h with
  | done i j lines =>
    intro original front back back' _ _ _ holds hdrop hback _
    refine ⟨original.drop i, .done i, ?_⟩
    rw [hdrop, holds, List.flatten_append, List.flatten_append, hback]
  | @hunk i j h hunks kept olds news hold _ _ ih =>
    intro original front back back' hended hempty hreach holds hdrop hback hi
    have hmem : h ∈ h :: hunks := List.mem_cons_self ..
    obtain ⟨hexpects, hleaves⟩ := oldLines_newLines_shown (hended h hmem)
    -- where the hunk stands, and where it ends
    have htarget : targetIndex (h.oldStart : Int) = i + kept.length := by
      unfold targetIndex
      by_cases hnil : h.old = []
      · have hzero := hempty h hmem hnil
        rw [hold, hnil, startOf, List.length_nil, if_pos rfl] at hzero
        rw [hold, hnil, startOf, List.length_nil, if_pos rfl]
        omega
      · have hne : h.old.length ≠ 0 := fun hlen => hnil (List.eq_nil_of_length_eq_zero hlen)
        rw [hold, startOf, if_neg hne]
        omega
    have hend : h.oldEnd = i + kept.length + h.old.length := by
      unfold DiffHunk.oldEnd
      split
      · rename_i hnil
        rw [hold, hnil, startOf, List.length_nil, if_pos rfl, Nat.add_zero]
      · rename_i hnil
        have hne : h.old.length ≠ 0 := fun hlen => hnil (List.eq_nil_of_length_eq_zero hlen)
        rw [hold, startOf, if_neg hne]
        omega
    -- so its lines are among those that are split as they are meant
    obtain ⟨front', rfl⟩ : ∃ front', front = kept ++ (h.old ++ front') := by
      have hlength := hreach h hmem
      rw [hend] at hlength
      have hprefix : kept ++ h.old <+: front := by
        refine List.prefix_of_prefix_length_le (?_ : kept ++ h.old <+: front ++ back)
          (List.prefix_append ..) ?_
        · rw [← holds, ← List.append_assoc]
          exact List.prefix_append ..
        · rw [List.length_append]
          omega
      obtain ⟨front', hfront'⟩ := hprefix
      exact ⟨front', by rw [← hfront', List.append_assoc]⟩
    have holds' : olds = front' ++ back := by
      rw [List.append_assoc, List.append_assoc] at holds
      exact List.append_cancel_left (List.append_cancel_left holds)
    rw [List.append_assoc, List.append_assoc] at hdrop
    have hbehind : original.drop (i + kept.length) = h.old ++ (front' ++ back') := by
      rw [← List.drop_drop, hdrop, List.drop_left]
    have hrest : original.drop (i + kept.length + h.old.length) = front' ++ back' := by
      rw [← List.drop_drop, hbehind, List.drop_left]
    have hlength : original.length = i + kept.length + h.old.length + (front' ++ back').length := by
      have hdrops := congrArg List.length hdrop
      rw [List.length_drop, List.length_append, List.length_append] at hdrops
      omega
    have hkept : (original.take (i + kept.length)).drop i = kept := by
      rw [List.drop_take, hdrop, Nat.add_sub_cancel_left, List.take_left]
    obtain ⟨tail, htail, hflatten⟩ := ih original front' back back'
      (fun x hx => hended x (List.mem_cons_of_mem _ hx))
      (fun x hx => hempty x (List.mem_cons_of_mem _ hx)) (fun x hx => by
        have hx' := hreach x (List.mem_cons_of_mem _ hx)
        rw [List.length_append, List.length_append] at hx'
        omega) holds' hrest hback (by omega)
    refine ⟨kept ++ h.new ++ tail, ?_, ?_⟩
    · have hpatched := @Patched.hunk original i _ (h.body.map DiffLine.shown)
        (hunks.map DiffHunk.render) _ tail (oldStart_header h)
        (by rw [htarget]; omega) (by rw [htarget]; omega)
        (fun line hline => by
          obtain ⟨l, -, rfl⟩ := List.mem_map.mp hline
          exact bodyLine_shown l)
        (by
          rw [htarget, hexpects]
          exact ⟨front' ++ back', hbehind.symm⟩)
        (by
          rw [htarget, hexpects]
          exact htail)
      rw [htarget, hkept, hleaves] at hpatched
      rw [List.map_cons, render_of_ended (hended h hmem)]
      exact hpatched
    · rw [List.flatten_append, List.flatten_append, List.flatten_append, List.flatten_append,
        hflatten, List.append_assoc]

theorem oldEnd_le {i j : Nat} {hunks : List DiffHunk} {olds news : List Text}
    (h : Rewrites i j hunks olds news) : ∀ h ∈ hunks, h.oldEnd ≤ i + olds.length := by
  induction h with
  | done i j lines => exact fun _ hh => absurd hh List.not_mem_nil
  | @hunk i j h hunks kept olds news hold _ _ ih =>
    intro x hx
    rw [List.length_append, List.length_append]
    rcases List.mem_cons.mp hx with rfl | hx
    · unfold DiffHunk.oldEnd
      split
      · rename_i hnil
        rw [hold, hnil, startOf, List.length_nil, if_pos rfl]
        omega
      · rename_i hnil
        have hne : x.old.length ≠ 0 := fun hlen => hnil (List.eq_nil_of_length_eq_zero hlen)
        rw [hold, startOf, if_neg hne]
        omega
    · have hlater := ih x hx
      omega

theorem oldEnd_le_reach {f : FileDiff} : ∀ h ∈ f.hunks, h.oldEnd ≤ f.reach := by
  unfold FileDiff.reach
  induction f.hunks with
  | nil => exact fun _ hh => absurd hh List.not_mem_nil
  | cons h hunks ih =>
    intro x hx
    rw [List.foldr_cons]
    rcases List.mem_cons.mp hx with rfl | hx
    · exact Nat.le_max_left _ _
    · exact Nat.le_trans (ih x hx) (Nat.le_max_right _ _)

end Reading

/-! ## The result -/

section Result

variable {Loc : Type}

/-- The files of the changes are text files under the root, at different places. -/
structure OnDisk (paths : Paths Loc) (d : Disk Loc) (changes : List FileChange) : Prop where
  relative : ∀ c ∈ changes, c.diff.path.toList.head? ≠ some '/'
  inside : ∀ c ∈ changes, paths.inside c.diff.path = true
  held : ∀ c ∈ changes, d (paths.resolve c.diff.path) = some (.file (encode c.old))
  distinct : (changes.map fun c => paths.resolve c.diff.path).Nodup

/-- The diff of the changes is applied, and every file is what it is meant to become. -/
def Applies [DecidableEq Loc] (paths : Paths Loc) (changes : List FileChange) (d : Disk Loc) :
    Prop :=
  ∃ result d', applyUnifiedDiff paths (renderDiff (changes.map FileChange.diff)) d = (.ok result, d') ∧
    result.applied = true ∧
      ∀ c ∈ changes, d' (paths.resolve c.diff.path) = some (.file (encode c.new))

/-- What the code relies on in the section of a file. -/
structure FileChange.Supported (c : FileChange) : Prop where
  /-- It takes the file's own path from the name. -/
  name : c.diff.namedPath = c.diff.path
  /-- No line lacks its newline. -/
  ended : ∀ h ∈ c.diff.hunks, ∀ l ∈ h.body, l.ended = true
  /-- No line is taken for the first line of a section: none is the deletion of `-- …`. -/
  marks : ∀ h ∈ c.diff.hunks, NoFileMark h
  /-- Where nothing is expected, it is in front of the first line. -/
  insertions : ∀ h ∈ c.diff.hunks, h.old = [] → h.oldStart = 0
  /-- The lines of the diff, and those of the file up to the last hunk, are split as they are. -/
  lines : ∀ line ∈ c.diff.render, IsLine line
  oldLines : ∀ line ∈ (fileLines c.old).take c.diff.reach, IsLine line
  /-- The file has no line end that is translated when it is read. -/
  returns : '\r' ∉ c.old

structure Supported (changes : List FileChange) : Prop where
  some : changes ≠ []
  each : ∀ c ∈ changes, c.Supported
  /-- Only the first section has lines in front of its names. -/
  extended : ∀ c ∈ changes.tail, c.diff.extended = []

/-- The hunks of a supported section make the new text of the old one. -/
theorem patchText_change {c : FileChange} (hwf : c.WellFormed) (hs : c.Supported) :
    patchText c.old c.diff.patch.hunks = some c.new := by
  have hold : c.old = ((fileLines c.old).take c.diff.reach).flatten ++
      ((fileLines c.old).drop c.diff.reach).flatten := by
    rw [← List.flatten_append, List.take_append_drop, flatten_fileLines]
  have hsplit : splitlines c.old = (fileLines c.old).take c.diff.reach ++
      splitlines ((fileLines c.old).drop c.diff.reach).flatten := by
    conv_lhs => rw [hold]
    exact PyText.splitlines_flatten hs.oldLines _
  obtain ⟨out, hpatched, hout⟩ := patched_of_rewrites hwf.rewrites
    (splitlines c.old) ((fileLines c.old).take c.diff.reach) ((fileLines c.old).drop c.diff.reach)
    (splitlines ((fileLines c.old).drop c.diff.reach).flatten) hs.ended hs.insertions
    (fun h hh => by
      have hreach := oldEnd_le_reach h hh
      have hlength := oldEnd_le hwf.rewrites h hh
      rw [List.length_take]
      omega)
    (List.take_append_drop ..).symm hsplit (PyText.flatten_splitlines _).symm (Nat.zero_le _)
  show (applyHunks (splitlines c.old) (c.diff.hunks.map DiffHunk.render)).map List.flatten = _
  rw [applyHunks_iff.mpr hpatched, Option.map_some, hout, flatten_fileLines]

theorem planSection_change {paths : Paths Loc} {d : Disk Loc} {c : FileChange}
    (hrelative : c.diff.path.toList.head? ≠ some '/') (hinside : paths.inside c.diff.path = true)
    (hheld : d (paths.resolve c.diff.path) = some (.file (encode c.old))) (hwf : c.WellFormed)
    (hs : c.Supported) : planSection paths d c.diff.patch = .ok (c.diff.path, c.new) := by
  have hpath : c.diff.patch.path = c.diff.path := hs.name
  have hallowed : resolveWrite paths true c.diff.patch.path =
      .ok (paths.resolve c.diff.patch.path) := by
    unfold resolveWrite
    rw [hpath, if_neg (by decide), if_neg hrelative, if_neg (by rw [hinside]; decide)]
  have htext : d.readText (paths.resolve c.diff.patch.path) = .ok c.old := by
    rw [hpath, Files.readText_encode hheld, PyText.universalNewlines_eq_self hs.returns]
  rw [planSection_of hallowed htext (patchText_change hwf hs), hpath]

theorem planWrites_changes {paths : Paths Loc} {d : Disk Loc} {changes : List FileChange}
    (h : ∀ c ∈ changes, planSection paths d c.diff.patch = .ok (c.diff.path, c.new)) :
    planWrites paths d (changes.map fun c => c.diff.patch) =
      .ok (changes.map fun c => (c.diff.path, c.new)) := by
  induction changes with
  | nil => rfl
  | cons c changes ih =>
    exact planWrites_cons (h c (List.mem_cons_self ..))
      (ih fun x hx => h x (List.mem_cons_of_mem _ hx))

variable [DecidableEq Loc]

/-- **Supported diffs are applied as they are meant**, for every set of files, every set of new
    contents and every well-formed diff between them. -/
theorem applies_of_supported {paths : Paths Loc} {changes : List FileChange} {d : Disk Loc}
    (hdisk : OnDisk paths d changes) (hwf : ∀ c ∈ changes, c.WellFormed)
    (hs : Supported changes) : Applies paths changes d := by
  have hparsed : parseUnifiedDiff (renderDiff (changes.map FileChange.diff)) =
      changes.map fun c => c.diff.patch := by
    obtain ⟨first, rest, rfl⟩ := List.exists_cons_of_ne_nil hs.some
    have hmem : ∀ x ∈ (first :: rest).map FileChange.diff, ∃ c ∈ first :: rest, c.diff = x :=
      fun x hx => List.mem_map.mp hx
    rw [List.map_cons, parse_render (fun line hline => ?_) (fun x hx => ?_) (fun x hx => ?_)
      (fun line hline => ?_) (fun x hx => ?_)]
    · rw [← List.map_cons, List.map_map]
      rfl
    · rw [← List.map_cons] at hline
      obtain ⟨x, hx, hline⟩ := List.mem_flatMap.mp hline
      obtain ⟨c, hc, rfl⟩ := hmem x hx
      exact (hs.each c hc).lines line hline
    · obtain ⟨c, hc, rfl⟩ := hmem x hx
      exact (hs.each c hc).ended
    · obtain ⟨c, hc, rfl⟩ := hmem x hx
      exact (hs.each c hc).marks
    · exact ((hwf first (List.mem_cons_self ..)).diff.extended line hline).2
    · obtain ⟨c, hc, rfl⟩ := List.mem_map.mp hx
      exact hs.extended c hc
  have hplan := @planWrites_changes _ paths d _ fun c hc =>
    planSection_change (hdisk.relative c hc) (hdisk.inside c hc) (hdisk.held c hc) (hwf c hc)
      (hs.each c hc)
  rw [← hparsed] at hplan
  obtain ⟨snapshots, -, hcall⟩ := applyUnifiedDiff_of_planned (by
    rw [hparsed]
    exact fun hnil => hs.some (List.map_eq_nil_iff.mp hnil)) hplan
  refine ⟨_, _, hcall, rfl, fun c hc => ?_⟩
  have hwrite : (paths.resolve c.diff.path, encode c.new) ∈
      writesOf paths (changes.map fun c => (c.diff.path, c.new)) := by
    unfold writesOf
    rw [List.map_map]
    exact List.mem_map.mpr ⟨c, hc, rfl⟩
  obtain ⟨w, hw, hplace, hbytes⟩ := Files.writeAll_mem (d := d) ⟨_, hwrite, rfl⟩
  unfold writesOf at hw
  rw [List.map_map] at hw
  obtain ⟨c', hc', rfl⟩ := List.mem_map.mp hw
  -- the files are at different places
  cases List.inj_on_of_nodup_map hdisk.distinct hc' hc hplace
  exact hbytes

end Result

/-! ## Files on a disk -/

instance (h : DiffHunk) : Decidable (NoFileMark h) :=
  inferInstanceAs (Decidable (∀ l ∈ h.body, startsWith oldFileMark l.shown = false))

/-- A disk with the old files. -/
def oldFiles (changes : List FileChange) : Disk String := fun path =>
  (changes.find? fun c => c.diff.path = path).map fun c => .file (encode c.old)

instance (d : Disk String) (changes : List FileChange) : Decidable (OnDisk plainPaths d changes) :=
  decidable_of_iff ((∀ c ∈ changes, c.diff.path.toList.head? ≠ some '/') ∧
      (∀ c ∈ changes, plainPaths.inside c.diff.path = true) ∧
      (∀ c ∈ changes, d (plainPaths.resolve c.diff.path) = some (.file (encode c.old))) ∧
      (changes.map fun c => plainPaths.resolve c.diff.path).Nodup)
    ⟨fun ⟨relative, inside, held, distinct⟩ => ⟨relative, inside, held, distinct⟩,
      fun h => ⟨h.relative, h.inside, h.held, h.distinct⟩⟩

/-- Does the text end with a newline, its only line boundary? -/
def isLineCheck (line : Text) : Bool :=
  line.getLast? == some '\n' && line.dropLast.all fun c => !PyText.isBoundary c

theorem isLine_of_check {line : Text} (h : isLineCheck line = true) : IsLine line := by
  unfold isLineCheck at h
  rw [Bool.and_eq_true, beq_iff_eq, List.all_eq_true] at h
  refine ⟨line.dropLast, ['\n'], (List.dropLast_append_getLast? '\n' h.1).symm, ?_, Or.inl rfl⟩
  intro c hc
  simpa using h.2 c hc

/-- Two files: the first ends without a newline behind a form feed, the second is empty. -/
def sampleChanges : List FileChange := [
  { diff := {
      path := "src/app.py"
      extended := ["diff --git a/src/app.py b/src/app.py".toList, "index 1f7a..2c3b 100644".toList]
      hunks := [
        { oldStart := 1
          newStart := 1
          body := [⟨.context, "import os".toList, true⟩, ⟨.added, "import sys".toList, true⟩] },
        { oldStart := 4
          newStart := 5
          heading := " def greet():".toList
          body := [⟨.deleted, "    return 'hi'".toList, true⟩,
            ⟨.added, "    return 'hello'".toList, true⟩] }] }
    old := "import os\n\ndef greet():\n    return 'hi'\n".toList ++ [Char.ofNat 12, 'x']
    new := "import os\nimport sys\n\ndef greet():\n    return 'hello'\n".toList ++
      [Char.ofNat 12, 'x'] },
  { diff := {
      path := "notes.txt"
      hunks := [
        { oldStart := 0
          newStart := 1
          body := [⟨.added, "first".toList, true⟩] }] }
    old := []
    new := "first\n".toList }]

theorem applies_sample : Applies plainPaths sampleChanges (oldFiles sampleChanges) := by
  refine applies_of_supported (by decide +kernel) (fun c hc => ?_) ⟨by decide, fun c hc => ?_, ?_⟩
  · have hwf : ∀ c ∈ sampleChanges, c.diff.WellFormed ∧
        rewriteFrom 0 0 c.diff.hunks (fileLines c.old) = some (fileLines c.new) := by
      decide +kernel
    exact ⟨(hwf c hc).1, rewrites_of_rewriteFrom (hwf c hc).2⟩
  · have hrendered : sampleChanges.all (fun c => c.diff.render.all isLineCheck) = true := by
      decide
    have hold : sampleChanges.all
        (fun c => ((fileLines c.old).take c.diff.reach).all isLineCheck) = true := by
      decide
    rw [List.all_eq_true] at hrendered hold
    have hrest : ∀ c ∈ sampleChanges, c.diff.namedPath = c.diff.path ∧
        (∀ h ∈ c.diff.hunks, ∀ l ∈ h.body, l.ended = true) ∧
        (∀ h ∈ c.diff.hunks, NoFileMark h) ∧
        (∀ h ∈ c.diff.hunks, h.old = [] → h.oldStart = 0) ∧ '\r' ∉ c.old := by
      decide
    obtain ⟨hname, hended, hmarks, hinsertions, hreturns⟩ := hrest c hc
    exact ⟨hname, hended, hmarks, hinsertions,
      fun line hline => isLine_of_check (List.all_eq_true.mp (hrendered c hc) line hline),
      fun line hline => isLine_of_check (List.all_eq_true.mp (hold c hc) line hline), hreturns⟩
  · decide

/-! ## Diffs that are not applied as they are meant -/

/-- A file `notes.txt` with one hunk. -/
def oneHunk (hunk : DiffHunk) (old new : Text) : FileChange :=
  ⟨{ path := "notes.txt", hunks := [hunk] }, old, new⟩

/-- The deletion of a line that begins with two dashes. -/
def dashedLine : FileChange :=
  oneHunk ⟨1, 1, true, [], [⟨.deleted, "-- x".toList, true⟩, ⟨.added, "y".toList, true⟩]⟩
    "-- x\n".toList "y\n".toList

/-- A change of a last line without newline. -/
def unendedLine : FileChange :=
  oneHunk ⟨1, 1, true, [], [⟨.deleted, "x".toList, false⟩, ⟨.added, "y".toList, false⟩]⟩
    "x".toList "y".toList

/-- A line that is added behind the first one, without context. -/
def insertedLine : FileChange :=
  oneHunk ⟨1, 2, true, [], [⟨.added, "y".toList, true⟩]⟩ "x\n".toList "x\ny\n".toList

/-- A file with another line end in front of the hunk. -/
def returnedLine : FileChange :=
  oneHunk ⟨2, 2, true, [], [⟨.deleted, "y".toList, true⟩, ⟨.added, "z".toList, true⟩]⟩
    "x\r\ny\n".toList "x\r\nz\n".toList

/-- A file with a form feed in front of the hunk. -/
def fedLine : FileChange :=
  oneHunk ⟨2, 2, true, [], [⟨.deleted, "y".toList, true⟩, ⟨.added, "z".toList, true⟩]⟩
    ('x' :: Char.ofNat 12 :: "x\ny\n".toList) ('x' :: Char.ofNat 12 :: "x\nz\n".toList)

/-- The section of a second file that begins with a `diff --git` line. -/
def secondFile : FileChange :=
  ⟨{ path := "other.txt"
     extended := ["diff --git a/other.txt b/other.txt".toList]
     hunks := [⟨1, 1, true, [], [⟨.deleted, "x".toList, true⟩, ⟨.added, "z".toList, true⟩]⟩] },
    "x\n".toList, "z\n".toList⟩

/-- A change that the code applies. -/
def plainChange : FileChange :=
  oneHunk ⟨1, 1, true, [], [⟨.deleted, "x".toList, true⟩, ⟨.added, "y".toList, true⟩]⟩
    "x\n".toList "y\n".toList

/-- Whether the call applied the diff, and left the new files. -/
def appliesCheck (changes : List FileChange) : Bool :=
  match applyUnifiedDiff plainPaths (renderDiff (changes.map FileChange.diff)) (oldFiles changes) with
  | (.ok result, d') => result.applied &&
    changes.all fun c => decide (d' (plainPaths.resolve c.diff.path) = some (.file (encode c.new)))
  | _ => false

theorem appliesCheck_of_applies {changes : List FileChange}
    (h : Applies plainPaths changes (oldFiles changes)) : appliesCheck changes = true := by
  obtain ⟨result, d', hcall, happlied, hnew⟩ := h
  unfold appliesCheck
  rw [hcall]
  show (result.applied && _) = true
  rw [happlied, Bool.true_and, List.all_eq_true]
  exact fun c hc => decide_eq_true (hnew c hc)

/-- The diff of the changes is well formed and what it changes is on disk, and still the call does
    not leave the new files. -/
def Misapplied (changes : List FileChange) : Prop :=
  OnDisk plainPaths (oldFiles changes) changes ∧ (∀ c ∈ changes, c.WellFormed) ∧
    ¬ Applies plainPaths changes (oldFiles changes)

theorem misapplied_of_check {changes : List FileChange}
    (h : OnDisk plainPaths (oldFiles changes) changes ∧
      (∀ c ∈ changes, c.diff.WellFormed ∧
        rewriteFrom 0 0 c.diff.hunks (fileLines c.old) = some (fileLines c.new)) ∧
      appliesCheck changes = false) : Misapplied changes := by
  obtain ⟨hdisk, hwf, hfails⟩ := h
  refine ⟨hdisk, fun c hc => ⟨(hwf c hc).1, rewrites_of_rewriteFrom (hwf c hc).2⟩, ?_⟩
  intro happlies
  rw [appliesCheck_of_applies happlies] at hfails
  cases hfails

/-- **Six well-formed diffs that are not applied**, or not as they are meant. -/
theorem unsupported_fail : Misapplied [dashedLine] ∧ Misapplied [unendedLine] ∧
    Misapplied [insertedLine] ∧ Misapplied [returnedLine] ∧ Misapplied [fedLine] ∧
    Misapplied [plainChange, secondFile] := by
  have hall : ∀ changes ∈ [[dashedLine], [unendedLine], [insertedLine], [returnedLine], [fedLine],
      [plainChange, secondFile]], OnDisk plainPaths (oldFiles changes) changes ∧
        (∀ c ∈ changes, c.diff.WellFormed ∧
          rewriteFrom 0 0 c.diff.hunks (fileLines c.old) = some (fileLines c.new)) ∧
        appliesCheck changes = false := by
    decide +kernel
  have hmisapplied := fun changes hchanges => misapplied_of_check (hall changes hchanges)
  simp only [List.forall_mem_cons] at hmisapplied
  obtain ⟨hdashed, hunended, hinserted, hreturned, hfed, hsecond, -⟩ := hmisapplied
  exact ⟨hdashed, hunended, hinserted, hreturned, hfed, hsecond⟩

end Vad
