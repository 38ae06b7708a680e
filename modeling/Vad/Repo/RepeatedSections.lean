/-
  Patches with several sections for one file (`vad/repo/patch_apply.py`).

  `apply_unified_diff` computes every section from what is on disk before the call, and then writes
  them in order.  So of the sections that lead to one file, through one path or through two
  spellings of it, only the last one counts.  `applyInTurn` is what a patch says: each section is
  applied to what the sections before it have left.

  1. `applied_at` and `applyInTurn_at` — what the two leave at a place: the last section there,
     applied to the text before the call, or to what the sections before it made of that text.

  2. `applied_inTurn_iff` — a call that applied agrees with the sections in turn exactly when, for
     every file, the sections before its last one cancel out: they go through, and what they leave
     is the text that they started from.  One direction needs that a last section which makes the
     same of two texts tells that they are the same (`patchText_injective`).
-/
import Vad.Repo.Hunks

namespace Vad

open PyText (Text universalNewlines)
open Files (Paths Disk Entry encode)

section InTurn

variable {Loc : Type}

/-! ## The sections in turn -/

/-- The text of a file after some sections, each reading what the one before has written. -/
def textAfter (text : Text) : List FilePatch → Option Text
  | [] => some text
  | p :: rest => (patchText text p.hunks).bind fun t => textAfter (universalNewlines t) rest

theorem textAfter_append (text : Text) (ps qs : List FilePatch) :
    textAfter text (ps ++ qs) = (textAfter text ps).bind fun t => textAfter t qs := by
  induction ps generalizing text with
  | nil => rfl
  | cons p rest ih =>
    show (patchText text p.hunks).bind _ = ((patchText text p.hunks).bind _).bind _
    rw [Option.bind_assoc]
    exact congrArg _ (funext fun t => ih _)

/-- What is read back never has `\r`, whatever the sections added. -/
theorem cr_not_mem_textAfter {text t : Text} {ps : List FilePatch} (hread : '\r' ∉ text)
    (h : textAfter text ps = some t) : '\r' ∉ t := by
  induction ps generalizing text with
  | nil => cases h; exact hread
  | cons p rest ih =>
    obtain ⟨content, -, hmore⟩ := Option.bind_eq_some_iff.mp h
    exact ih (PyText.cr_not_mem_universalNewlines content) hmore

variable [DecidableEq Loc]

/-- One section, applied to the disk as it is. -/
def applySection (paths : Paths Loc) (p : FilePatch) (d : Disk Loc) : Option (Disk Loc) :=
  match planSection paths d p with
  | .ok w => some (d.write (paths.resolve w.1) (encode w.2))
  | .error _ => none

/-- The sections one after another, each applied to the result of the previous ones. -/
def applyInTurn (paths : Paths Loc) : List FilePatch → Disk Loc → Option (Disk Loc)
  | [], d => some d
  | p :: rest, d => (applySection paths p d).bind (applyInTurn paths rest)

/-- The sections that lead to a place. -/
def sectionsAt (paths : Paths Loc) (ps : List FilePatch) (loc : Loc) : List FilePatch :=
  ps.filter fun p => decide (paths.resolve p.path = loc)

/-- For every file, the sections before its last one cancel out. -/
def EarlierCancel (paths : Paths Loc) (d : Disk Loc) (ps : List FilePatch) : Prop :=
  ∀ loc text, d.readText loc = .ok text →
    textAfter text (sectionsAt paths ps loc).dropLast = some text

theorem sectionsAt_here {paths : Paths Loc} {p : FilePatch} {rest : List FilePatch} {loc : Loc}
    (h : paths.resolve p.path = loc) :
    sectionsAt paths (p :: rest) loc = p :: sectionsAt paths rest loc :=
  List.filter_cons_of_pos (by simpa using h)

theorem sectionsAt_elsewhere {paths : Paths Loc} {p : FilePatch} {rest : List FilePatch} {loc : Loc}
    (h : paths.resolve p.path ≠ loc) :
    sectionsAt paths (p :: rest) loc = sectionsAt paths rest loc :=
  List.filter_cons_of_neg (by simpa using h)

/-- A section that goes through, seen from the outside. -/
theorem applySection_some {paths : Paths Loc} {p : FilePatch} {d d' : Disk Loc}
    (h : applySection paths p d = some d') :
    ∃ text content, d.readText (paths.resolve p.path) = .ok text ∧
      patchText text p.hunks = some content ∧
      d' = d.write (paths.resolve p.path) (encode content) := by
  unfold applySection at h
  split at h
  · rename_i w hw
    cases h
    have hplanned := planSection_ok hw
    obtain ⟨text, htext, hcontent⟩ := hplanned.content
    exact ⟨text, w.2, htext, hcontent, by rw [hplanned.named]⟩
  · cases h

/-- A section goes through when its path is inside and its hunks apply to the text there. -/
theorem applySection_of {paths : Paths Loc} {p : FilePatch} {d : Disk Loc} {text content : Text}
    (hallowed : resolveWrite paths true p.path = .ok (paths.resolve p.path))
    (htext : d.readText (paths.resolve p.path) = .ok text)
    (hcontent : patchText text p.hunks = some content) :
    applySection paths p d = some (d.write (paths.resolve p.path) (encode content)) := by
  unfold applySection
  rw [planSection_of hallowed htext hcontent]

/-- What is read back after a write. -/
theorem readText_write (d : Disk Loc) (loc : Loc) (content : Text) :
    (d.write loc (encode content)).readText loc = .ok (universalNewlines content) :=
  Files.readText_encode (Files.write_same ..)

theorem readText_write_other {d : Disk Loc} {loc other : Loc} (bytes : ByteArray)
    (h : other ≠ loc) : (d.write loc bytes).readText other = d.readText other := by
  unfold Disk.readText Disk.readBytes
  rw [Files.write_other d bytes h]

/-! ## What is left at a place -/

/-- A place that no section leads to keeps what it had. -/
theorem applyInTurn_other {paths : Paths Loc} {ps : List FilePatch} {d d' : Disk Loc} {loc : Loc}
    (h : applyInTurn paths ps d = some d') (hno : sectionsAt paths ps loc = []) :
    d' loc = d loc := by
  induction ps generalizing d with
  | nil => cases h; rfl
  | cons p rest ih =>
    obtain ⟨d₁, hfirst, hrest⟩ := Option.bind_eq_some_iff.mp h
    obtain ⟨text, content, -, -, rfl⟩ := applySection_some hfirst
    by_cases hp : paths.resolve p.path = loc
    · rw [sectionsAt_here hp] at hno
      cases hno
    · rw [sectionsAt_elsewhere hp] at hno
      rw [ih hrest hno]
      exact Files.write_other d _ (Ne.symm hp)

/-- In turn, the last section of a place is applied to what the ones before it have left. -/
theorem applyInTurn_at {paths : Paths Loc} {ps init : List FilePatch} {last : FilePatch}
    {d d' : Disk Loc} {loc : Loc} (h : applyInTurn paths ps d = some d')
    (hs : sectionsAt paths ps loc = init ++ [last]) :
    ∃ text before content, d.readText loc = .ok text ∧ textAfter text init = some before ∧
      patchText before last.hunks = some content ∧ d' loc = some (.file (encode content)) := by
  induction ps generalizing d init with
  | nil =>
    have hlen := congrArg List.length hs
    simp [sectionsAt] at hlen
  | cons p rest ih =>
    obtain ⟨d₁, hfirst, hrest⟩ := Option.bind_eq_some_iff.mp h
    obtain ⟨text, content, htext, hcontent, rfl⟩ := applySection_some hfirst
    by_cases hp : paths.resolve p.path = loc
    · subst hp
      rw [sectionsAt_here rfl] at hs
      cases init with
      | nil =>
        -- the first section of this place is its last one
        obtain ⟨rfl, hnone⟩ := List.cons.inj hs
        refine ⟨text, text, content, htext, rfl, hcontent, ?_⟩
        rw [applyInTurn_other hrest hnone, Files.write_same]
      | cons first init' =>
        obtain ⟨rfl, hmore⟩ := List.cons.inj hs
        obtain ⟨text₁, before, content', htext₁, hbefore, hlast, hfile⟩ := ih hrest hmore
        rw [readText_write] at htext₁
        cases htext₁
        refine ⟨text, before, content', htext, ?_, hlast, hfile⟩
        show (patchText text p.hunks).bind _ = _
        rw [hcontent]
        exact hbefore
    · rw [sectionsAt_elsewhere hp] at hs
      obtain ⟨text₁, before, content', htext₁, hbefore, hlast, hfile⟩ := ih hrest hs
      rw [readText_write_other _ (Ne.symm hp)] at htext₁
      exact ⟨text₁, before, content', htext₁, hbefore, hlast, hfile⟩

/-- The sections go through in turn when, at every place, those that lead there do. -/
theorem applyInTurn_isSome {paths : Paths Loc} {ps : List FilePatch} {d : Disk Loc}
    (hallowed : ∀ p ∈ ps, resolveWrite paths true p.path = .ok (paths.resolve p.path))
    (h : ∀ p ∈ ps, ∃ text t, d.readText (paths.resolve p.path) = .ok text ∧
      textAfter text (sectionsAt paths ps (paths.resolve p.path)) = some t) :
    ∃ d', applyInTurn paths ps d = some d' := by
  induction ps generalizing d with
  | nil => exact ⟨d, rfl⟩
  | cons p rest ih =>
    obtain ⟨text, t, htext, hafter⟩ := h p (List.mem_cons_self ..)
    rw [sectionsAt_here rfl] at hafter
    obtain ⟨content, hcontent, hmore⟩ := Option.bind_eq_some_iff.mp hafter
    have hfirst := applySection_of (hallowed p (List.mem_cons_self ..)) htext hcontent
    have hrest : ∃ d', applyInTurn paths rest
        (d.write (paths.resolve p.path) (encode content)) = some d' := by
      refine ih (fun q hq => hallowed q (List.mem_cons_of_mem _ hq)) fun q hq => ?_
      by_cases hplace : paths.resolve q.path = paths.resolve p.path
      · rw [hplace]
        exact ⟨_, t, readText_write .., hmore⟩
      · obtain ⟨text', t', htext', hafter'⟩ := h q (List.mem_cons_of_mem _ hq)
        rw [sectionsAt_elsewhere (Ne.symm hplace)] at hafter'
        exact ⟨text', t', (readText_write_other _ hplace).trans htext', hafter'⟩
    obtain ⟨d', hd'⟩ := hrest
    refine ⟨d', ?_⟩
    show (applySection paths p d).bind _ = _
    rw [hfirst]
    exact hd'

/-- A call that applied leaves, at a place, its last section applied to the text before the call. -/
theorem applied_at {paths : Paths Loc} {ps init : List FilePatch} {last : FilePatch}
    {planned : List (String × Text)} {d : Disk Loc} (d₀ : Disk Loc) {loc : Loc}
    (h : List.Forall₂ (Planned paths d) ps planned)
    (hs : sectionsAt paths ps loc = init ++ [last]) :
    ∃ text content, d.readText loc = .ok text ∧ patchText text last.hunks = some content ∧
      d₀.writeAll (writesOf paths planned) loc = some (.file (encode content)) := by
  induction h generalizing d₀ init with
  | nil =>
    have hlen := congrArg List.length hs
    simp [sectionsAt] at hlen
  | @cons p w ps planned hp hall ih =>
    show ∃ text content, _ ∧ _ ∧
      (d₀.write (paths.resolve w.1) (encode w.2)).writeAll (writesOf paths planned) loc = _
    by_cases hplace : paths.resolve p.path = loc
    · rw [sectionsAt_here hplace] at hs
      cases init with
      | nil =>
        obtain ⟨rfl, hnone⟩ := List.cons.inj hs
        obtain ⟨text, htext, hcontent⟩ := hp.content
        refine ⟨text, w.2, hplace ▸ htext, hcontent, ?_⟩
        have hlater : ∀ path ∈ planned.map Prod.fst, paths.resolve path ≠ loc := by
          intro path hpath heq
          rw [planned_paths hall] at hpath
          obtain ⟨q, hq, rfl⟩ := List.mem_map.mp hpath
          have hmem : q ∈ sectionsAt paths ps loc := List.mem_filter.mpr ⟨hq, by simpa using heq⟩
          rw [hnone] at hmem
          exact List.not_mem_nil hmem
        rw [applied_other hlater, hp.named, hplace, Files.write_same]
      | cons first init' =>
        obtain ⟨-, hmore⟩ := List.cons.inj hs
        exact ih _ hmore
    · rw [sectionsAt_elsewhere hplace] at hs
      exact ih _ hs

/-! ## When nothing is lost -/

/-- Sections that were planned go through in turn, with the same result, when at every place the
    ones before the last cancel out. -/
theorem applyInTurn_of_cancel {paths : Paths Loc} {ps : List FilePatch}
    {planned : List (String × Text)} {d : Disk Loc}
    (h : List.Forall₂ (Planned paths d) ps planned) (hcancel : EarlierCancel paths d ps) :
    applyInTurn paths ps d = some (d.writeAll (writesOf paths planned)) := by
  have hall := planned_forall h
  have hgo : ∃ d', applyInTurn paths ps d = some d' := by
    refine applyInTurn_isSome (fun p hp => ?_) fun p hp => ?_
    · obtain ⟨w, hw⟩ := hall p hp
      exact hw.allowed
    · have hmem : p ∈ sectionsAt paths ps (paths.resolve p.path) :=
        List.mem_filter.mpr ⟨hp, by simp⟩
      have hne := List.ne_nil_of_mem hmem
      have hsplit := (List.dropLast_append_getLast hne).symm
      obtain ⟨text, content, htext, hcontent, -⟩ := applied_at d h hsplit
      refine ⟨text, universalNewlines content, htext, ?_⟩
      rw [hsplit, textAfter_append, hcancel _ _ htext]
      show (patchText text _).bind _ = _
      rw [hcontent]
      rfl
  obtain ⟨d', hd'⟩ := hgo
  rw [hd']
  refine congrArg some (funext fun loc => ?_)
  by_cases hnone : sectionsAt paths ps loc = []
  · have hno : ∀ path ∈ planned.map Prod.fst, paths.resolve path ≠ loc := by
      intro path hpath heq
      rw [planned_paths h] at hpath
      obtain ⟨q, hq, rfl⟩ := List.mem_map.mp hpath
      have hmem : q ∈ sectionsAt paths ps loc := List.mem_filter.mpr ⟨hq, by simpa using heq⟩
      rw [hnone] at hmem
      exact List.not_mem_nil hmem
    rw [applyInTurn_other hd' hnone, applied_other hno]
  · have hsplit := (List.dropLast_append_getLast hnone).symm
    obtain ⟨text, content, htext, hcontent, hbatch⟩ := applied_at d h hsplit
    obtain ⟨text', before, content', htext', hbefore, hlast, hturn⟩ := applyInTurn_at hd' hsplit
    have hsame : text = text' := Except.ok.inj (htext.symm.trans htext')
    subst hsame
    have hback : before = text := Option.some.inj (hbefore.symm.trans (hcancel _ _ htext))
    subst hback
    have hcontents : content = content' := Option.some.inj (hcontent.symm.trans hlast)
    rw [hbatch, hturn, hcontents]

/-- When the sections in turn have the result of a call that applied, the earlier ones cancel out:
    the last section of a file makes the same of both texts. -/
theorem cancel_of_applyInTurn {paths : Paths Loc} {ps : List FilePatch}
    {planned : List (String × Text)} {d : Disk Loc}
    (h : List.Forall₂ (Planned paths d) ps planned)
    (hturn : applyInTurn paths ps d = some (d.writeAll (writesOf paths planned))) :
    EarlierCancel paths d ps := by
  intro loc text htext
  by_cases hnone : sectionsAt paths ps loc = []
  · rw [hnone]
    rfl
  · have hsplit := (List.dropLast_append_getLast hnone).symm
    obtain ⟨text₁, content, htext₁, hcontent, hbatch⟩ := applied_at d h hsplit
    obtain ⟨text₂, before, content', htext₂, hbefore, hlast, hfile⟩ := applyInTurn_at hturn hsplit
    cases htext₁.symm.trans htext
    cases htext₂.symm.trans htext
    rw [hbatch] at hfile
    have hcontents : content = content' :=
      Files.encode_injective (Entry.file.inj (Option.some.inj hfile))
    subst hcontents
    -- both texts were read from a file
    have hread : '\r' ∉ text := by
      obtain ⟨bytes, u, -, -, rfl⟩ := Files.readText_ok.mp htext
      exact PyText.cr_not_mem_universalNewlines u
    have hread' : '\r' ∉ before := cr_not_mem_textAfter hread hbefore
    rw [hbefore, patchText_injective hread' hread hlast hcontent]

/-- **A call that applied agrees with the sections in turn exactly when, for every file, the
    sections before its last one cancel out.** -/
theorem applied_inTurn_iff {paths : Paths Loc} {patch : Text} {d d' : Disk Loc}
    {result : PatchApplyResult} (h : applyUnifiedDiff paths patch d = (.ok result, d'))
    (happlied : result.applied = true) :
    applyInTurn paths (parseUnifiedDiff patch) d = some d' ↔
      EarlierCancel paths d (parseUnifiedDiff patch) := by
  rcases applyUnifiedDiff_cases paths patch d with
    ⟨e, hcall⟩ | ⟨blocker, hcall⟩ | ⟨planned, snapshots, hpatch, hcall⟩
  · rw [hcall] at h
    cases h
  · rw [hcall] at h
    cases h
    cases happlied
  · rw [hcall] at h
    cases h
    exact ⟨cancel_of_applyInTurn hpatch.planned, applyInTurn_of_cancel hpatch.planned⟩

end InTurn

/-! ## Two sections for one file -/

/-- Paths that lead where they say. -/
def plainPaths : Paths String := ⟨id, fun _ => true⟩

/-- A disk with one text file. -/
def oneFile (name : String) (text : Text) : Disk String :=
  fun path => if path = name then some (.file (encode text)) else none

theorem readText_oneFile {name : String} {text : Text} (h : '\r' ∉ text) :
    (oneFile name text).readText name = .ok text := by
  have hfile : oneFile name text name = some (.file (encode text)) := if_pos rfl
  rw [Files.readText_encode hfile, PyText.universalNewlines_eq_self h]

/-- The hunk that changes the first line, and the one that changes the second. -/
def firstLineHunk : List Text := ["@@ -1 +1 @@\n".toList, "-one\n".toList, "+ONE\n".toList]

def secondLineHunk : List Text := ["@@ -2 +2 @@\n".toList, "-two\n".toList, "+TWO\n".toList]

/-- A section for the file, with one hunk. -/
def notesSection (hunk : List Text) : Text :=
  "--- a/notes.txt\n+++ b/notes.txt\n".toList ++ hunk.flatten

/-- The file that the sections are for. -/
def twoLines : Text := "one\ntwo\n".toList

theorem parse_firstLine :
    parseUnifiedDiff (notesSection firstLineHunk) = [⟨"notes.txt", [firstLineHunk]⟩] := by
  decide +kernel

theorem parse_bothLines :
    parseUnifiedDiff (notesSection firstLineHunk ++ notesSection secondLineHunk) =
      [⟨"notes.txt", [firstLineHunk]⟩, ⟨"notes.txt", [secondLineHunk]⟩] := by
  decide +kernel

theorem patch_firstLine : patchText twoLines [firstLineHunk] = some "ONE\ntwo\n".toList := by
  decide

theorem patch_secondLine : patchText twoLines [secondLineHunk] = some "one\nTWO\n".toList := by
  decide

theorem notes_allowed : resolveWrite plainPaths true "notes.txt" = .ok "notes.txt" := by
  decide

theorem plan_notes {hunk : List Text} {content : Text}
    (h : patchText twoLines [hunk] = some content) :
    planSection plainPaths (oneFile "notes.txt" twoLines) ⟨"notes.txt", [hunk]⟩ =
      .ok ("notes.txt", content) :=
  planSection_of notes_allowed (readText_oneFile (by decide)) h

/-- The call writes the first line. -/
theorem applied_firstLine : ∃ snapshots,
    applyUnifiedDiff plainPaths (notesSection firstLineHunk) (oneFile "notes.txt" twoLines) =
      (.ok (appliedResult [("notes.txt", "ONE\ntwo\n".toList)] snapshots),
        (oneFile "notes.txt" twoLines).writeAll
          (writesOf plainPaths [("notes.txt", "ONE\ntwo\n".toList)])) := by
  have hplan : planWrites plainPaths (oneFile "notes.txt" twoLines)
      (parseUnifiedDiff (notesSection firstLineHunk)) =
        .ok [("notes.txt", "ONE\ntwo\n".toList)] := by
    rw [parse_firstLine]
    exact planWrites_cons (plan_notes patch_firstLine) rfl
  obtain ⟨snapshots, -, hcall⟩ := applyUnifiedDiff_of_planned
    (by rw [parse_firstLine]; exact List.cons_ne_nil _ _) hplan
  exact ⟨snapshots, hcall⟩

/-- One section: the call and the section in turn agree. -/
theorem applied_inTurn_oneSection :
    applyInTurn plainPaths (parseUnifiedDiff (notesSection firstLineHunk))
      (oneFile "notes.txt" twoLines) =
      some ((oneFile "notes.txt" twoLines).write "notes.txt" (encode "ONE\ntwo\n".toList)) := by
  obtain ⟨snapshots, hcall⟩ := applied_firstLine
  refine (applied_inTurn_iff hcall rfl).mpr ?_
  -- no section comes before the only one
  intro loc text _
  rw [parse_firstLine]
  by_cases hloc : plainPaths.resolve "notes.txt" = loc
  · rw [sectionsAt_here hloc]
    rfl
  · rw [sectionsAt_elsewhere hloc]
    rfl

/-- Two sections for one file: the call says that both are applied, and only the second one is. -/
theorem firstSection_lost : ¬ ∀ (paths : Paths String) (patch : Text) (d d' : Disk String)
    (result : PatchApplyResult), applyUnifiedDiff paths patch d = (.ok result, d') →
    result.applied = true → applyInTurn paths (parseUnifiedDiff patch) d = some d' := by
  intro hall
  have hplan : planWrites plainPaths (oneFile "notes.txt" twoLines)
      (parseUnifiedDiff (notesSection firstLineHunk ++ notesSection secondLineHunk)) =
        .ok [("notes.txt", "ONE\ntwo\n".toList), ("notes.txt", "one\nTWO\n".toList)] := by
    rw [parse_bothLines]
    exact planWrites_cons (plan_notes patch_firstLine)
      (planWrites_cons (plan_notes patch_secondLine) rfl)
  obtain ⟨snapshots, hpatch, hcall⟩ := applyUnifiedDiff_of_planned
    (by rw [parse_bothLines]; exact List.cons_ne_nil _ _) hplan
  have hcancel := cancel_of_applyInTurn hpatch.planned (hall _ _ _ _ _ hcall rfl)
  -- the first section does not leave the text it started from
  have hback := hcancel "notes.txt" twoLines (readText_oneFile (by decide))
  rw [parse_bothLines] at hback
  revert hback
  decide

end Vad
