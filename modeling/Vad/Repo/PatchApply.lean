/-
  Applying unified diffs (`vad/repo/patch_apply.py`), behind the file-system guard
  (`vad/guards/filesystem.py`, `vad/repo/workspace.py`) and with a journal (`vad/repo/journal.py`).

  `applyUnifiedDiff` works in two halves.  The first reads: it parses the text into file sections
  and computes, section by section, what is to be written, each from what is on disk.  The second
  writes: the journal captures every file, and then the writes happen in order.  So a call that is
  refused or that raises has written nothing (`applyUnifiedDiff_cases`), and rolling back the
  journal of one that applied puts everything back (`rollback_restores`).
-/
import Vad.ControlPlane.Model
import Vad.Lib.Files

namespace Vad

open PyText (Text splitlines strip parseInt)
open Files (Paths Disk Entry FileError encode)

/-! ## The guard -/

section Apply

variable {Loc : Type}

/-- `FilesystemGuard._resolve` for a write: the place, or the reason of the refusal. -/
def resolveWrite (paths : Paths Loc) (writable : Bool) (path : String) : Except String Loc :=
  if writable = false then .error "workspace is read-only"
  else if path.toList.head? = some '/' then .error "absolute paths are not allowed"
  else if paths.inside path = false then .error "path escapes workspace root"
  else .ok (paths.resolve path)

theorem resolveWrite_ok {paths : Paths Loc} {path : String} {loc : Loc}
    (h : resolveWrite paths true path = .ok loc) :
    loc = paths.resolve path ∧ paths.inside path = true := by
  unfold resolveWrite at h
  split at h
  · cases h
  · split at h
    · cases h
    · split at h
      · cases h
      · rename_i hinside
        cases h
        exact ⟨rfl, by simpa using hinside⟩

/-! ## Parsing -/

/-- A file section: its path, and its hunks, each a header line followed by body lines. -/
structure FilePatch where
  path : String
  hunks : List (List Text)
deriving DecidableEq

/-- `"--- "`, the first line of a section. -/
def oldFileMark : Text := ['-', '-', '-', ' ']

/-- `"+++ "`, the second line of a section. -/
def newFileMark : Text := ['+', '+', '+', ' ']

/-- `"@@"`, the first line of a hunk. -/
def hunkMark : Text := ['@', '@']

/-- `_clean_diff_path`. -/
def cleanDiffPath (path : Text) : Text :=
  if PyText.startsWith ['b', '/'] path || PyText.startsWith ['a', '/'] path then path.drop 2 else path

/-- The two inner loops of `_parse_unified_diff`: the lines before the first hunk, and the hunks, up
    to the next line that starts a section. -/
def scanHunks : List Text → List Text × List (List Text)
  | [] => ([], [])
  | line :: rest =>
    if PyText.startsWith oldFileMark line then ([], [])
    else
      let (lead, hunks) := scanHunks rest
      if PyText.startsWith hunkMark line then ([], (line :: lead) :: hunks) else (line :: lead, hunks)

/-- The outer loop of `_parse_unified_diff`; `none` is its `return []`.  The lines that the inner
    loops took do not start a section, so going on behind the path line skips them. -/
def parseSections : List Text → Option (List FilePatch)
  | [] => some []
  | line :: rest =>
    if PyText.startsWith oldFileMark line then
      match rest with
      | [] => none
      | next :: rest' =>
        if PyText.startsWith newFileMark next then
          (parseSections rest').map fun patches =>
            ⟨String.ofList (cleanDiffPath (strip (next.drop 4))), (scanHunks rest').2⟩ :: patches
        else none
    else parseSections rest

/-- `_parse_unified_diff`. -/
def parseUnifiedDiff (patchText : Text) : List FilePatch :=
  (parseSections (splitlines patchText)).getD []

/-! ## Hunks -/

/-- `header.split(" ", 2)[1]`: `none` is its `IndexError`. -/
def secondField (header : Text) : Option Text :=
  match header.dropWhile (· ≠ ' ') with
  | [] => none
  | _ :: rest => some (rest.takeWhile (· ≠ ' '))

/-- `_old_start`. -/
def oldStart (header : Text) : Option Int :=
  match secondField header with
  | none => none
  | some oldRange => parseInt ((oldRange.dropWhile (· = '-')).takeWhile (· ≠ ','))

/-- The loop over the body lines of a hunk: the output so far, and the next line of the original. -/
def applyBody (original : List Text) : List Text → List Text → Nat → Option (List Text × Nat)
  | [], output, cursor => some (output, cursor)
  | line :: rest, output, cursor =>
    match line with
    | '\\' :: _ => applyBody original rest output cursor
    | ' ' :: content =>
      if original[cursor]? = some content then
        applyBody original rest (output ++ [content]) (cursor + 1)
      else none
    | '-' :: content =>
      if original[cursor]? = some content then applyBody original rest output (cursor + 1)
      else none
    | '+' :: content => applyBody original rest (output ++ [content]) cursor
    | _ => none

/-- Where a hunk starts: `max(0, old_start - 1)`. -/
def targetIndex (start : Int) : Nat := (max 0 (start - 1)).toNat

/-- The loop of `_apply_hunks`. -/
def applyHunksFrom (original : List Text) : List (List Text) → List Text → Nat → Option (List Text)
  | [], output, cursor => some (output ++ original.drop cursor)
  | hunk :: rest, output, cursor =>
    match hunk with
    | [] => none
    | header :: body =>
      match oldStart header with
      | none => none
      | some start =>
        let target := targetIndex start
        if target < cursor ∨ target > original.length then none
        else
          match applyBody original body (output ++ (original.take target).drop cursor) target with
          | none => none
          | some (output', cursor') => applyHunksFrom original rest output' cursor'

/-- `_apply_hunks`. -/
def applyHunks (original : List Text) (hunks : List (List Text)) : Option (List Text) :=
  applyHunksFrom original hunks [] 0

/-- The text of a file after the hunks of one section. -/
def patchText (text : Text) (hunks : List (List Text)) : Option Text :=
  (applyHunks (splitlines text) hunks).map List.flatten

/-! ## The journal -/

structure FileSnapshot where
  path : String
  existed : Bool
  content : Option ByteArray := none
deriving DecidableEq

structure PatchJournal where
  snapshots : List FileSnapshot := []
deriving DecidableEq

/-- What the code under `vad/repo` raises. -/
inductive RepoError where
  | file (e : FileError)
  | python (e : PyError)
deriving DecidableEq, Repr

/-- One turn of `PatchJournal.capture`. -/
def captureFile (paths : Paths Loc) (d : Disk Loc) (path : String) : Except RepoError FileSnapshot :=
  if paths.inside path = false then
    .error (.python (.valueError ("path escapes repository root: " ++ path)))
  else if d.present (paths.resolve path) then
    match d.readBytes (paths.resolve path) with
    | .ok bytes => .ok ⟨path, true, some bytes⟩
    | .error e => .error (.file e)
  else .ok ⟨path, false, none⟩

/-- `PatchJournal.capture`. -/
def capture (paths : Paths Loc) (d : Disk Loc) : List String → Except RepoError (List FileSnapshot)
  | [] => .ok []
  | path :: rest => do
    let snapshot ← captureFile paths d path
    let others ← capture paths d rest
    pure (snapshot :: others)

/-- `PatchJournal.changed_files`. -/
def PatchJournal.changedFiles (j : PatchJournal) : List String := j.snapshots.map FileSnapshot.path

/-- The bytes that `patch_digest` feeds to the hash for one file. -/
def FileSnapshot.digestBytes (s : FileSnapshot) : ByteArray :=
  s.path.toUTF8 ++ ⟨#[0]⟩ ++ (if s.existed then "1".toUTF8 else "0".toUTF8) ++ ⟨#[0]⟩ ++
    s.content.getD ⟨#[]⟩ ++ ⟨#[0]⟩

/-- `PatchJournal.patch_digest`. -/
def PatchJournal.patchDigest (sha256 : ByteArray → String) (j : PatchJournal) : String :=
  sha256 ((j.snapshots.insertionSort (fun a b => a.path ≤ b.path)).foldl
    (fun bytes s => bytes ++ s.digestBytes) ⟨#[]⟩)

structure RollbackResult where
  rolledBack : Bool
  restoredFiles : List String := []
  blocker : Option String := none
deriving DecidableEq, Repr

/-! ## Planning the writes -/

/-- Why the first half ends early. -/
inductive PlanStop where
  | blocked (blocker : String)
  | raised (e : FileError)
deriving DecidableEq, Repr

/-- One turn of the loop over the sections: what is to be written, and where. -/
def planSection (paths : Paths Loc) (d : Disk Loc) (p : FilePatch) :
    Except PlanStop (String × Text) :=
  match resolveWrite paths true p.path with
  | .error reason => .error (.blocked reason)
  | .ok loc =>
    if d.present loc = false then
      .error (.blocked ("target file does not exist: " ++ p.path))
    else
      match d.readText loc with
      | .error e => .error (.raised e)
      | .ok text =>
        match patchText text p.hunks with
        | none => .error (.blocked ("patch does not apply cleanly: " ++ p.path))
        | some content => .ok (p.path, content)

/-- The loop over the sections: all of them are planned from one disk. -/
def planWrites (paths : Paths Loc) (d : Disk Loc) :
    List FilePatch → Except PlanStop (List (String × Text))
  | [] => .ok []
  | p :: rest =>
    match planSection paths d p with
    | .error e => .error e
    | .ok planned =>
      match planWrites paths d rest with
      | .error e => .error e
      | .ok others => .ok (planned :: others)

/-- The places and bytes of the planned writes. -/
def writesOf (paths : Paths Loc) (planned : List (String × Text)) : List (Loc × ByteArray) :=
  planned.map fun w => (paths.resolve w.1, encode w.2)

/-- The section is planned: its path is allowed, a text file is there, and the hunks apply to it. -/
structure Planned (paths : Paths Loc) (d : Disk Loc) (p : FilePatch) (w : String × Text) : Prop where
  named : w.1 = p.path
  allowed : resolveWrite paths true p.path = .ok (paths.resolve p.path)
  content : ∃ text, d.readText (paths.resolve p.path) = .ok text ∧
    patchText text p.hunks = some w.2

theorem planSection_ok {paths : Paths Loc} {d : Disk Loc} {p : FilePatch} {w : String × Text}
    (h : planSection paths d p = .ok w) : Planned paths d p w := by
  unfold planSection at h
  split at h
  · cases h
  · rename_i loc hloc
    obtain ⟨rfl, -⟩ := resolveWrite_ok hloc
    split at h
    · cases h
    · split at h
      · cases h
      · rename_i text htext
        split at h
        · cases h
        · rename_i content hcontent
          cases h
          exact ⟨rfl, hloc, text, htext, hcontent⟩

/-- A section is planned when its path is allowed and its hunks apply to the text there. -/
theorem planSection_of {paths : Paths Loc} {d : Disk Loc} {p : FilePatch} {text content : Text}
    (hallowed : resolveWrite paths true p.path = .ok (paths.resolve p.path))
    (htext : d.readText (paths.resolve p.path) = .ok text)
    (hcontent : patchText text p.hunks = some content) :
    planSection paths d p = .ok (p.path, content) := by
  have hpresent : d.present (paths.resolve p.path) = true := by
    obtain ⟨bytes, -, hfile, -, -⟩ := Files.readText_ok.mp htext
    unfold Disk.present
    rw [hfile]
    rfl
  unfold planSection
  simp only [hallowed, hpresent, htext, hcontent]
  rfl

theorem planWrites_cons {paths : Paths Loc} {d : Disk Loc} {p : FilePatch} {rest : List FilePatch}
    {w : String × Text} {planned : List (String × Text)} (hfirst : planSection paths d p = .ok w)
    (hrest : planWrites paths d rest = .ok planned) :
    planWrites paths d (p :: rest) = .ok (w :: planned) := by
  unfold planWrites
  simp only [hfirst, hrest]

theorem planWrites_ok {paths : Paths Loc} {d : Disk Loc} {ps : List FilePatch}
    {planned : List (String × Text)} (h : planWrites paths d ps = .ok planned) :
    List.Forall₂ (Planned paths d) ps planned := by
  induction ps generalizing planned with
  | nil => cases h; exact .nil
  | cons p rest ih =>
    unfold planWrites at h
    split at h
    · cases h
    · rename_i w hw
      split at h
      · cases h
      · rename_i others hothers
        cases h
        exact .cons (planSection_ok hw) (ih hothers)

/-- Planned paths are the paths of the sections. -/
theorem planned_paths {paths : Paths Loc} {d : Disk Loc} {ps : List FilePatch}
    {planned : List (String × Text)} (h : List.Forall₂ (Planned paths d) ps planned) :
    planned.map Prod.fst = ps.map FilePatch.path := by
  induction h with
  | nil => rfl
  | cons hp _ ih => rw [List.map_cons, List.map_cons, ih, hp.named]

theorem planned_forall {paths : Paths Loc} {d : Disk Loc} {ps : List FilePatch}
    {planned : List (String × Text)} (h : List.Forall₂ (Planned paths d) ps planned) :
    ∀ p ∈ ps, ∃ w, Planned paths d p w := by
  induction h with
  | nil => exact fun p hp => absurd hp List.not_mem_nil
  | @cons p w ps planned hp _ ih => exact List.forall_mem_cons.mpr ⟨⟨w, hp⟩, ih⟩

/-! ## Capturing what was planned -/

/-- A snapshot of a file that is there. -/
structure Captured (paths : Paths Loc) (d : Disk Loc) (path : String) (s : FileSnapshot) : Prop where
  named : s.path = path
  existed : s.existed = true
  inside : paths.inside path = true
  content : ∃ bytes, s.content = some bytes ∧ d (paths.resolve path) = some (.file bytes)

theorem captureFile_ok {paths : Paths Loc} {d : Disk Loc} {path : String} {bytes : ByteArray}
    (hinside : paths.inside path = true) (hfile : d (paths.resolve path) = some (.file bytes)) :
    captureFile paths d path = .ok ⟨path, true, some bytes⟩ := by
  have hpresent : d.present (paths.resolve path) = true := by
    unfold Disk.present
    rw [hfile]
    rfl
  unfold captureFile
  rw [if_neg (by rw [hinside]; decide), if_pos hpresent, Files.readBytes_ok.mpr hfile]

/-- Planned sections can be captured: their files are there. -/
theorem capture_ok {paths : Paths Loc} {d : Disk Loc} {ps : List FilePatch}
    {planned : List (String × Text)} (h : List.Forall₂ (Planned paths d) ps planned) :
    ∃ snapshots, capture paths d (planned.map Prod.fst) = .ok snapshots ∧
      List.Forall₂ (Captured paths d) (planned.map Prod.fst) snapshots := by
  induction h with
  | nil => exact ⟨[], rfl, .nil⟩
  | @cons p w _ rest hp _ ih =>
    obtain ⟨snapshots, hcapture, hall⟩ := ih
    obtain ⟨text, htext, -⟩ := hp.content
    obtain ⟨bytes, -, hfile, -, -⟩ := Files.readText_ok.mp htext
    have hinside : paths.inside w.1 = true := by rw [hp.named]; exact (resolveWrite_ok hp.allowed).2
    rw [← hp.named] at hfile
    refine ⟨⟨w.1, true, some bytes⟩ :: snapshots, ?_, ?_⟩
    · show (captureFile paths d w.1 >>= _) = _
      rw [captureFile_ok hinside hfile]
      show (capture paths d (rest.map Prod.fst) >>= _) = _
      rw [hcapture]
      rfl
    · exact .cons ⟨rfl, rfl, hinside, bytes, rfl, hfile⟩ hall

/-- The places that snapshots were taken of hold what the snapshots say. -/
theorem captured_mem {paths : Paths Loc} {d : Disk Loc} {files : List String}
    {snapshots : List FileSnapshot} (h : List.Forall₂ (Captured paths d) files snapshots)
    {s : FileSnapshot} (hs : s ∈ snapshots) :
    d (paths.resolve s.path) = some (.file (s.content.getD ⟨#[]⟩)) := by
  induction h with
  | nil => exact absurd hs List.not_mem_nil
  | @cons path s' _ _ hcap _ ih =>
    rcases List.mem_cons.mp hs with rfl | hs
    · obtain ⟨bytes, hbytes, hfile⟩ := hcap.content
      rw [hcap.named, hbytes]
      exact hfile
    · exact ih hs

/-- Every captured file has its snapshot. -/
theorem captured_paths {paths : Paths Loc} {d : Disk Loc} {files : List String}
    {snapshots : List FileSnapshot} (h : List.Forall₂ (Captured paths d) files snapshots) :
    snapshots.map FileSnapshot.path = files := by
  induction h with
  | nil => rfl
  | cons hcap _ ih => rw [List.map_cons, ih, hcap.named]

variable [DecidableEq Loc]

/-! ## The call -/

/-- The loop of `PatchJournal.rollback`, with the files restored so far. -/
def rollbackFrom (paths : Paths Loc) : List FileSnapshot → List String → Disk Loc →
    RollbackResult × Disk Loc
  | [], restored, d => (⟨true, restored, none⟩, d)
  | s :: rest, restored, d =>
    if paths.inside s.path = false then
      (⟨false, restored, some ("path escapes repository root: " ++ s.path)⟩, d)
    else
      let loc := paths.resolve s.path
      let d' := if s.existed then d.write loc (s.content.getD ⟨#[]⟩)
        else if d.present loc then d.unlink loc else d
      rollbackFrom paths rest (restored ++ [s.path]) d'

/-- `PatchJournal.rollback`. -/
def PatchJournal.rollback (paths : Paths Loc) (j : PatchJournal) (d : Disk Loc) :
    RollbackResult × Disk Loc := rollbackFrom paths j.snapshots [] d

structure PatchApplyResult where
  applied : Bool
  changedFiles : List String := []
  journal : Option PatchJournal := none
  blocker : Option String := none
deriving DecidableEq

/-- `apply_unified_diff`: the result, and the disk after it. -/
def applyUnifiedDiff (paths : Paths Loc) (patchText : Text) (d : Disk Loc) :
    Except RepoError PatchApplyResult × Disk Loc :=
  let parsed := parseUnifiedDiff patchText
  if parsed = [] then (.ok { applied := false, blocker := some "no file patches found" }, d)
  else
    match planWrites paths d parsed with
    | .error (.blocked blocker) => (.ok { applied := false, blocker := some blocker }, d)
    | .error (.raised e) => (.error (.file e), d)
    | .ok planned =>
      match capture paths d (planned.map Prod.fst) with
      | .error e => (.error e, d)
      | .ok snapshots =>
        (.ok {
          applied := true
          changedFiles := planned.map Prod.fst
          journal := some ⟨snapshots⟩ }, d.writeAll (writesOf paths planned))

/-! ## What a call does -/

/-- What a call that applied has read. -/
structure AppliedPatch (paths : Paths Loc) (patch : Text) (d : Disk Loc)
    (writes : List (String × Text)) (snapshots : List FileSnapshot) : Prop where
  parsed : parseUnifiedDiff patch ≠ []
  planned : List.Forall₂ (Planned paths d) (parseUnifiedDiff patch) writes
  captured : List.Forall₂ (Captured paths d) (writes.map Prod.fst) snapshots

/-- The result of a call that applied. -/
def appliedResult (planned : List (String × Text)) (snapshots : List FileSnapshot) :
    PatchApplyResult where
  applied := true
  changedFiles := planned.map Prod.fst
  journal := some ⟨snapshots⟩

/-- When all sections can be planned, the call applies them. -/
theorem applyUnifiedDiff_of_planned {paths : Paths Loc} {patch : Text} {d : Disk Loc}
    {planned : List (String × Text)} (hparsed : parseUnifiedDiff patch ≠ [])
    (h : planWrites paths d (parseUnifiedDiff patch) = .ok planned) :
    ∃ snapshots, AppliedPatch paths patch d planned snapshots ∧
      applyUnifiedDiff paths patch d =
        (.ok (appliedResult planned snapshots), d.writeAll (writesOf paths planned)) := by
  have hall := planWrites_ok h
  obtain ⟨snapshots, hcapture, hcaptured⟩ := capture_ok hall
  refine ⟨snapshots, ⟨hparsed, hall, hcaptured⟩, ?_⟩
  unfold applyUnifiedDiff
  simp only [if_neg hparsed, h, hcapture]
  rfl

/-- A call raises or is refused, and has written nothing; or it has applied every section. -/
theorem applyUnifiedDiff_cases (paths : Paths Loc) (patch : Text) (d : Disk Loc) :
    (∃ e, applyUnifiedDiff paths patch d = (.error e, d)) ∨
    (∃ blocker, applyUnifiedDiff paths patch d =
      (.ok { applied := false, blocker := some blocker }, d)) ∨
    (∃ planned snapshots, AppliedPatch paths patch d planned snapshots ∧
      applyUnifiedDiff paths patch d =
        (.ok (appliedResult planned snapshots), d.writeAll (writesOf paths planned))) := by
  by_cases hparsed : parseUnifiedDiff patch = []
  · refine Or.inr (Or.inl ⟨"no file patches found", ?_⟩)
    unfold applyUnifiedDiff
    exact if_pos hparsed
  · cases hplan : planWrites paths d (parseUnifiedDiff patch) with
    | ok planned => exact Or.inr (Or.inr ⟨planned, applyUnifiedDiff_of_planned hparsed hplan⟩)
    | error stop =>
      cases stop with
      | blocked blocker =>
        refine Or.inr (Or.inl ⟨blocker, ?_⟩)
        unfold applyUnifiedDiff
        simp only [if_neg hparsed, hplan]
      | raised e =>
        refine Or.inl ⟨.file e, ?_⟩
        unfold applyUnifiedDiff
        simp only [if_neg hparsed, hplan]

/-- A place that no section names stays as it was. -/
theorem applied_other {paths : Paths Loc} {d : Disk Loc} {planned : List (String × Text)} {loc : Loc}
    (h : ∀ path ∈ planned.map Prod.fst, paths.resolve path ≠ loc) :
    d.writeAll (writesOf paths planned) loc = d loc := by
  refine Files.writeAll_other fun w hw => ?_
  obtain ⟨x, hx, rfl⟩ := List.mem_map.mp hw
  exact h x.1 (List.mem_map_of_mem hx)

/-- A place that a section names is a file afterwards. -/
theorem applied_file {paths : Paths Loc} {d : Disk Loc} {planned : List (String × Text)}
    {path : String} (h : path ∈ planned.map Prod.fst) :
    ∃ bytes, d.writeAll (writesOf paths planned) (paths.resolve path) = some (.file bytes) := by
  obtain ⟨x, hx, rfl⟩ := List.mem_map.mp h
  have hw : (paths.resolve x.1, encode x.2) ∈ writesOf paths planned := List.mem_map.mpr ⟨x, hx, rfl⟩
  obtain ⟨w, -, -, hval⟩ := Files.writeAll_mem (d := d) ⟨_, hw, rfl⟩
  exact ⟨w.2, hval⟩

/-! ## Rolling back -/

/-- The writes of a rollback. -/
def restores (paths : Paths Loc) (snapshots : List FileSnapshot) : List (Loc × ByteArray) :=
  snapshots.map fun s => (paths.resolve s.path, s.content.getD ⟨#[]⟩)

/-- A rollback of files that were there writes every one of them back. -/
theorem rollbackFrom_captured {paths : Paths Loc} {d : Disk Loc} {files : List String}
    {snapshots : List FileSnapshot} (h : List.Forall₂ (Captured paths d) files snapshots)
    (restored : List String) (d' : Disk Loc) :
    rollbackFrom paths snapshots restored d' =
      (⟨true, restored ++ files, none⟩, d'.writeAll (restores paths snapshots)) := by
  induction h generalizing restored d' with
  | nil => simp [rollbackFrom, restores, Disk.writeAll]
  | @cons path s files rest hs _ ih =>
    have hinside : ¬ paths.inside s.path = false := by rw [hs.named, hs.inside]; decide
    unfold rollbackFrom
    simp only [if_neg hinside, if_pos hs.existed]
    rw [ih, hs.named, List.append_assoc]
    simp only [restores, List.map_cons, Disk.writeAll, hs.named, List.singleton_append]

/-- Rolling back gives the captured disk again, whatever was written to the captured files since. -/
theorem rollback_restores {paths : Paths Loc} {d d' : Disk Loc} {files : List String}
    {snapshots : List FileSnapshot} (h : List.Forall₂ (Captured paths d) files snapshots)
    (hchanged : ∀ loc, (∀ path ∈ files, paths.resolve path ≠ loc) → d' loc = d loc) :
    PatchJournal.rollback paths ⟨snapshots⟩ d' = (⟨true, files, none⟩, d) := by
  have hold : ∀ w ∈ restores paths snapshots, d w.1 = some (.file w.2) := by
    intro w hw
    obtain ⟨s, hs, rfl⟩ := List.mem_map.mp hw
    exact captured_mem h hs
  have hrest : ∀ loc, (∀ w ∈ restores paths snapshots, w.1 ≠ loc) → d' loc = d loc := by
    intro loc hno
    refine hchanged loc fun path hpath => ?_
    rw [← captured_paths h] at hpath
    obtain ⟨s, hs, rfl⟩ := List.mem_map.mp hpath
    exact hno _ (List.mem_map_of_mem hs)
  unfold PatchJournal.rollback
  rw [rollbackFrom_captured h, List.nil_append, Files.writeAll_restore hold hrest]

end Apply

end Vad
