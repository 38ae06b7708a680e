/-
  Approved application of a diff proposal (`vad/repo/diff_workflow.py`).

  `applyApprovedDiffProposal` has four exits, and each has written a different amount:
  1. an approval is missing: nothing was written;
  2. the patch was refused: nothing was written (`applyUnifiedDiff_cases`);
  3. the patch was applied, but to other files than the approved ones: everything was written, and
     the journal has put it back (`rollback_restores`), sections for one file or for two spellings
     of one path included;
  4. the patch was applied to the approved files: nothing outside them was written.
-/
import Vad.Repo.PatchApply
import Vad.Repo.DiffProposal

namespace Vad

open PyText (Text)
open Files (Paths Disk Entry FileError encode)

/-! ## Approvals, digests and the record -/

/-- `_approval_blocker`. -/
def approvalBlocker (verifier releaseGuardian : PolicyDecision) : Option String :=
  if verifier.allow = false then some "verifier approval required before diff apply"
  else if releaseGuardian.allow = false then
    some "release guardian approval required before diff apply"
  else none

/-- `sorted` of a list of strings. -/
def sortedTexts (texts : List String) : List String := texts.insertionSort (· ≤ ·)

section Apply

variable {Loc : Type}

/-- The loop of `_file_digests`, with the digests so far. -/
def fileDigestsFrom (paths : Paths Loc) (sha256 : ByteArray → String) (d : Disk Loc) :
    List String → Dict String → Except RepoError (Dict String)
  | [], digests => .ok digests
  | path :: rest, digests =>
    if paths.inside path = false then .error (.file .notRelative)
    else
      match d.readBytes (paths.resolve path) with
      | .error e => .error (.file e)
      | .ok bytes => fileDigestsFrom paths sha256 d rest (digests.set path (sha256 bytes))

/-- `_file_digests`. -/
def fileDigests (paths : Paths Loc) (sha256 : ByteArray → String) (d : Disk Loc)
    (changedFiles : List String) : Except RepoError (Dict String) :=
  fileDigestsFrom paths sha256 d changedFiles []

/-- The constructor call at each exit. -/
def buildRecord (r : DiffApplyRecord) : Except RepoError (Checked DiffApplyRecord) :=
  match Model.build r with
  | .error e => .error (.python e)
  | .ok record => .ok record

theorem buildRecord_ok {r : DiffApplyRecord} {record : Checked DiffApplyRecord}
    (h : buildRecord r = .ok record) : record.1 = r := by
  unfold buildRecord at h
  split at h
  · cases h
  · rename_i built hbuilt
    cases h
    exact Model.build_eq_ok hbuilt

/-- What the loop adds: the digest of every file of the list, and of no other. -/
theorem fileDigestsFrom_get {paths : Paths Loc} {sha256 : ByteArray → String} {d : Disk Loc}
    {files : List String} {digests out : Dict String}
    (h : fileDigestsFrom paths sha256 d files digests = .ok out) (path : String) :
    (path ∉ files ∧ out.get path = digests.get path) ∨
    (path ∈ files ∧ ∃ bytes, d (paths.resolve path) = some (.file bytes) ∧
      out.get path = some (sha256 bytes)) := by
  induction files generalizing digests with
  | nil =>
    cases h
    exact Or.inl ⟨List.not_mem_nil, rfl⟩
  | cons file rest ih =>
    unfold fileDigestsFrom at h
    split at h
    · cases h
    · split at h
      · cases h
      · rename_i bytes hbytes
        have hfile := Files.readBytes_ok.mp hbytes
        have hset := Dict.get_set digests file path (sha256 bytes)
        rcases ih h with ⟨hno, hget⟩ | ⟨hmem, hget⟩
        · by_cases heq : file = path
          · -- the entry of this turn is the last one for this path
            subst heq
            rw [if_pos rfl] at hset
            exact Or.inr ⟨List.mem_cons_self .., bytes, hfile, hget.trans hset⟩
          · rw [if_neg heq] at hset
            refine Or.inl ⟨fun hmem => ?_, hget.trans hset⟩
            rcases List.mem_cons.mp hmem with rfl | hmem
            · exact heq rfl
            · exact hno hmem
        · exact Or.inr ⟨List.mem_cons_of_mem _ hmem, hget⟩

/-- The digests are those of the listed files as they are on the disk. -/
theorem fileDigests_get {paths : Paths Loc} {sha256 : ByteArray → String} {d : Disk Loc}
    {files : List String} {digests : Dict String} (h : fileDigests paths sha256 d files = .ok digests)
    (path : String) :
    (path ∉ files ∧ digests.get path = none) ∨
    (path ∈ files ∧ ∃ bytes, d (paths.resolve path) = some (.file bytes) ∧
      digests.get path = some (sha256 bytes)) := fileDigestsFrom_get h path

/-- Files that are there have digests. -/
theorem fileDigestsFrom_ok {paths : Paths Loc} {sha256 : ByteArray → String} {d : Disk Loc}
    {files : List String} (h : ∀ path ∈ files, paths.inside path = true ∧
      ∃ bytes, d (paths.resolve path) = some (.file bytes)) (digests : Dict String) :
    ∃ out, fileDigestsFrom paths sha256 d files digests = .ok out := by
  induction files generalizing digests with
  | nil => exact ⟨digests, rfl⟩
  | cons path rest ih =>
    obtain ⟨hinside, bytes, hfile⟩ := h path (List.mem_cons_self ..)
    have houtside : ¬ paths.inside path = false := by rw [hinside]; decide
    unfold fileDigestsFrom
    rw [if_neg houtside, Files.readBytes_ok.mpr hfile]
    exact ih (fun p hp => h p (List.mem_cons_of_mem _ hp)) _

/-! ## All or nothing -/

/-- The disk after an application of the approved files. -/
structure AppliedAsApproved (paths : Paths Loc) (sha256 : ByteArray → String)
    (proposal : DiffProposal) (verifier releaseGuardian : PolicyDecision) (d d' : Disk Loc)
    (record : DiffApplyRecord) : Prop where
  verifier : verifier.allow = true
  releaseGuardian : releaseGuardian.allow = true
  files : record.changedFiles.Perm proposal.changedFiles
  others : ∀ loc, (∀ path ∈ record.changedFiles, paths.resolve path ≠ loc) → d' loc = d loc
  /-- Exactly the changed files have a digest, and it is the one of the final content. -/
  digests : ∀ path, (path ∉ record.changedFiles ∧ record.afterFileDigests.get path = none) ∨
    (path ∈ record.changedFiles ∧ ∃ bytes, d' (paths.resolve path) = some (.file bytes) ∧
      record.afterFileDigests.get path = some (sha256 bytes))

/-- All or nothing: a record that does not say applied goes with the disk as it was. -/
structure AllOrNothing (paths : Paths Loc) (sha256 : ByteArray → String)
    (proposal : DiffProposal) (verifier releaseGuardian : PolicyDecision) (d d' : Disk Loc)
    (record : DiffApplyRecord) : Prop where
  nothing : record.applied = false → d' = d
  all : record.applied = true →
    AppliedAsApproved paths sha256 proposal verifier releaseGuardian d d' record

theorem approvalBlocker_none {verifier releaseGuardian : PolicyDecision}
    (h : approvalBlocker verifier releaseGuardian = none) :
    verifier.allow = true ∧ releaseGuardian.allow = true := by
  unfold approvalBlocker at h
  split at h
  · cases h
  · rename_i hverifier
    split at h
    · cases h
    · rename_i hguardian
      exact ⟨by simpa using hverifier, by simpa using hguardian⟩

/-- A record that says not applied, with the disk as it was, is fine. -/
theorem AllOrNothing.unchanged {paths : Paths Loc} {sha256 : ByteArray → String}
    {proposal : DiffProposal} {verifier releaseGuardian : PolicyDecision} {d : Disk Loc}
    {record : DiffApplyRecord} (h : record.applied = false) :
    AllOrNothing paths sha256 proposal verifier releaseGuardian d d record where
  nothing _ := rfl
  all hall := by rw [h] at hall; cases hall

/-- What a call says and does, whatever it returns. -/
def ApplyOutcome (paths : Paths Loc) (sha256 : ByteArray → String) (proposal : DiffProposal)
    (verifier releaseGuardian : PolicyDecision) (d : Disk Loc) :
    Except RepoError (Checked DiffApplyRecord) × Disk Loc → Prop
  | (.ok record, d') =>
    AllOrNothing paths sha256 proposal verifier releaseGuardian d d' record.1
  | (.error _, _) => True

theorem ApplyOutcome.build {paths : Paths Loc} {sha256 : ByteArray → String}
    {proposal : DiffProposal} {verifier releaseGuardian : PolicyDecision} {d d' : Disk Loc}
    {r : DiffApplyRecord} (h : AllOrNothing paths sha256 proposal verifier releaseGuardian d d' r) :
    ApplyOutcome paths sha256 proposal verifier releaseGuardian d (buildRecord r, d') := by
  cases hbuild : buildRecord r with
  | error e => trivial
  | ok record =>
    show AllOrNothing paths sha256 proposal verifier releaseGuardian d d' record.1
    rw [buildRecord_ok hbuild]
    exact h

/-! ## The call -/

variable [DecidableEq Loc]

/-- The blocker of a call whose files are not the approved ones. -/
def mismatchBlocker (rollback : RollbackResult) : String :=
  let blocker := "applied files do not match approved proposal"
  if rollback.rolledBack then blocker
  else blocker ++ "; rollback failed: " ++ rollback.blocker.getD "None"

/-- `apply_approved_diff_proposal`: the record, and the disk after it. -/
def applyApprovedDiffProposal (paths : Paths Loc) (sha256 : ByteArray → String)
    (proposal : Checked DiffProposal) (verifier releaseGuardian : PolicyDecision) (now : DateTime)
    (d : Disk Loc) : Except RepoError (Checked DiffApplyRecord) × Disk Loc :=
  let base : DiffApplyRecord := {
    proposalId := proposal.1.proposalId
    runId := proposal.1.runId
    taskId := proposal.1.taskId
    applied := false
    verifierDecision := verifier
    releaseGuardianDecision := releaseGuardian
    createdAt := now.isoformat }
  match approvalBlocker verifier releaseGuardian with
  | some denial => (buildRecord { base with blocker := some denial }, d)
  | none =>
    match applyUnifiedDiff paths proposal.1.patchText.toList d with
    | (.error e, d') => (.error e, d')
    | (.ok result, d') =>
      match result.applied, result.journal with
      | true, some journal =>
        let changedFiles := sortedTexts result.changedFiles
        let beforeDigest := journal.patchDigest sha256
        if changedFiles = sortedTexts proposal.1.changedFiles then
          match fileDigests paths sha256 d' changedFiles with
          | .error e => (.error e, d')
          | .ok digests =>
            (buildRecord { base with
              applied := true
              changedFiles := changedFiles
              beforeDigest := some beforeDigest
              afterFileDigests := digests }, d')
        else
          let rollback := journal.rollback paths d'
          (buildRecord { base with
            changedFiles := changedFiles
            beforeDigest := some beforeDigest
            blocker := some (mismatchBlocker rollback.1) }, rollback.2)
      | _, _ => (buildRecord { base with blocker := result.blocker }, d')

/-- **Approved application is all or nothing**, whatever the disk, the paths, the proposal and the
    decisions are. -/
theorem applyApproved_allOrNothing (paths : Paths Loc) (sha256 : ByteArray → String)
    (proposal : Checked DiffProposal) (verifier releaseGuardian : PolicyDecision) (now : DateTime)
    (d : Disk Loc) :
    ApplyOutcome paths sha256 proposal.1 verifier releaseGuardian d
      (applyApprovedDiffProposal paths sha256 proposal verifier releaseGuardian now d) := by
  unfold applyApprovedDiffProposal
  cases hdenial : approvalBlocker verifier releaseGuardian with
  | some denial => exact .build (.unchanged rfl)
  | none =>
    obtain ⟨hverifier, hguardian⟩ := approvalBlocker_none hdenial
    rcases applyUnifiedDiff_cases paths proposal.1.patchText.toList d with
      ⟨e, hcall⟩ | ⟨blocker, hcall⟩ | ⟨planned, snapshots, hpatch, hcall⟩
    · rw [hcall]
      trivial
    · rw [hcall]
      exact .build (.unchanged rfl)
    · rw [hcall]
      show ApplyOutcome paths sha256 proposal.1 verifier releaseGuardian d (ite _ _ _)
      have hperm : (sortedTexts (planned.map Prod.fst)).Perm (planned.map Prod.fst) :=
        List.perm_insertionSort _ _
      have hother : ∀ loc, (∀ path ∈ planned.map Prod.fst, paths.resolve path ≠ loc) →
          d.writeAll (writesOf paths planned) loc = d loc := fun _ => applied_other
      split
      · rename_i hfiles
        split
        · trivial
        · rename_i digests hdigests
          refine .build ⟨fun h => ?_, fun _ => ⟨hverifier, hguardian, ?_, ?_, fileDigests_get hdigests⟩⟩
          · cases h
          · show (sortedTexts (planned.map Prod.fst)).Perm proposal.1.changedFiles
            have hsorted : sortedTexts (planned.map Prod.fst) =
              sortedTexts proposal.1.changedFiles := hfiles
            rw [hsorted]
            exact List.perm_insertionSort _ _
          · intro loc hno
            exact hother loc fun path hpath => hno path (hperm.mem_iff.mpr hpath)
      · -- other files than the approved ones: the journal puts everything back
        have hrollback := rollback_restores hpatch.captured hother
        refine .build ?_
        show AllOrNothing paths sha256 proposal.1 verifier releaseGuardian d
          (PatchJournal.rollback paths ⟨snapshots⟩ _).2 _
        rw [hrollback]
        exact .unchanged rfl

/-! ## What a record says -/

/-- The record of a call is one of its proposal, made now. -/
theorem applyApproved_stamp {paths : Paths Loc} {sha256 : ByteArray → String}
    {proposal : Checked DiffProposal} {verifier releaseGuardian : PolicyDecision} {now : DateTime}
    {d d' : Disk Loc} {record : Checked DiffApplyRecord}
    (h : applyApprovedDiffProposal paths sha256 proposal verifier releaseGuardian now d =
      (.ok record, d')) :
    record.1.proposalId = proposal.1.proposalId ∧ record.1.createdAt = now.isoformat := by
  have hbuilt : ∀ {r : DiffApplyRecord} {d'' : Disk Loc}, (buildRecord r, d'') = (.ok record, d') →
      record.1 = r := fun heq => buildRecord_ok (congrArg Prod.fst heq)
  unfold applyApprovedDiffProposal at h
  simp only at h
  split at h
  · rw [hbuilt h]
    exact ⟨rfl, rfl⟩
  · split at h
    · cases h
    · split at h
      · split at h
        · split at h
          · cases h
          · rw [hbuilt h]
            exact ⟨rfl, rfl⟩
        · rw [hbuilt h]
          exact ⟨rfl, rfl⟩
      · rw [hbuilt h]
        exact ⟨rfl, rfl⟩

/-- Without both approvals the call records a denial and does nothing. -/
theorem applyApproved_denied {paths : Paths Loc} {sha256 : ByteArray → String}
    {proposal : Checked DiffProposal} {verifier releaseGuardian : PolicyDecision} {now : DateTime}
    {d : Disk Loc} {denial : String} (h : approvalBlocker verifier releaseGuardian = some denial) :
    ∃ record, applyApprovedDiffProposal paths sha256 proposal verifier releaseGuardian now d =
      (.ok record, d) ∧ record.1.applied = false := by
  unfold applyApprovedDiffProposal
  simp only [h]
  have hvalid : ∀ r : DiffApplyRecord, r.beforeDigest = none → Model.Valid r := by
    intro r hr
    refine ⟨rfl, failedFields_eq_nil.mpr fun c hc => ?_⟩
    simp only [Model.checks, List.mem_singleton] at hc
    rw [hc, hr]
    rfl
  have hbuild : ∀ (r : DiffApplyRecord) (h : r.beforeDigest = none),
      buildRecord r = .ok ⟨r, hvalid r h⟩ := by
    intro r hr
    unfold buildRecord
    rw [Model.build_of_valid (hvalid r hr)]
  rw [hbuild _ rfl]
  exact ⟨_, rfl, rfl⟩

/-- Applying the proposal to this disk raises, or is approved and changes nothing. -/
def ReappliesInPlace (paths : Paths Loc) (proposal : DiffProposal)
    (verifier releaseGuardian : PolicyDecision) (d : Disk Loc) : Prop :=
  approvalBlocker verifier releaseGuardian = none ∧
    ((∃ e, (applyUnifiedDiff paths proposal.patchText.toList d).1 = .error e) ∨
      ∃ result, applyUnifiedDiff paths proposal.patchText.toList d = (.ok result, d) ∧
        result.applied = true ∧ result.journal.isSome = true ∧
        sortedTexts result.changedFiles = sortedTexts proposal.changedFiles)

/-- Then the call leaves the disk as it is, and does not say that it was denied. -/
theorem applyApproved_inPlace {paths : Paths Loc} (sha256 : ByteArray → String)
    {proposal : Checked DiffProposal} {verifier releaseGuardian : PolicyDecision} (now : DateTime)
    {d : Disk Loc} (h : ReappliesInPlace paths proposal.1 verifier releaseGuardian d) :
    (∃ e, applyApprovedDiffProposal paths sha256 proposal verifier releaseGuardian now d =
      (.error e, d)) ∨
    ∃ record, applyApprovedDiffProposal paths sha256 proposal verifier releaseGuardian now d =
      (.ok record, d) ∧ record.1.applied = true := by
  obtain ⟨hdenial, ⟨e, he⟩ | ⟨result, hresult, happlied, hjournal, hfiles⟩⟩ := h
  · rcases applyUnifiedDiff_cases paths proposal.1.patchText.toList d with
      ⟨e', hcall⟩ | ⟨blocker, hcall⟩ | ⟨planned, snapshots, -, hcall⟩
    · refine Or.inl ⟨e', ?_⟩
      unfold applyApprovedDiffProposal
      simp only [hdenial, hcall]
    · rw [hcall] at he
      cases he
    · rw [hcall] at he
      cases he
  · obtain ⟨journal, hjournal⟩ := Option.isSome_iff_exists.mp hjournal
    unfold applyApprovedDiffProposal
    simp only [hdenial, hresult, happlied, hjournal, if_pos hfiles]
    split
    · exact Or.inl ⟨_, rfl⟩
    · rename_i digests _
      cases hbuild : buildRecord _ with
      | error e => exact Or.inl ⟨e, rfl⟩
      | ok record =>
        refine Or.inr ⟨record, rfl, ?_⟩
        rw [buildRecord_ok hbuild]

/-- An approved patch that can be planned, for the approved files, is applied. -/
theorem applyApproved_applies {paths : Paths Loc} {sha256 : ByteArray → String}
    {proposal : Checked DiffProposal} {verifier releaseGuardian : PolicyDecision} {now : DateTime}
    {d : Disk Loc} {planned : List (String × Text)} (hsha : ∀ b, isDigest (sha256 b) = true)
    (hdenial : approvalBlocker verifier releaseGuardian = none)
    (hparsed : parseUnifiedDiff proposal.1.patchText.toList ≠ [])
    (hplan : planWrites paths d (parseUnifiedDiff proposal.1.patchText.toList) = .ok planned)
    (hfiles : sortedTexts (planned.map Prod.fst) = sortedTexts proposal.1.changedFiles) :
    ∃ record, applyApprovedDiffProposal paths sha256 proposal verifier releaseGuardian now d =
      (.ok record, d.writeAll (writesOf paths planned)) ∧ record.1.applied = true := by
  obtain ⟨snapshots, hpatch, hcall⟩ := applyUnifiedDiff_of_planned hparsed hplan
  have hthere : ∀ path ∈ sortedTexts (planned.map Prod.fst), paths.inside path = true ∧
      ∃ bytes, d.writeAll (writesOf paths planned) (paths.resolve path) = some (.file bytes) := by
    intro path hpath
    have hmem := (List.mem_insertionSort _).mp hpath
    refine ⟨?_, applied_file hmem⟩
    rw [planned_paths hpatch.planned] at hmem
    obtain ⟨p, hp, rfl⟩ := List.mem_map.mp hmem
    obtain ⟨w, hw⟩ := planned_forall hpatch.planned p hp
    exact (resolveWrite_ok hw.allowed).2
  obtain ⟨digests, hdigests⟩ := @fileDigestsFrom_ok _ _ sha256 _ _ hthere []
  unfold applyApprovedDiffProposal
  simp only [hdenial, hcall]
  show ∃ record, (ite _ _ _) = _ ∧ _
  have happrovedFiles : sortedTexts (appliedResult planned snapshots).changedFiles =
      sortedTexts proposal.1.changedFiles := hfiles
  rw [if_pos happrovedFiles]
  have hdigests' : fileDigests paths sha256 (d.writeAll (writesOf paths planned))
      (sortedTexts (appliedResult planned snapshots).changedFiles) = .ok digests := hdigests
  simp only [hdigests']
  have hvalid : ∀ r : DiffApplyRecord, (∃ b, r.beforeDigest = some (sha256 b)) → Model.Valid r := by
    rintro r ⟨b, hb⟩
    refine ⟨rfl, failedFields_eq_nil.mpr fun c hc => ?_⟩
    simp only [Model.checks, List.mem_singleton] at hc
    rw [hc, hb]
    exact hsha b
  have hbuild : ∀ (r : DiffApplyRecord) (h : ∃ b, r.beforeDigest = some (sha256 b)),
      buildRecord r = .ok ⟨r, hvalid r h⟩ := by
    intro r hr
    unfold buildRecord
    rw [Model.build_of_valid (hvalid r hr)]
  rw [hbuild _ ⟨_, rfl⟩]
  exact ⟨_, rfl, rfl⟩

end Apply

end Vad
