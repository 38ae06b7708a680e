/-
  Repository automation: `vad repo patch` and `vad repo run` (`vad/cli.py`), and the MCP handlers
  `repo_patch` and `repo_run` (`vad/adapters/mcp.py`).

  All of them read the repository, apply a patch, and then decide whether it may stay: dependency
  manifests need an approval, and the proof commands must pass.  What reading the repository gives
  and what a proof command gives are arbitrary functions of the disk; they do not write.

  1. `patchAndVerify_restores` — the patch command and the handlers put everything back whenever
     they do not succeed: each of their exits behind the patch either succeeds or rolls back.

  2. `repoRun_restores_iff` — the run command also checks the changed files against the scope.  That
     check refuses by raising, and the `except` clause at the end of the command only prints: no
     rollback.  So the command is all or nothing exactly when a patch that it applies lies in the
     scope, or leaves every file as it was.
-/
import Vad.Ask.Assessment
import Vad.Repo.DiffWorkflow
import Vad.Repo.RepeatedSections
import Vad.Verify.Runner

namespace Vad

open PyText (Text)
open Files (Paths Disk Entry FileError encode)

/-! ## The state of the repository -/

inductive DirtyState where
  | clean | dirty | unknown
deriving DecidableEq, Repr

structure ManifestFile where
  path : String
  kind : String
deriving DecidableEq, Repr

/-- `RepositoryIntake`, of a git repository. -/
structure RepositoryIntake where
  root : String
  defaultBranch : Option String := none
  currentBranch : Option String := none
  baseRevision : Option String := none
  dirtyState : DirtyState
  languageHints : List String := []
  manifestFiles : List ManifestFile := []
  warnings : List String := []
deriving DecidableEq, Repr

structure GitState where
  root : String
  branch : Option String := none
  baseRevision : Option String := none
  dirtyState : DirtyState
  autonomousPatchAllowed : Bool
  blocker : Option String := none
deriving DecidableEq, Repr

/-- `inspect_git_state`, behind the intake. -/
def inspectGitState (intake : RepositoryIntake) (allowDirty : Bool) : GitState :=
  let blocker :=
    if intake.dirtyState = .dirty ∧ allowDirty = false then
      some "dirty worktree blocks autonomous patch"
    else if intake.dirtyState = .unknown then
      some "unknown dirty state blocks autonomous patch"
    else none
  { root := intake.root
    branch := intake.currentBranch
    baseRevision := intake.baseRevision
    dirtyState := intake.dirtyState
    autonomousPatchAllowed := blocker.isNone
    blocker := blocker }

structure DiscoveredProofCommand where
  ecosystem : String
  command : List String
  reason : String
deriving DecidableEq, Repr

structure ProofDiscovery where
  root : String
  commands : List DiscoveredProofCommand := []
  blocker : Option String := none
deriving DecidableEq, Repr

/-! ## Dependency manifests -/

/-- `_DEPENDENCY_MANIFESTS`. -/
def dependencyManifests : Dict String := [
  ("pyproject.toml", "python"),
  ("requirements.txt", "python"),
  ("poetry.lock", "python"),
  ("package.json", "node"),
  ("package-lock.json", "node"),
  ("pnpm-lock.yaml", "node"),
  ("yarn.lock", "node"),
  ("go.mod", "go"),
  ("go.sum", "go"),
  ("Cargo.toml", "rust"),
  ("Cargo.lock", "rust")]

/-- `dependency_ecosystem`: by the last component of the path. -/
def dependencyEcosystem (path : String) : Option String :=
  dependencyManifests.get (String.ofList (((slashed path).splitOn '/').getLastD []))

structure DependencyChange where
  path : String
  ecosystem : String
deriving DecidableEq, Repr

structure DependencyChangeAssessment where
  changes : List DependencyChange := []
  approved : Bool := false
deriving DecidableEq, Repr

/-- `assess_dependency_changes`. -/
def assessDependencyChanges (changedFiles : List String) (approved : Bool) :
    DependencyChangeAssessment where
  changes := changedFiles.filterMap fun path =>
    (dependencyEcosystem path).map fun ecosystem => ⟨path, ecosystem⟩
  approved := approved

/-- `DependencyChangeAssessment.decision`. -/
def DependencyChangeAssessment.decision (a : DependencyChangeAssessment) : PolicyDecision :=
  if a.changes ≠ [] ∧ a.approved = false then {
    allow := false
    denials := ["dependency changes require explicit approval"]
    requiresHuman := true }
  else {
    allow := true
    reasons := [if a.changes ≠ [] then "dependency changes approved" else "no dependency changes"] }

/-! ## The patch plan -/

structure PatchPlan where
  eipName : String
  scopeBoundaries : List String
  allowedFiles : List String
  proofCommands : List DiscoveredProofCommand := []
  meesEstimate : Int
  blocker : Option String := none
deriving DecidableEq, Repr

/-- `PurePosixPath(text).parts`, without the root. -/
def pathParts (text : Text) : List Text := (text.splitOn '/').filter fun p => p ≠ [] ∧ p ≠ ['.']

/-- `_normalize_repo_path`. -/
def normalizeRepoPath (path : String) : Except PyError String :=
  let text := slashed path
  let parts := pathParts text
  if text.head? = some '/' ∨ ['.', '.'] ∈ parts then
    .error (.valueError ("unsafe repository path: " ++ path))
  else .ok (if parts = [] then "." else String.ofList (List.intercalate ['/'] parts))

def normalizeRepoPaths : List String → Except PyError (List String)
  | [] => .ok []
  | path :: rest => do
    let normalized ← normalizeRepoPath path
    let others ← normalizeRepoPaths rest
    pure (normalized :: others)

/-- `_within_scope`. -/
def withinScope (path boundary : String) : Except PyError Bool := do
  let normalized ← normalizeRepoPath boundary
  pure (decide (path = normalized) || PyText.startsWith (normalized.toList ++ ['/']) path.toList)

/-- `any(_within_scope(path, boundary) for boundary in boundaries)`: it stops at the first. -/
def withinSome (path : String) : List String → Except PyError Bool
  | [] => .ok false
  | boundary :: rest => do
    if ← withinScope path boundary then pure true else withinSome path rest

/-- `_within_any_scope`. -/
def withinAnyScope (path : String) (boundaries : List String) : Except PyError Bool := do
  let normalized ← normalizeRepoPath path
  withinSome normalized boundaries

/-- The files that `reject_out_of_scope_files` rejects. -/
def outOfScope (boundaries : List String) : List String → Except PyError (List String)
  | [] => .ok []
  | path :: rest => do
    let within ← withinAnyScope path boundaries
    let others ← outOfScope boundaries rest
    pure (if within then others else path :: others)

/-- `reject_out_of_scope_files`; pydantic hands its `ValueError` on as a `ValidationError`. -/
def rejectOutOfScopeFiles (plan : PatchPlan) : Except PyError PatchPlan := do
  let outside ← outOfScope plan.scopeBoundaries plan.allowedFiles
  if outside ≠ [] then
    .error (.valueError ("files outside EIP scope: " ++ ", ".intercalate outside))
  else if plan.proofCommands = [] ∧ plan.blocker = none then
    pure { plan with blocker := some "no proof commands available for patch plan" }
  else pure plan

/-- `build_patch_plan`. -/
def buildPatchPlan (eip : EIP) (requestedFiles : List String)
    (proofCommands : List DiscoveredProofCommand) (meesEstimate : Int) : Except PyError PatchPlan := do
  let allowedFiles ← normalizeRepoPaths requestedFiles
  if 0 ≤ meesEstimate ∧ meesEstimate ≤ 100 then
    rejectOutOfScopeFiles {
      eipName := eip.name
      scopeBoundaries := eip.scopeBoundaries
      allowedFiles := allowedFiles
      proofCommands := proofCommands
      meesEstimate := meesEstimate }
  else .error (.validationError "PatchPlan" ["mees_estimate"])

/-- `_scope_from_paths`. -/
def scopeFromPaths (paths : List String) : List String :=
  let scopes := sortedTexts (((paths.filter fun path => path ≠ "").map fun path =>
    String.ofList ((slashed path).takeWhile (· ≠ '/'))).dedup)
  if scopes = [] then ["."] else scopes

/-! ## What the commands share -/

structure PatchJournalEvidence where
  changedFiles : List String := []
  patchDigest : String
  rolledBack : Bool := false
  blocker : Option String := none
deriving DecidableEq, Repr

/-- `PatchJournal.to_evidence`. -/
def PatchJournal.toEvidence (sha256 : ByteArray → String) (j : PatchJournal)
    (rollback : Option RollbackResult) : PatchJournalEvidence where
  changedFiles := j.changedFiles
  patchDigest := j.patchDigest sha256
  rolledBack := (rollback.map RollbackResult.rolledBack).getD false
  blocker := rollback.bind RollbackResult.blocker

structure RepoPatchPayload where
  applied : Bool
  changedFiles : List String
  journal : Option PatchJournalEvidence
  dependencyDecision : PolicyDecision
  verification : Option VerifierReport
  rolledBack : Bool
  blocker : Option String
deriving DecidableEq, Repr

/-- `_repo_patch_payload`. -/
def repoPatchPayload (sha256 : ByteArray → String) (result : PatchApplyResult)
    (decision : PolicyDecision) (verification : Option VerifierReport)
    (rollback : Option RollbackResult) : RepoPatchPayload where
  applied := result.applied
  changedFiles := result.changedFiles
  journal := result.journal.map fun j => j.toEvidence sha256 rollback
  dependencyDecision := decision
  verification := verification
  rolledBack := (rollback.map RollbackResult.rolledBack).getD false
  blocker := match result.blocker with
    | some text => if text = "" then rollback.bind RollbackResult.blocker else some text
    | none => rollback.bind RollbackResult.blocker

/-- How a command ends: only the first is success. -/
inductive RepoOutcome (α : Type) where
  | passed (payload : α)
  | denied (message : Option String) (payload : α)
  | refused (message : String) (blocker : Option String)
  | raised (e : RepoError)

def RepoOutcome.succeeded {α : Type} : RepoOutcome α → Bool
  | .passed _ => true
  | _ => false

/-- What surrounds the commands. -/
structure RepoEnv (Loc : Type) where
  paths : Paths Loc
  /-- The hexadecimal digest of bytes. -/
  sha256 : ByteArray → String
  /-- The digest of the canonical JSON text of an EIP. -/
  eipSha256 : EIP → String
  lower : Text → Text
  /-- `assess_repository`. -/
  assessRepository : Disk Loc → Except PyError RepositoryIntake
  /-- `discover_proof_commands`. -/
  discoverProofCommands : Disk Loc → Except PyError ProofDiscovery
  /-- What the proof commands give on a repository. -/
  execute : Disk Loc → Execution

section Commands

variable {Loc : Type} [DecidableEq Loc]

/-- `apply_result.journal.rollback() if apply_result.journal else None`. -/
def rollbackApplied (paths : Paths Loc) (result : PatchApplyResult) (d : Disk Loc) :
    Option RollbackResult × Disk Loc :=
  match result.journal with
  | none => (none, d)
  | some journal =>
    let rollback := journal.rollback paths d
    (some rollback.1, rollback.2)

/-! ## Patching -/

/-- The arguments of a patch command, and what its files hold. -/
structure RepoPatchArgs where
  allowDirty : Bool := false
  approveDependencies : Bool := false
  eip : Except RepoError (Checked EIP)
  proofPlan : Except RepoError (Checked ProofPlan)
  patch : Except RepoError Text

/-- The texts in which the patch command and the handlers differ. -/
structure RepoPatchTexts where
  blocked : String
  failed : String
  denied : Option String := none
  proofsFailed : Option String := none

/-- The steps of `repo_patch_command` and of `_repo_patch_like`. -/
def patchAndVerify (texts : RepoPatchTexts) (env : RepoEnv Loc) (args : RepoPatchArgs)
    (now : DateTime) (d : Disk Loc) : RepoOutcome RepoPatchPayload × Disk Loc :=
  match env.assessRepository d with
  | .error e => (.raised (.python e), d)
  | .ok intake =>
    let git := inspectGitState intake args.allowDirty
    if git.autonomousPatchAllowed = false then (.refused texts.blocked git.blocker, d)
    else
      match args.eip, args.proofPlan, args.patch with
      | .error e, _, _ => (.raised e, d)
      | _, .error e, _ => (.raised e, d)
      | _, _, .error e => (.raised e, d)
      | .ok eip, .ok plan, .ok patch =>
        match applyUnifiedDiff env.paths patch d with
        | (.error e, d') => (.raised e, d')
        | (.ok result, d') =>
          if result.applied = false then (.refused texts.failed result.blocker, d')
          else
            let decision :=
              (assessDependencyChanges result.changedFiles args.approveDependencies).decision
            if decision.allow = false then
              let rollback := rollbackApplied env.paths result d'
              (.denied texts.denied
                (repoPatchPayload env.sha256 result decision none rollback.1), rollback.2)
            else
              let verification := VerifierRunner.run env.eipSha256 (env.execute d') eip.1 plan.1 now
              if verification.passed = false then
                let rollback := rollbackApplied env.paths result d'
                (.denied texts.proofsFailed
                  (repoPatchPayload env.sha256 result decision (some verification) rollback.1),
                  rollback.2)
              else
                (.passed (repoPatchPayload env.sha256 result decision (some verification) none), d')

/-- `repo_patch_command`; it looks for its files before anything else. -/
def repoPatchCommand (env : RepoEnv Loc) (missingFile : Option String) (args : RepoPatchArgs)
    (now : DateTime) (d : Disk Loc) : RepoOutcome RepoPatchPayload × Disk Loc :=
  match missingFile with
  | some path => (.refused ("File " ++ path ++ " not found.") none, d)
  | none => patchAndVerify ⟨"Repository patch blocked", "Repository patch failed", none, none⟩
      env args now d

/-- `_repo_patch_like`, that is `handle_repo_patch` and `handle_repo_run`. -/
def repoPatchLike (env : RepoEnv Loc) (args : RepoPatchArgs) (now : DateTime) (d : Disk Loc) :
    RepoOutcome RepoPatchPayload × Disk Loc :=
  patchAndVerify ⟨"Repository patch blocked", "Repository patch failed",
    some "Repository patch denied", some "Repository proofs failed"⟩ env args now d

/-! ## Running -/

structure RepoRunPayload where
  decision : String
  intake : RepositoryIntake
  assessment : AskAssessment
  patchPlan : PatchPlan
  patch : RepoPatchPayload
deriving DecidableEq, Repr

/-- What the run command prints: a reason to stop, or the whole payload. -/
inductive RepoRunReport where
  | stopped (decision : String) (blocker : Option String)
      (context : Option (AskAssessment × RepositoryIntake))
  | payload (p : RepoRunPayload)

/-- The arguments of the run command, and what its files hold. -/
structure RepoRunArgs where
  /-- The last component of the repository's path. -/
  repoName : String
  missingFile : Option String := none
  allowDirty : Bool := false
  approveDependencies : Bool := false
  scope : List String := []
  ask : Except RepoError Text
  patch : Except RepoError Text

/-- `_repo_run_payload`. -/
def repoRunPayload (sha256 : ByteArray → String) (intake : RepositoryIntake)
    (assessment : AskAssessment) (patchPlan : PatchPlan) (result : PatchApplyResult)
    (decision : PolicyDecision) (verification : Option VerifierReport)
    (rollback : Option RollbackResult) : RepoRunReport :=
  .payload {
    decision := if (verification.map VerifierReport.passed).getD false then "passed" else "blocked"
    intake := intake
    assessment := assessment
    patchPlan := patchPlan
    patch := repoPatchPayload sha256 result decision verification rollback }

/-- What `repo_run_command` has settled before it applies the patch. -/
structure RunStart where
  intake : RepositoryIntake
  assessment : AskAssessment
  firstCommand : DiscoveredProofCommand
  otherCommands : List DiscoveredProofCommand
  patch : Text

/-- `repo_run_command` up to the patch: everything only reads. -/
def startRun (env : RepoEnv Loc) (args : RepoRunArgs) (d : Disk Loc) :
    Except (RepoOutcome RepoRunReport) RunStart :=
  match args.missingFile with
  | some path => .error (.refused ("File " ++ path ++ " not found.") none)
  | none =>
    match env.assessRepository d with
    | .error e => .error (.raised (.python e))
    | .ok intake =>
      let git := inspectGitState intake args.allowDirty
      if git.autonomousPatchAllowed = false then
        .error (.denied none (.stopped "blocked" git.blocker none))
      else
        match args.ask with
        | .error e => .error (.raised e)
        | .ok ask =>
          match assessAsk env.lower ask with
          | .error e => .error (.raised (.python e))
          | .ok assessment =>
            if assessment.1.blocksAutonomousExecution then
              .error (.denied none (.stopped "blocked"
                (some "ask assessment requires human clarification or manual autonomy")
                (some (assessment.1, intake))))
            else
              match env.discoverProofCommands d with
              | .error e => .error (.raised (.python e))
              | .ok discovery =>
                match discovery.commands with
                | [] => .error (.denied none (.stopped "blocked" discovery.blocker
                    (some (assessment.1, intake))))
                | first :: others =>
                  match args.patch with
                  | .error e => .error (.raised e)
                  | .ok patch => .ok ⟨intake, assessment.1, first, others, patch⟩

/-- The scope that the changed files are checked against. -/
def runScope (args : RepoRunArgs) (changedFiles : List String) : List String :=
  if args.scope = [] then scopeFromPaths changedFiles else args.scope

/-- `repo_run_command` behind a patch that applied. -/
def finishRun (env : RepoEnv Loc) (args : RepoRunArgs) (start : RunStart) (now : DateTime)
    (result : PatchApplyResult) (d' : Disk Loc) : RepoOutcome RepoRunReport × Disk Loc :=
  match eipFromAssessment args.repoName start.assessment with
  | .error e => (.raised (.python e), d')
  | .ok built =>
    let eip := { built.1 with scopeBoundaries := runScope args result.changedFiles }
    match buildPatchPlan eip result.changedFiles (start.firstCommand :: start.otherCommands)
        start.assessment.meesBudget.minimumScore with
    | .error e => (.raised (.python e), d')
    | .ok patchPlan =>
      let decision :=
        (assessDependencyChanges result.changedFiles args.approveDependencies).decision
      if patchPlan.blocker.any (· ≠ "") = true ∨ decision.allow = false then
        let rollback := rollbackApplied env.paths result d'
        (.denied none (repoRunPayload env.sha256 start.intake start.assessment patchPlan result
          decision none rollback.1), rollback.2)
      else
        let proofCommand := " ".intercalate start.firstCommand.command
        match Model.build {
            eipVersion := eip.version
            eipDigest := computeEipDigest env.eipSha256 eip
            mappings := eip.proofObligations.map fun ob => ⟨ob.id, proofCommand⟩ } with
        | .error e => (.raised (.python e), d')
        | .ok (plan : Checked ProofPlan) =>
          let verification := VerifierRunner.run env.eipSha256 (env.execute d') eip plan.1 now
          if verification.passed = false then
            let rollback := rollbackApplied env.paths result d'
            (.denied none (repoRunPayload env.sha256 start.intake start.assessment patchPlan result
              decision (some verification) rollback.1), rollback.2)
          else
            (.passed (repoRunPayload env.sha256 start.intake start.assessment patchPlan result
              decision (some verification) none), d')

/-- `repo_run_command`. -/
def repoRunCommand (env : RepoEnv Loc) (args : RepoRunArgs) (now : DateTime) (d : Disk Loc) :
    RepoOutcome RepoRunReport × Disk Loc :=
  match startRun env args d with
  | .error outcome => (outcome, d)
  | .ok start =>
    match applyUnifiedDiff env.paths start.patch d with
    | (.error e, d') => (.raised e, d')
    | (.ok result, d') =>
      if result.applied = false then
        (.denied none (.stopped "failed" result.blocker none), d')
      else finishRun env args start now result d'

/-! ## Putting back -/

/-- Behind a patch that applied, the rollback gives the disk from before it. -/
theorem rollbackApplied_restores {paths : Paths Loc} {patch : Text} {d : Disk Loc}
    {planned : List (String × Text)} {snapshots : List FileSnapshot}
    (h : AppliedPatch paths patch d planned snapshots) :
    (rollbackApplied paths (appliedResult planned snapshots)
      (d.writeAll (writesOf paths planned))).2 = d := by
  show (PatchJournal.rollback paths ⟨snapshots⟩ _).2 = d
  rw [rollback_restores h.captured fun loc hno => applied_other hno]

/-- **The patch command and the handlers leave every file as it was, unless they succeed.** -/
theorem patchAndVerify_restores (texts : RepoPatchTexts) (env : RepoEnv Loc) (args : RepoPatchArgs)
    (now : DateTime) (d : Disk Loc)
    (h : (patchAndVerify texts env args now d).1.succeeded = false) :
    (patchAndVerify texts env args now d).2 = d := by
  unfold patchAndVerify at h ⊢
  split at h
  · rfl
  · simp only at h ⊢
    split
    · rfl
    · rename_i hgit
      rw [if_neg hgit] at h
      split at h
      · rfl
      · rfl
      · rfl
      · rename_i eip plan patch _ _ _
        rcases applyUnifiedDiff_cases env.paths patch d with
          ⟨e, hcall⟩ | ⟨blocker, hcall⟩ | ⟨planned, snapshots, hpatch, hcall⟩
        · rw [hcall]
        · rw [hcall]
          rfl
        · have hback := rollbackApplied_restores hpatch
          rw [hcall] at h ⊢
          have happlied : ¬ (appliedResult planned snapshots).applied = false := fun heq => by cases heq
          simp only [if_neg happlied] at h ⊢
          split
          · exact hback
          · rename_i hallow
            rw [if_neg hallow] at h
            split
            · exact hback
            · rename_i hpassed
              rw [if_neg hpassed] at h
              cases h

/-! ## The scope check -/

/-- The scope check of the patch plan accepts the files: all of them are safe relative paths, and
    for each a boundary is found that it is at or under before an unsafe boundary is met. -/
def InScope (scope files : List String) : Prop :=
  (normalizeRepoPaths files >>= outOfScope scope) = .ok []

/-- The patch plan is refused, by raising, exactly when the scope check does not accept. -/
theorem buildPatchPlan_ok_iff {eip : EIP} {files : List String}
    {commands : List DiscoveredProofCommand} {mees : Int} (hmees : 0 ≤ mees ∧ mees ≤ 100) :
    (∃ plan, buildPatchPlan eip files commands mees = .ok plan) ↔
      InScope eip.scopeBoundaries files := by
  unfold buildPatchPlan InScope
  cases hnormal : normalizeRepoPaths files with
  | error e =>
    constructor
    · rintro ⟨plan, hplan⟩
      cases hplan
    · intro hnone
      cases hnone
  | ok allowed =>
    show (∃ plan, (if 0 ≤ mees ∧ mees ≤ 100 then _ else _) = _) ↔
      outOfScope eip.scopeBoundaries allowed = _
    rw [if_pos hmees]
    unfold rejectOutOfScopeFiles
    simp only
    cases houtside : outOfScope eip.scopeBoundaries allowed with
    | error e =>
      constructor
      · rintro ⟨plan, hplan⟩
        cases hplan
      · intro hnone
        cases hnone
    | ok outside =>
      show (∃ plan, (if outside ≠ [] then _ else _) = _) ↔ _
      constructor
      · rintro ⟨plan, hplan⟩
        split at hplan
        · cases hplan
        · rename_i hnone
          rw [not_not.mp hnone]
      · intro hnone
        rw [if_neg (not_not.mpr (Except.ok.inj hnone))]
        split
        · exact ⟨_, rfl⟩
        · exact ⟨_, rfl⟩

/-- Behind a patch that applied and lies in the scope, the run command succeeds or puts back. -/
theorem finishRun_restores {env : RepoEnv Loc} {args : RepoRunArgs} {start : RunStart}
    {now : DateTime} {d : Disk Loc} {planned : List (String × Text)}
    {snapshots : List FileSnapshot}
    (hpatch : AppliedPatch env.paths start.patch d planned snapshots)
    (hask : ∃ ask a, assessAsk env.lower ask = .ok a ∧ a.1 = start.assessment)
    (hscope : InScope (runScope args (planned.map Prod.fst)) (planned.map Prod.fst))
    (h : (finishRun env args start now (appliedResult planned snapshots)
      (d.writeAll (writesOf env.paths planned))).1.succeeded = false) :
    (finishRun env args start now (appliedResult planned snapshots)
      (d.writeAll (writesOf env.paths planned))).2 = d := by
  have hback := rollbackApplied_restores hpatch
  obtain ⟨ask, a, hassess, hstart⟩ := hask
  obtain ⟨built, hbuilt, hnodup⟩ := eip_of_ask hassess args.repoName
  have hmees : 0 ≤ start.assessment.meesBudget.minimumScore ∧
      start.assessment.meesBudget.minimumScore ≤ 100 := by
    rw [← hstart]
    exact AskAssessment.minimumScore_bounds a
  have heip : eipFromAssessment args.repoName start.assessment = .ok built := by
    rw [← hstart]
    exact hbuilt
  obtain ⟨patchPlan, hplan⟩ := (@buildPatchPlan_ok_iff
    { built.1 with scopeBoundaries := runScope args (planned.map Prod.fst) } _
    (start.firstCommand :: start.otherCommands) _ hmees).mpr hscope
  have hvalid : ∀ command : String, Model.Valid ({
      eipVersion := built.1.version
      eipDigest := computeEipDigest env.eipSha256
        { built.1 with scopeBoundaries := runScope args (planned.map Prod.fst) }
      mappings := built.1.proofObligations.map fun ob => ⟨ob.id, command⟩ } : ProofPlan) := by
    intro command
    refine ⟨rfl, failedFields_eq_nil.mpr fun c hc => ?_⟩
    simp only [Model.checks, List.mem_singleton] at hc
    rw [hc]
    refine decide_eq_true ?_
    rw [List.map_map]
    exact hnodup
  unfold finishRun at h ⊢
  have hfiles : (appliedResult planned snapshots).changedFiles = planned.map Prod.fst := rfl
  simp only [heip, hfiles, hplan] at h ⊢
  split
  · exact hback
  · rename_i hgo
    rw [if_neg hgo, Model.build_of_valid (hvalid _)] at h
    rw [Model.build_of_valid (hvalid _)]
    simp only at h ⊢
    split
    · exact hback
    · rename_i hpassed
      rw [if_neg hpassed] at h
      cases h

/-- Behind a patch that applied but does not lie in the scope, the run command raises. -/
theorem finishRun_raises {env : RepoEnv Loc} {args : RepoRunArgs} {start : RunStart}
    {now : DateTime} {planned : List (String × Text)} {snapshots : List FileSnapshot}
    {d' : Disk Loc} (hask : ∃ ask a, assessAsk env.lower ask = .ok a ∧ a.1 = start.assessment)
    (hscope : ¬ InScope (runScope args (planned.map Prod.fst)) (planned.map Prod.fst)) :
    ∃ e, finishRun env args start now (appliedResult planned snapshots) d' = (.raised e, d') := by
  obtain ⟨ask, a, hassess, hstart⟩ := hask
  obtain ⟨built, hbuilt, -⟩ := eip_of_ask hassess args.repoName
  have hmees := AskAssessment.minimumScore_bounds a
  rw [hstart] at hmees hbuilt
  have hfiles : (appliedResult planned snapshots).changedFiles = planned.map Prod.fst := rfl
  have hrefused := mt (@buildPatchPlan_ok_iff
    { built.1 with scopeBoundaries := runScope args (planned.map Prod.fst) } _
    (start.firstCommand :: start.otherCommands) _ hmees).mp hscope
  unfold finishRun
  simp only [hbuilt, hfiles]
  split
  · exact ⟨_, rfl⟩
  · rename_i plan hplan
    exact absurd ⟨plan, hplan⟩ hrefused

omit [DecidableEq Loc] in
/-- The assessment that a run goes by is one of an ask. -/
theorem startRun_assessed {env : RepoEnv Loc} {args : RepoRunArgs} {d : Disk Loc} {start : RunStart}
    (h : startRun env args d = .ok start) :
    ∃ ask a, assessAsk env.lower ask = .ok a ∧ a.1 = start.assessment := by
  unfold startRun at h
  split at h
  · cases h
  · split at h
    · cases h
    · simp only at h
      split at h
      · cases h
      · split at h
        · cases h
        · rename_i ask _
          split at h
          · cases h
          · rename_i a ha
            split at h
            · cases h
            · split at h
              · cases h
              · split at h
                · cases h
                · split at h
                  · cases h
                  · cases h
                    exact ⟨ask, a, ha, rfl⟩

/-- A run gets as far as its patch only with a patch that lies in the scope, or that leaves every
    file as it was. -/
def RunFitsScope (env : RepoEnv Loc) (args : RepoRunArgs) (d : Disk Loc) : Prop :=
  ∀ start, startRun env args d = .ok start →
    let files := (parseUnifiedDiff start.patch).map FilePatch.path
    InScope (runScope args files) files ∨ (applyUnifiedDiff env.paths start.patch d).2 = d

/-- The run command is all or nothing exactly when a patch that it applies lies in the scope, or
    changes nothing: out of scope it raises behind the patch, and nothing puts the files back. -/
theorem repoRun_restores_iff (env : RepoEnv Loc) (args : RepoRunArgs) (now : DateTime)
    (d : Disk Loc) :
    ((repoRunCommand env args now d).1.succeeded = false →
      (repoRunCommand env args now d).2 = d) ↔ RunFitsScope env args d := by
  unfold RunFitsScope repoRunCommand
  cases hstart : startRun env args d with
  | error outcome => exact ⟨fun _ start h => (by cases h), fun _ _ => rfl⟩
  | ok start =>
    have hask := startRun_assessed hstart
    simp only [Except.ok.injEq, forall_eq']
    rcases applyUnifiedDiff_cases env.paths start.patch d with
      ⟨e, hcall⟩ | ⟨blocker, hcall⟩ | ⟨planned, snapshots, hpatch, hcall⟩
    · rw [hcall]
      exact ⟨fun _ => Or.inr rfl, fun _ _ => rfl⟩
    · rw [hcall]
      exact ⟨fun _ => Or.inr rfl, fun _ _ => rfl⟩
    · rw [hcall, ← planned_paths hpatch.planned]
      have happlied : ¬ (appliedResult planned snapshots).applied = false := fun heq => by cases heq
      simp only [if_neg happlied]
      by_cases hscope : InScope (runScope args (planned.map Prod.fst)) (planned.map Prod.fst)
      · exact ⟨fun _ => Or.inl hscope, fun _ => finishRun_restores hpatch hask hscope⟩
      · obtain ⟨e, hraised⟩ := @finishRun_raises Loc _ env args start now planned
          snapshots (d.writeAll (writesOf env.paths planned)) hask hscope
        rw [hraised]
        constructor
        · exact fun h => Or.inr (h rfl)
        · rintro (h | h) _
          · exact absurd h hscope
          · exact h

/-! ## Every call -/

/-- The calls of repository automation. -/
inductive AutomationCall where
  | patchCommand (missingFile : Option String) (args : RepoPatchArgs)
  | patchHandler (args : RepoPatchArgs)
  | runCommand (args : RepoRunArgs)

/-- Whether a call succeeds, and the disk after it. -/
def AutomationCall.run (env : RepoEnv Loc) (now : DateTime) (d : Disk Loc) :
    AutomationCall → Bool × Disk Loc
  | .patchCommand missingFile args =>
    let out := repoPatchCommand env missingFile args now d
    (out.1.succeeded, out.2)
  | .patchHandler args =>
    let out := repoPatchLike env args now d
    (out.1.succeeded, out.2)
  | .runCommand args =>
    let out := repoRunCommand env args now d
    (out.1.succeeded, out.2)

theorem AutomationCall.run_runCommand (env : RepoEnv Loc) (args : RepoRunArgs) (now : DateTime)
    (d : Disk Loc) : AutomationCall.run env now d (.runCommand args) =
      ((repoRunCommand env args now d).1.succeeded, (repoRunCommand env args now d).2) := rfl

/-- Only a run has a scope to fit. -/
def AutomationCall.FitsScope (env : RepoEnv Loc) (d : Disk Loc) : AutomationCall → Prop
  | .runCommand args => RunFitsScope env args d
  | _ => True

/-- **A call of repository automation that does not succeed leaves every file as it was, exactly
    when it is no run whose patch applies out of scope.** -/
theorem automation_restores_iff (env : RepoEnv Loc) (call : AutomationCall) (now : DateTime)
    (d : Disk Loc) :
    ((call.run env now d).1 = false → (call.run env now d).2 = d) ↔ call.FitsScope env d := by
  cases call with
  | patchCommand missingFile args =>
    refine ⟨fun _ => trivial, fun _ => ?_⟩
    show (repoPatchCommand env missingFile args now d).1.succeeded = false →
      (repoPatchCommand env missingFile args now d).2 = d
    unfold repoPatchCommand
    split
    · exact fun _ => rfl
    · exact patchAndVerify_restores _ env args now d
  | patchHandler args => exact ⟨fun _ => trivial, fun _ => patchAndVerify_restores _ env args now d⟩
  | runCommand args => exact repoRun_restores_iff env args now d

end Commands

/-! ## A patch outside the scope -/

/-- A clean repository with `pytest`. -/
def cleanEnv : RepoEnv String where
  paths := plainPaths
  sha256 _ := ""
  eipSha256 _ := ""
  lower := id
  assessRepository _ := .ok { root := "/repo", dirtyState := .clean }
  discoverProofCommands _ := .ok {
    root := "/repo"
    commands := [⟨"python", ["pytest"], "Python test directory or pytest config detected"⟩] }
  execute _ _ _ := .error "No such file or directory: 'pytest'"

/-- An ask that needs no clarification. -/
def clearAsk : Text := "in src, the greeting must change".toList

/-- `vad repo run --scope src`, with a patch for `notes.txt`. -/
def outsideRun : RepoRunArgs where
  repoName := "repo"
  scope := ["src"]
  ask := .ok clearAsk
  patch := .ok (notesSection firstLineHunk)

theorem clearAsk_valid : Model.Valid (assessmentData id clearAsk) :=
  ⟨rfl, by decide +kernel⟩

/-- What the run has settled before it applies the patch. -/
def outsideStart : RunStart where
  intake := { root := "/repo", dirtyState := .clean }
  assessment := assessmentData id clearAsk
  firstCommand := ⟨"python", ["pytest"], "Python test directory or pytest config detected"⟩
  otherCommands := []
  patch := notesSection firstLineHunk

theorem outsideRun_starts (d : Disk String) : startRun cleanEnv outsideRun d = .ok outsideStart := by
  have hassess : assessAsk cleanEnv.lower clearAsk = .ok ⟨_, clearAsk_valid⟩ :=
    Model.build_of_valid clearAsk_valid
  have hgo : ¬ (assessmentData id clearAsk).blocksAutonomousExecution = true := by decide +kernel
  unfold startRun
  simp only [outsideRun, cleanEnv, inspectGitState] at hassess ⊢
  simp only [hassess, if_neg hgo]
  rfl

theorem notes_outOfScope : ¬ InScope ["src"] ["notes.txt"] := by
  unfold InScope
  decide

/-- The run refuses the file outside its scope, and leaves it changed. -/
theorem outOfScope_patch_stays : ¬ ∀ (env : RepoEnv String) (call : AutomationCall) (now : DateTime)
    (d : Disk String), (call.run env now d).1 = false → (call.run env now d).2 = d := by
  intro hall
  have hrun := hall cleanEnv (.runCommand outsideRun) ⟨0, none⟩ (oneFile "notes.txt" twoLines)
  simp only [AutomationCall.run_runCommand] at hrun
  have hfits := (repoRun_restores_iff cleanEnv outsideRun _ _).mp hrun outsideStart
    (outsideRun_starts _)
  obtain ⟨snapshots, hcall⟩ := applied_firstLine
  rcases hfits with hscope | hsame
  · have hfiles : (parseUnifiedDiff outsideStart.patch).map FilePatch.path = ["notes.txt"] := by
      show (parseUnifiedDiff (notesSection firstLineHunk)).map FilePatch.path = _
      rw [parse_firstLine]
      rfl
    rw [hfiles] at hscope
    exact notes_outOfScope hscope
  · -- the file holds the patched text, not the one before
    have hafter : (applyUnifiedDiff plainPaths (notesSection firstLineHunk)
        (oneFile "notes.txt" twoLines)).2 "notes.txt" =
          some (.file (encode "ONE\ntwo\n".toList)) := by
      rw [hcall]
      show (oneFile "notes.txt" twoLines).write "notes.txt" (encode "ONE\ntwo\n".toList) "notes.txt" = _
      rw [Files.write_same]
    have hbefore : oneFile "notes.txt" twoLines "notes.txt" = some (.file (encode twoLines)) :=
      if_pos rfl
    have hsame' : (applyUnifiedDiff plainPaths (notesSection firstLineHunk)
        (oneFile "notes.txt" twoLines)).2 = oneFile "notes.txt" twoLines := hsame
    rw [hsame', hbefore] at hafter
    have htexts : twoLines = "ONE\ntwo\n".toList :=
      Files.encode_injective (Entry.file.inj (Option.some.inj hafter))
    exact absurd htexts (by decide)

end Vad
