/-
  The writers of plugin configurations (`vad/control_plane/plugins.py`): apply, uninstall and
  rollback.

  Each one is a program over the tree of files.  It checks its approval and its plan, then takes the
  operations of the plan one after another — of each it checks the paths and the recorded hash,
  and changes files — and builds its result models at the end, when the files are changed.
-/
import Vad.ControlPlane.Plugins
import Vad.ControlPlane.Clients
import Mathlib.Algebra.GroupWithZero.Nat

namespace Vad

open Atomic
open Files (Place Disk FileTree FileError)

/-! ## Calls -/

/-- What a writer does: calls on the files, ending with a result or an exception. -/
abbrev PluginCall (α : Type) : Type := Program FileTree PluginError α

/-- A step that uses no file. -/
def offDisk {α : Type} (x : Except PluginError α) : PluginCall α := .done x

/-- A call that reads. -/
def askFiles {α : Type} (f : FileTree → Except FileError α) : PluginCall α :=
  Program.atomic fun t => ((f t).mapError .file, t)

/-- A call that changes the tree, or fails and leaves it. -/
def changeFiles (f : FileTree → Except FileError FileTree) : PluginCall Unit :=
  Program.atomic fun t =>
    match f t with
    | .ok t' => (.ok (), t')
    | .error e => (.error (.file e), t)

/-- `path.exists()`. -/
def pathExists (p : Place) : PluginCall Bool := askFiles fun t => .ok (t.disk.present p)

/-! ## Guards -/

structure PluginRoots where
  workspace : Place
  user : Place
deriving DecidableEq

/-- `roots.get(scope)`. -/
def PluginRoots.get (roots : PluginRoots) : PluginConfigScope → Option Place
  | .workspace => some roots.workspace
  | .user => some roots.user
  | .project => none

/-- `_resolved_roots`. -/
def resolvedRoots (env : PluginEnv) (workspaceRoot userConfigRoot : String) :
    Except PluginError PluginRoots := do
  let workspace ← env.resolve workspaceRoot
  let user ← env.resolve userConfigRoot
  pure ⟨workspace, user⟩

/-- `path.resolve()`, with its `ValueError` caught. -/
def resolveOrNone (env : PluginEnv) (p : Place) : Except PluginError (Option Place) :=
  match env.resolve p.text with
  | .ok q => .ok (some q)
  | .error e => if e.isValueError then .ok none else .error e

/-- `_path_is_under`. -/
def pathIsUnder (env : PluginEnv) (path root : Place) : Except PluginError Bool :=
  match resolveOrNone env path with
  | .error e => .error e
  | .ok none => .ok false
  | .ok (some p) =>
    match resolveOrNone env root with
    | .error e => .error e
    | .ok none => .ok false
    | .ok (some r) => .ok (r.under p)

/-- A resolved path, as long as it lies under the root. -/
def guardedPath (env : PluginEnv) (root : Place) (text escapes : String) :
    Except PluginError Place :=
  match env.resolve text with
  | .error e => .error e
  | .ok p =>
    match pathIsUnder env p root with
    | .error e => .error e
    | .ok true => .ok p
    | .ok false => raiseValue escapes

/-- `_guarded_operation_path`. -/
def guardedOperationPath (env : PluginEnv) (roots : PluginRoots) (o : PluginInstallOperation) :
    Except PluginError Place :=
  match roots.get o.scope with
  | none => raiseValue "plugin writers are limited to user and workspace config roots"
  | some root =>
    guardedPath env root o.path ("plugin operation path escapes approved " ++ o.scope.value ++ " root")

/-- `_guarded_backup_path`. -/
def guardedBackupPath (env : PluginEnv) (roots : PluginRoots) (r : PluginRollbackOperation)
    (o : PluginInstallOperation) : Except PluginError Place :=
  if r.action ≠ "restore_or_remove" then
    raiseValue ("unsupported plugin rollback action " ++ r.action)
  else if r.path ≠ o.path then
    raiseValue "plugin rollback path must match install operation path"
  else
    match r.backupPath with
    | none => raiseValue "plugin rollback evidence requires a backup path"
    | some text =>
      match roots.get o.scope with
      | none => .error (.python (.keyError o.scope.value))
      | some root =>
        guardedPath env root text
          ("plugin rollback backup path escapes approved " ++ o.scope.value ++ " root")

/-- `_inventory_path`. -/
def inventoryPath (env : PluginEnv) (roots : PluginRoots) (path : Place)
    (scope : PluginConfigScope) : Except PluginError String :=
  match env.resolve path.text with
  | .error e => .error e
  | .ok p =>
    match roots.get scope with
    | none => .error (.python (.keyError scope.value))
    | some root =>
      if root.under p then .ok (scope.value ++ "/" ++ root.relativeTo p)
      else raiseValue (p.text ++ " is not in the subpath of " ++ root.text)

/-- `_validate_approval_ref`. -/
def validateApprovalRef (value : String) : Except PluginError Unit :=
  if containsAny controls value then
    raiseValue "plugin operation approval must not contain control separators"
  else if stripped value = "" then
    raiseValue "plugin operation requires explicit approval evidence"
  else .ok ()

/-- The loop of `_validate_apply_plan`. -/
def validateOperations (env : PluginEnv) (roots : PluginRoots) :
    List (PluginInstallOperation × PluginRollbackOperation) → Except PluginError Unit
  | [] => .ok ()
  | x :: rest => do
    let _ ← guardedOperationPath env roots x.1
    let _ ← guardedBackupPath env roots x.2 x.1
    validateOperations env roots rest

/-- The operations of a plan, each with its rollback. -/
def PluginInstallerDryRun.steps (plan : PluginInstallerDryRun) :
    List (PluginInstallOperation × PluginRollbackOperation) := plan.operations.zip plan.rollback

/-- `_validate_apply_plan`; there is one install action only, so none is unsupported. -/
def validateApplyPlan (env : PluginEnv) (plan : PluginInstallerDryRun) (roots : PluginRoots) :
    Except PluginError Unit :=
  if plan.dryRun = false ∨ plan.writesPerformed ≠ 0 then
    raiseValue "plugin apply requires a no-write dry-run plan"
  else if plan.operations.length ≠ plan.rollback.length then
    raiseValue "plugin apply requires rollback evidence for every operation"
  else validateOperations env roots plan.steps

/-- `inventory.digest and inventory.digest != digest`. -/
def digestDiffers (recorded : Option String) (digest : String) : Bool :=
  recorded.any fun d => d ≠ "" && d ≠ digest

/-- `_validate_inventory_matches_plan`. -/
def validateInventoryMatchesPlan (plan : PluginInstallerDryRun)
    (inventory : PluginInventoryRecord) : Except PluginError Unit :=
  if inventory.pluginId ≠ plan.pluginId then
    raiseValue "plugin inventory does not match dry-run plugin id"
  else if inventory.targetClient ≠ plan.targetClient then
    raiseValue "plugin inventory does not match dry-run target client"
  else if inventory.version ≠ plan.version then
    raiseValue "plugin inventory does not match dry-run version"
  else if digestDiffers inventory.artifactDigest plan.artifact.artifactDigest then
    raiseValue "plugin inventory does not match dry-run artifact digest"
  else if digestDiffers inventory.manifestDigest plan.artifact.manifestDigest then
    raiseValue "plugin inventory does not match dry-run manifest digest"
  else .ok ()

/-! ## Apply -/

/-- What one turn of apply adds to `applied_hashes` and `backup_paths`. -/
structure AppliedConfig where
  key : String
  digest : String
  backup : Option String
deriving DecidableEq

/-- The backup of one target, if there is something to back up. -/
def saveBackup (env : PluginEnv) (roots : PluginRoots) (scope : PluginConfigScope)
    (target backup : Place) : PluginCall (Option String) := do
  let present ← pathExists target
  if present then do
    changeFiles (·.mkdirs backup.parent)
    changeFiles (·.copy2 target backup)
    let key ← offDisk (inventoryPath env roots backup scope)
    pure (some key)
  else pure none

/-- One turn of the loop of `apply_plugin_installer_plan`. -/
def applyOperation (env : PluginEnv) (roots : PluginRoots)
    (x : PluginInstallOperation × PluginRollbackOperation) : PluginCall AppliedConfig := do
  let target ← offDisk (guardedOperationPath env roots x.1)
  let backup ← offDisk (guardedBackupPath env roots x.2 x.1)
  changeFiles (·.mkdirs target.parent)
  let saved ← saveBackup env roots x.1.scope target backup
  changeFiles (·.writeBytes target (canonicalJsonBytes env x.1.content))
  let key ← offDisk (inventoryPath env roots target x.1.scope)
  pure ⟨key, env.sha256 (canonicalJsonBytes env x.1.content), saved⟩

/-- What apply returns behind its loop. -/
def applyResult (plan : PluginInstallerDryRun) (approvalRef : String)
    (applied : List AppliedConfig) : Except PluginError (Checked PluginOperationResult) := do
  let hashes := applied.foldl (fun (d : Dict String) a => d.set a.key a.digest) []
  let backups := applied.filterMap AppliedConfig.backup
  let inventory ← pluginBuild {
    pluginId := plan.pluginId
    targetClient := plan.targetClient
    version := plan.version
    reviewState := .approved
    appliedConfigHashes := hashes
    backupPaths := backups
    uninstallStatus := "available"
    rollbackStatus := "ready"
    dashboardStatus := .installed
    publicationReadiness := "local_ready"
    summary := plan.pluginId ++ " applied to local " ++ plan.targetClient.value ++ " configuration."
    actionRequired := none
    artifactDigest := some plan.artifact.artifactDigest
    manifestDigest := some plan.artifact.manifestDigest : PluginInventoryRecord }
  pluginBuild {
    pluginId := plan.pluginId
    targetClient := plan.targetClient
    version := plan.version
    operation := "apply"
    status := "applied"
    writesPerformed := applied.length
    appliedConfigHashes := hashes
    backupPaths := backups
    inventory := inventory.1
    evidence := "Applied reviewed plugin dry-run with approval " ++ approvalRef ++ "." :
      PluginOperationResult }

/-- `apply_plugin_installer_plan`. -/
def applyPluginInstallerPlan (env : PluginEnv) (plan : PluginInstallerDryRun)
    (workspaceRoot userConfigRoot approvalRef : String) :
    PluginCall (Checked PluginOperationResult) := do
  offDisk (validateApprovalRef approvalRef)
  let roots ← offDisk (resolvedRoots env workspaceRoot userConfigRoot)
  offDisk (validateApplyPlan env plan roots)
  let applied ← Program.forEach plan.steps (applyOperation env roots)
  offDisk (applyResult plan approvalRef applied)

/-! ## Uninstall and rollback -/

/-- An operation of a plan that is being undone: its checked path, and what is recorded of it. -/
structure UndoStep where
  target : Place
  key : String
  expected : String
deriving DecidableEq

/-- `inventory.applied_config_hashes.get(key)`, and the exception when there is none. -/
def expectedDigest (inventory : PluginInventoryRecord) (key : String) : Except PluginError String :=
  match inventory.appliedConfigHashes.get key with
  | some digest => .ok digest
  | none => raiseValue ("inventory is missing applied hash for " ++ key)

/-- The checks of one turn of uninstall that read no file. -/
def uninstallStep (env : PluginEnv) (roots : PluginRoots) (inventory : PluginInventoryRecord)
    (o : PluginInstallOperation) : Except PluginError UndoStep := do
  let target ← guardedOperationPath env roots o
  let key ← inventoryPath env roots target o.scope
  let expected ← expectedDigest inventory key
  pure ⟨target, key, expected⟩

/-- The checks of one turn of rollback that read no file; the answer has the backup too. -/
def rollbackStep (env : PluginEnv) (roots : PluginRoots) (inventory : PluginInventoryRecord)
    (x : PluginInstallOperation × PluginRollbackOperation) :
    Except PluginError (UndoStep × Place) := do
  let target ← guardedOperationPath env roots x.1
  let backup ← guardedBackupPath env roots x.2 x.1
  let key ← inventoryPath env roots target x.1.scope
  let expected ← expectedDigest inventory key
  pure (⟨target, key, expected⟩, backup)

/-- The check against the recorded hash; the answer is whether the target exists. -/
def checkUndrifted (env : PluginEnv) (step : UndoStep) : PluginCall Bool := do
  let present ← pathExists step.target
  if present then do
    let bytes ← askFiles fun t => t.disk.readBytes step.target
    offDisk (if env.sha256 bytes = step.expected then .ok true
      else raiseValue ("installed plugin config drifted at " ++ step.key))
  else pure false

/-- What uninstall does to the files in one turn; the answer is the number of writes. -/
def removeConfig (env : PluginEnv) (step : UndoStep) : PluginCall Nat := do
  let present ← checkUndrifted env step
  if present then do
    changeFiles (·.unlinkFile step.target)
    pure 1
  else pure 0

/-- `elif target.exists(): target.unlink()`. -/
def unlinkIfPresent (target : Place) : PluginCall Unit := do
  let present ← pathExists target
  if present then changeFiles (·.unlinkFile target) else pure ()

/-- `restore_or_remove`: the target becomes what its backup is. -/
def restoreOrRemove (target backup : Place) : PluginCall Nat := do
  let kept ← pathExists backup
  if kept then do
    changeFiles (·.mkdirs target.parent)
    changeFiles (·.copy2 backup target)
    pure 1
  else do
    unlinkIfPresent target
    pure 1

/-- What rollback does to the files in one turn. -/
def restoreConfig (env : PluginEnv) (step : UndoStep × Place) : PluginCall Nat := do
  let _ ← checkUndrifted env step.1
  restoreOrRemove step.1.target step.2

/-- What uninstall returns behind its loop; the updated record is not validated. -/
def uninstallResult (plan : PluginInstallerDryRun) (inventory : PluginInventoryRecord)
    (approvalRef : String) (writes : List Nat) :
    Except PluginError (Checked PluginOperationResult) :=
  pluginBuild {
    pluginId := plan.pluginId
    targetClient := plan.targetClient
    version := plan.version
    operation := "uninstall"
    status := "uninstalled"
    writesPerformed := writes.sum
    appliedConfigHashes := []
    backupPaths := inventory.backupPaths
    inventory := { inventory with
      appliedConfigHashes := []
      uninstallStatus := "uninstalled"
      dashboardStatus := .available
      publicationReadiness := "dry_run_ready"
      summary := plan.pluginId ++ " uninstalled from local " ++ plan.targetClient.value ++
        " configuration."
      actionRequired := some "Review dry-run output before applying again." }
    evidence := "Removed applied plugin config with approval " ++ approvalRef ++ "." :
      PluginOperationResult }

/-- What rollback returns behind its loop; the updated record is not validated. -/
def rollbackResult (plan : PluginInstallerDryRun) (inventory : PluginInventoryRecord)
    (approvalRef : String) (writes : List Nat) :
    Except PluginError (Checked PluginOperationResult) :=
  pluginBuild {
    pluginId := plan.pluginId
    targetClient := plan.targetClient
    version := plan.version
    operation := "rollback"
    status := "rolled_back"
    writesPerformed := writes.sum
    appliedConfigHashes := []
    backupPaths := inventory.backupPaths
    inventory := { inventory with
      appliedConfigHashes := []
      rollbackStatus := "rolled_back"
      dashboardStatus := .available
      publicationReadiness := "dry_run_ready"
      summary := plan.pluginId ++ " rolled back for local " ++ plan.targetClient.value ++
        " configuration."
      actionRequired := some "Review dry-run output before applying again." }
    evidence := "Rolled back plugin config with approval " ++ approvalRef ++ "." :
      PluginOperationResult }

/-- `uninstall_plugin_installation`. -/
def uninstallPluginInstallation (env : PluginEnv) (plan : PluginInstallerDryRun)
    (inventory : PluginInventoryRecord) (workspaceRoot userConfigRoot approvalRef : String) :
    PluginCall (Checked PluginOperationResult) := do
  offDisk (validateApprovalRef approvalRef)
  let roots ← offDisk (resolvedRoots env workspaceRoot userConfigRoot)
  offDisk (validateInventoryMatchesPlan plan inventory)
  let writes ← Program.forEach plan.operations fun o => do
    let step ← offDisk (uninstallStep env roots inventory o)
    removeConfig env step
  offDisk (uninstallResult plan inventory approvalRef writes)

/-- `rollback_plugin_installation`. -/
def rollbackPluginInstallation (env : PluginEnv) (plan : PluginInstallerDryRun)
    (inventory : PluginInventoryRecord) (workspaceRoot userConfigRoot approvalRef : String) :
    PluginCall (Checked PluginOperationResult) := do
  offDisk (validateApprovalRef approvalRef)
  let roots ← offDisk (resolvedRoots env workspaceRoot userConfigRoot)
  offDisk (validateInventoryMatchesPlan plan inventory)
  let writes ← Program.forEach plan.steps fun x => do
    let step ← offDisk (rollbackStep env roots inventory x)
    restoreConfig env step
  offDisk (rollbackResult plan inventory approvalRef writes)

end Vad
