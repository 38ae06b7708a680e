/-
  Plugin manifests, installer plans and the inventory (`vad/control_plane/plugins.py`).

  A plan is made from a manifest: one write of the same configuration for each of its paths, and
  beside each write how to undo it.  The inventory record and the result of a writer are models
  whose texts are bounded and whose recorded paths must be relative; their constructors run when
  the files have been written already.

  The field checks of the manifest itself are left out: what follows holds of all manifest data.
-/
import Mathlib.Data.List.Sort
import Mathlib.Order.RelIso.Basic
import Vad.ControlPlane.Model
import Vad.Lib.Dict
import Vad.Lib.FileTree
import Vad.Lib.Program

namespace Vad

open Files (Place Disk FileError)

/-! ## Paths in texts -/

/-- `".." in value.replace("\\", "/").split("/")`. -/
def climbs (value : String) : Bool :=
  ((value.toList.map fun c => if c = '\\' then '/' else c).splitOn '/').contains ['.', '.']

/-- `value.startswith(("/", "\\")) or ".." in …`. -/
def leavesRoot (value : String) : Bool :=
  (['/'].isPrefixOf value.toList || ['\\'].isPrefixOf value.toList) || climbs value

/-- `_validate_relative_path`, as a check. -/
def isRelativePath (value : String) : Bool := !containsAny controls value && !leavesRoot value

/-! ## The manifest -/

inductive PluginTargetClient where
  | codex | claudeCode | vsCode | antigravity | windsurf | cursor | opencode | genericMcp
deriving DecidableEq, Repr

def PluginTargetClient.value : PluginTargetClient → String
  | codex => "codex"
  | claudeCode => "claude_code"
  | vsCode => "vscode"
  | antigravity => "antigravity"
  | windsurf => "windsurf"
  | cursor => "cursor"
  | opencode => "opencode"
  | genericMcp => "generic_mcp"

inductive PluginConfigScope where
  | user | workspace | project
deriving DecidableEq, Repr

def PluginConfigScope.value : PluginConfigScope → String
  | user => "user"
  | workspace => "workspace"
  | project => "project"

structure PluginCommand where
  executable : String
  args : List String := []
  env : Dict String := []

structure PluginConfigPath where
  scope : PluginConfigScope
  path : String
  required : Bool := true

structure PluginPermission where
  name : String
  reason : String
  highRisk : Bool := false

structure PluginToolGrant where
  name : String
  role : String
  highRisk : Bool := false
  approvedByDefault : Bool := false

structure PluginPrompt where
  promptId : String
  role : String
  path : String

structure VADPluginManifest where
  pluginId : String
  targetClient : PluginTargetClient
  version : String
  command : PluginCommand
  configPaths : List PluginConfigPath
  permissions : List PluginPermission := []
  tools : List PluginToolGrant := []
  prompts : List PluginPrompt := []
  checksums : Dict String

/-! ## What `model_dump(mode="json")` gives -/

def Json.texts (values : List String) : Json := .array (values.map .text)

def Json.ofDict (entries : Dict String) : Json := .object (entries.map fun e => (e.1, .text e.2))

def PluginCommand.json (c : PluginCommand) : Json :=
  .object [("executable", .text c.executable), ("args", .texts c.args), ("env", .ofDict c.env)]

def PluginConfigPath.json (c : PluginConfigPath) : Json :=
  .object [("scope", .text c.scope.value), ("path", .text c.path), ("required", .bool c.required)]

def PluginPermission.json (p : PluginPermission) : Json :=
  .object [("name", .text p.name), ("reason", .text p.reason), ("high_risk", .bool p.highRisk)]

def PluginToolGrant.json (t : PluginToolGrant) : Json :=
  .object [("name", .text t.name), ("role", .text t.role), ("high_risk", .bool t.highRisk),
    ("approved_by_default", .bool t.approvedByDefault)]

def PluginPrompt.json (p : PluginPrompt) : Json :=
  .object [("prompt_id", .text p.promptId), ("role", .text p.role), ("path", .text p.path)]

def VADPluginManifest.json (m : VADPluginManifest) : Json :=
  .object [("plugin_id", .text m.pluginId), ("target_client", .text m.targetClient.value),
    ("version", .text m.version), ("command", m.command.json),
    ("config_paths", .array (m.configPaths.map PluginConfigPath.json)),
    ("permissions", .array (m.permissions.map PluginPermission.json)),
    ("tools", .array (m.tools.map PluginToolGrant.json)),
    ("prompts", .array (m.prompts.map PluginPrompt.json)), ("checksums", .ofDict m.checksums)]

/-! ## What the writers raise, and what they ask of the outside -/

inductive PluginError where
  | file (e : FileError)
  | python (e : PyError)
deriving DecidableEq, Repr

/-- A `ValueError`; pydantic's `ValidationError` is one. -/
def PluginError.isValueError : PluginError → Bool
  | python (.valueError _) => true
  | python (.validationError _ _) => true
  | _ => false

/-- The operating system and the standard library: `Path(text).resolve()`, `json.dumps`, SHA-256
    and the digest of a JSON payload.  A resolved path resolves to itself. -/
structure PluginEnv where
  resolve : String → Except PluginError Place
  dumps : Json → String
  sha256 : ByteArray → String
  payloadDigest : Json → String
  resolve_text : ∀ {text : String} {p : Place}, resolve text = .ok p → resolve p.text = .ok p

/-! ## Artifacts -/

/-- The fields of `PluginArtifactHash`, each of which the manifest has checked already. -/
structure PluginArtifactHash where
  pluginId : String
  version : String
  manifestDigest : String
  artifactDigest : String
  fileDigests : Dict String

def PluginArtifactHash.json (h : PluginArtifactHash) : Json :=
  .object [("plugin_id", .text h.pluginId), ("version", .text h.version),
    ("manifest_digest", .text h.manifestDigest), ("artifact_digest", .text h.artifactDigest),
    ("file_digests", .ofDict h.fileDigests)]

inductive SignatureAlgorithm where
  | ed25519 | hmacSha256
deriving DecidableEq, Repr

/-- The fields of `SignatureEnvelope` that a signer looks at. -/
structure SignatureEnvelope where
  payloadDigest : String
  keyId : String
  algorithm : SignatureAlgorithm
  signature : String
deriving DecidableEq

/-- `LocalDevelopmentSigner`: its key id, and the signature it makes of a digest. -/
structure LocalDevelopmentSigner where
  keyId : String
  sign : String → String

/-- `verify_payload`. -/
def LocalDevelopmentSigner.verifyPayload (env : PluginEnv) (s : LocalDevelopmentSigner)
    (payload : Json) (envelope : SignatureEnvelope) : Bool :=
  if envelope.keyId ≠ s.keyId ∨ envelope.algorithm ≠ .hmacSha256 then false
  else decide (env.payloadDigest payload = envelope.payloadDigest) &&
    decide (s.sign (env.payloadDigest payload) = envelope.signature)

structure PluginArtifactVerification where
  pluginId : String
  version : String
  artifactDigest : String
  manifestDigest : String
  fileCount : Nat
  signaturePresent : Bool := false
  signatureVerified : Bool := false
  signerKeyId : Option String := none
  evidence : String
deriving DecidableEq, Repr

/-- `compute_plugin_artifact_hash`. -/
def computePluginArtifactHash (env : PluginEnv) (m : VADPluginManifest) : PluginArtifactHash :=
  let manifestDigest := env.payloadDigest m.json
  let fileDigests := sortedItems m.checksums
  { pluginId := m.pluginId
    version := m.version
    manifestDigest
    artifactDigest := env.payloadDigest (.object [("plugin_id", .text m.pluginId),
      ("version", .text m.version), ("manifest_digest", .text manifestDigest),
      ("file_digests", .ofDict fileDigests)])
    fileDigests }

/-- What `verify_plugin_artifact` returns once it knows whether the signature is verified. -/
def artifactVerification (artifactHash : PluginArtifactHash) (signature : Option SignatureEnvelope)
    (verified : Bool) : PluginArtifactVerification where
  pluginId := artifactHash.pluginId
  version := artifactHash.version
  artifactDigest := artifactHash.artifactDigest
  manifestDigest := artifactHash.manifestDigest
  fileCount := artifactHash.fileDigests.length
  signaturePresent := signature.isSome
  signatureVerified := verified
  signerKeyId := signature.map SignatureEnvelope.keyId
  evidence := if signature.isNone then "Plugin artifact digest verified."
    else if verified then "Plugin artifact signature verified."
    else "Plugin artifact signature verification failed."

/-- `verify_plugin_artifact`. -/
def verifyPluginArtifact (env : PluginEnv) (m : VADPluginManifest)
    (signature : Option SignatureEnvelope) (signer : Option LocalDevelopmentSigner) :
    PluginArtifactVerification :=
  let artifactHash := computePluginArtifactHash env m
  artifactVerification artifactHash signature (match signature, signer with
    | some envelope, some s => s.verifyPayload env artifactHash.json envelope
    | _, _ => false)

/-- `_plugin_config_content`. -/
def pluginConfigContent (m : VADPluginManifest) (artifact : PluginArtifactVerification) : Json :=
  .object [("plugin_id", .text m.pluginId), ("target_client", .text m.targetClient.value),
    ("version", .text m.version), ("command", m.command.json),
    ("permissions", .array (m.permissions.map PluginPermission.json)),
    ("tools", .array (m.tools.map PluginToolGrant.json)),
    ("prompts", .array (m.prompts.map PluginPrompt.json)),
    ("artifact_digest", .text artifact.artifactDigest),
    ("manifest_digest", .text artifact.manifestDigest)]

/-- `_canonical_json_bytes`. -/
def canonicalJsonBytes (env : PluginEnv) (value : Json) : ByteArray :=
  (env.dumps value ++ "\n").toUTF8

/-! ## The plan -/

/-- The one `PluginInstallAction`, `write_config`. -/
inductive PluginInstallAction where
  | writeConfig
deriving DecidableEq, Repr

structure PluginInstallOperation where
  action : PluginInstallAction := .writeConfig
  scope : PluginConfigScope
  path : String
  change : String
  content : Json

instance : Model PluginInstallOperation where
  name := "PluginInstallOperation"
  normalize := id
  checks o := [
    ("path", lengthWithin 1 500 o.path),
    ("change", lengthWithin 1 300 o.change)]
  normalize_idem _ := rfl

structure PluginRollbackOperation where
  action : String
  path : String
  backupPath : Option String := none
deriving DecidableEq, Repr

instance : Model PluginRollbackOperation where
  name := "PluginRollbackOperation"
  normalize := id
  checks o := [
    ("action", lengthWithin 1 80 o.action),
    ("path", lengthWithin 1 500 o.path)]
  normalize_idem _ := rfl

structure PluginInstallerDryRun where
  pluginId : String
  targetClient : PluginTargetClient
  version : String
  dryRun : Bool := true
  writesPerformed : Int := 0
  operations : List PluginInstallOperation
  rollback : List PluginRollbackOperation
  artifact : PluginArtifactVerification

instance : Model PluginInstallerDryRun where
  name := "PluginInstallerDryRun"
  normalize := id
  checks p := [("plugin_id", safeIdentifier 1 160 p.pluginId)]
  normalize_idem _ := rfl

/-- What pydantic raises, seen from a writer. -/
def pluginBuild {α : Type} [Model α] (a : α) : Except PluginError (Checked α) :=
  (Model.build a).mapError .python

def raiseValue {α : Type} (message : String) : Except PluginError α :=
  .error (.python (.valueError message))

/-- `_resolve_under`. -/
def resolveUnder (env : PluginEnv) (root : Place) (relativePath label : String) :
    Except PluginError Place :=
  if containsAny controls relativePath then
    raiseValue (label ++ " must not contain control separators")
  else if leavesRoot relativePath then raiseValue (label ++ " must be relative")
  else
    match env.resolve (root.joined relativePath) with
    | .error e => .error e
    | .ok target =>
      if root.under target then .ok target
      else raiseValue (label ++ " must stay under " ++ root.text)

/-- One turn of the loop of `create_plugin_installer_dry_run`. -/
def planConfigPath (env : PluginEnv) (workspaceRoot userConfigRoot : Place) (m : VADPluginManifest)
    (artifact : PluginArtifactVerification) (c : PluginConfigPath) :
    Except PluginError (Checked PluginInstallOperation × Checked PluginRollbackOperation) := do
  if c.scope = .project then
    raiseValue "installer dry-run writes are limited to user and workspace config paths"
  else
    let target ← resolveUnder env (if c.scope = .user then userConfigRoot else workspaceRoot) c.path
      "installer config path"
    let operation ← pluginBuild {
      scope := c.scope
      path := target.text
      change := "write " ++ m.pluginId ++ " config for " ++ m.targetClient.value
      content := pluginConfigContent m artifact : PluginInstallOperation }
    let rollback ← pluginBuild {
      action := "restore_or_remove"
      path := target.text
      backupPath := some (target.text ++ ".vad-backup") : PluginRollbackOperation }
    pure (operation, rollback)

/-- `create_plugin_installer_dry_run`. -/
def createPluginInstallerDryRun (env : PluginEnv) (m : VADPluginManifest)
    (workspaceRoot userConfigRoot : String) (signature : Option SignatureEnvelope)
    (signer : Option LocalDevelopmentSigner) : Except PluginError (Checked PluginInstallerDryRun) :=
  do
  let workspace ← env.resolve workspaceRoot
  let user ← env.resolve userConfigRoot
  let artifact := verifyPluginArtifact env m signature signer
  let planned ← m.configPaths.mapM (planConfigPath env workspace user m artifact)
  pluginBuild {
    pluginId := m.pluginId
    targetClient := m.targetClient
    version := m.version
    operations := planned.map fun p => p.1.1
    rollback := planned.map fun p => p.2.1
    artifact : PluginInstallerDryRun }

/-! ## The inventory and the results -/

inductive PluginStatus where
  | installed | available | failed | needsReview
deriving DecidableEq, Repr

inductive PluginInventoryReviewState where
  | pendingReview | reviewed | approved | blocked
deriving DecidableEq, Repr

/-- The check of a dictionary of recorded hashes. -/
def areConfigHashes (hashes : Dict String) : Bool :=
  hashes.all fun e => isRelativePath e.1 && isDigest e.2

/-- `_validate_text` of every text of a tuple. -/
def arePlainTexts (values : List String) : Bool := values.all fun v => !containsAny controls v

structure PluginInventoryRecord where
  pluginId : String
  targetClient : PluginTargetClient
  version : String
  reviewState : PluginInventoryReviewState := .pendingReview
  appliedConfigHashes : Dict String := []
  backupPaths : List String := []
  uninstallStatus : String := "not_requested"
  rollbackStatus : String := "not_requested"
  dashboardStatus : PluginStatus := .needsReview
  publicationReadiness : String := "needs_operator_review"
  summary : String
  actionRequired : Option String := none
  artifactDigest : Option String := none
  manifestDigest : Option String := none
deriving DecidableEq, Repr

instance : Model PluginInventoryRecord where
  name := "PluginInventoryRecord"
  normalize r := { r with appliedConfigHashes := sortedItems r.appliedConfigHashes }
  checks r := [
    ("plugin_id", safeIdentifier 1 160 r.pluginId),
    ("applied_config_hashes", areConfigHashes r.appliedConfigHashes),
    ("backup_paths", arePlainTexts r.backupPaths),
    ("uninstall_status", safeText 0 80 r.uninstallStatus),
    ("rollback_status", safeText 0 80 r.rollbackStatus),
    ("publication_readiness", safeText 0 80 r.publicationReadiness),
    ("summary", safeText 1 300 r.summary),
    ("action_required", optionally (safeText 0 300) r.actionRequired),
    ("artifact_digest", optionally isDigest r.artifactDigest),
    ("manifest_digest", optionally isDigest r.manifestDigest)]
  normalize_idem r := by simp [sortedItems_idem]

/-- The inventory of a result is a record that is not validated again. -/
structure PluginOperationResult where
  pluginId : String
  targetClient : PluginTargetClient
  version : String
  operation : String
  status : String
  writesPerformed : Nat
  appliedConfigHashes : Dict String := []
  backupPaths : List String := []
  inventory : PluginInventoryRecord
  evidence : String
deriving DecidableEq, Repr

instance : Model PluginOperationResult where
  name := "PluginOperationResult"
  normalize r := { r with appliedConfigHashes := sortedItems r.appliedConfigHashes }
  checks r := [
    ("plugin_id", safeIdentifier 1 160 r.pluginId),
    ("operation", safeText 1 80 r.operation),
    ("status", safeText 1 80 r.status),
    ("applied_config_hashes", areConfigHashes r.appliedConfigHashes),
    ("backup_paths", arePlainTexts r.backupPaths),
    ("evidence", safeText 1 300 r.evidence)]
  normalize_idem r := by simp [sortedItems_idem]

end Vad
