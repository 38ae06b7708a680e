/-
  The security audit of plugin artifacts (`audit_plugin_artifact_security` of
  `vad/control_plane/plugins.py`), and what it takes for an endpoint on another host.

  1. **The code** — behind every `http://` and `https://` of the lower-cased text, the host is what
     stands in front of the next slash and colon (`isFlagged`); the audit looks at the texts of the
     generated configuration and of the manifest (`auditPluginArtifactSecurity`).

  2. **One URL** — the code is satisfied exactly with a local name in front of a slash, a colon or
     the end (`isFlagged_iff`).  Such a URL has another host exactly if an `@` follows the colon
     (`hidesHost_iff`), and a local host may be written in other ways (`OddlyLocal`).

  3. **Result** — the verdict on a text, and what an audit that passes means, exactly where these
     two kinds of URL do not decide it (`endpoint_audit_iff`).
-/
import Vad.ControlPlane.Plugins
import Vad.Lib.Search
import Vad.Lib.Uri

namespace Vad

open PyText (Text OccursBefore anyOccurrence)
open Uri (hostOf authorityOf)
open Files (Place)

/-! ## Endpoints -/

def localHosts : List Text := ["localhost".toList, "127.0.0.1".toList, "::1".toList]

/-- `rest.split("/", 1)[0].split(":", 1)[0]`. -/
def endpointHost (rest : Text) : Text := (rest.takeWhile (· ≠ '/')).takeWhile (· ≠ ':')

/-- `host not in {"localhost", "127.0.0.1", "::1"}`. -/
def isFlagged (rest : Text) : Bool := decide (endpointHost rest ∉ localHosts)

/-- `_has_non_local_http_endpoint`: one loop for each of the two schemes. -/
def hasNonLocalHttpEndpoint (lower : String → String) (value : String) : Bool :=
  let lowered := (lower value).toList
  anyOccurrence 'h' "ttp://".toList isFlagged lowered ||
    anyOccurrence 'h' "ttps://".toList isFlagged lowered

/-! ## URLs in a text -/

/-- A URL of one of the two schemes is in the text, and `rest` follows the two slashes. -/
def UrlAt (t rest : Text) : Prop :=
  OccursBefore "http://".toList t rest ∨ OccursBefore "https://".toList t rest

/-- The host of the URL is not a local one. -/
def IsForeign (rest : Text) : Prop := hostOf rest ∉ localHosts

/-- The text has a URL with a host that is not local. -/
def ContainsForeignUrl (lower : String → String) (value : String) : Prop :=
  ∃ rest, UrlAt (lower value).toList rest ∧ IsForeign rest

theorem hasNonLocalHttpEndpoint_iff {lower : String → String} {value : String} :
    hasNonLocalHttpEndpoint lower value = true ↔
      ∃ rest, UrlAt (lower value).toList rest ∧ isFlagged rest = true := by
  have hhttp : 'h' :: "ttp://".toList = "http://".toList := by decide
  have hhttps : 'h' :: "ttps://".toList = "https://".toList := by decide
  unfold hasNonLocalHttpEndpoint UrlAt
  rw [Bool.or_eq_true, PyText.anyOccurrence_iff (by decide), PyText.anyOccurrence_iff (by decide),
    hhttp, hhttps, ← exists_or]
  exact exists_congr fun rest => or_and_right.symm

/-- The names of the local host that need no brackets. -/
def localNames : List Text := ["localhost".toList, "127.0.0.1".toList]

/-- A local name, and behind it the end, a slash or a colon. -/
def PlainLocal (rest : Text) : Prop :=
  ∃ name ∈ localNames, ∃ tail, rest = name ++ tail ∧ ∀ c ∈ tail.head?, c = '/' ∨ c = ':'

/-- A local name and a colon, but an `@` makes them user information of another host. -/
def HidesHost (rest : Text) : Prop :=
  ∃ name ∈ localNames, ∃ tail, rest = name ++ ':' :: tail ∧ '@' ∈ authorityOf tail ∧
    Uri.withoutPort (Uri.hostPort (authorityOf tail)) ∉ localHosts

/-- The host is local, but written in another way: with user information, in brackets, or in front
    of a query, a fragment or a character that ends the URL. -/
def OddlyLocal (rest : Text) : Prop := ¬ PlainLocal rest ∧ hostOf rest ∈ localHosts

theorem isName_of_local {name : Text} (h : name ∈ localNames) : Uri.IsName name := by
  have hall : ∀ name ∈ localNames, ∀ c ∈ name,
      Uri.isAuthorityChar c = true ∧ c ≠ '@' ∧ c ≠ ':' ∧ c ≠ '[' := by decide
  exact hall name h

theorem local_of_name {name : Text} (h : name ∈ localNames) :
    name ∈ localHosts ∧ name ≠ [] ∧ '/' ∉ name := by
  have hall : ∀ name ∈ localNames, name ∈ localHosts ∧ name ≠ [] ∧ '/' ∉ name := by decide
  exact hall name h

/-- Neither of the characters at which the code cuts. -/
def inEndpointHost (c : Char) : Bool := decide (c ≠ ':') && decide (c ≠ '/')

theorem inEndpointHost_iff {c : Char} : ¬ inEndpointHost c = true ↔ c = '/' ∨ c = ':' := by
  unfold inEndpointHost
  simp only [Bool.and_eq_true, decide_eq_true_eq]
  tauto

theorem endpointHost_eq (rest : Text) : endpointHost rest = rest.takeWhile inEndpointHost := by
  have hboth : (fun c => decide (decide (c ≠ ':') = true ∧ decide (c ≠ '/') = true)) =
      inEndpointHost := by
    funext c
    unfold inEndpointHost
    simp
  unfold endpointHost
  rw [List.takeWhile_takeWhile, hboth]

/-- The code is satisfied with a plain local URL, and with no other. -/
theorem isFlagged_iff {rest : Text} : isFlagged rest = true ↔ ¬ PlainLocal rest := by
  unfold isFlagged
  rw [decide_eq_true_eq, not_iff_not, endpointHost_eq]
  constructor
  · intro h
    have hname : rest.takeWhile inEndpointHost ∈ localNames := by
      have hcolon : ':' ∉ rest.takeWhile inEndpointHost :=
        fun hin => absurd (List.mem_takeWhile_imp hin) (by decide)
      revert h hcolon
      generalize rest.takeWhile inEndpointHost = host
      intro h hcolon
      rcases List.mem_cons.mp h with rfl | h
      · exact List.mem_cons_self ..
      · rcases List.mem_cons.mp h with rfl | h
        · exact List.mem_cons_of_mem _ (List.mem_cons_self ..)
        · obtain rfl := List.mem_singleton.mp h
          exact absurd hcolon (by decide)
    refine ⟨_, hname, rest.dropWhile inEndpointHost, (List.takeWhile_append_dropWhile ..).symm, ?_⟩
    intro c hc
    refine inEndpointHost_iff.mp fun hgo => ?_
    have hnot := List.head?_dropWhile_not inEndpointHost rest
    rw [Option.mem_def.mp hc] at hnot
    simp only [hgo] at hnot
    exact absurd hnot (by decide)
  · rintro ⟨name, hname, tail, rfl, htail⟩
    have hclean : ∀ c ∈ name, inEndpointHost c = true := fun c hc => by
      by_contra hstop
      rcases inEndpointHost_iff.mp hstop with rfl | rfl
      · exact (local_of_name hname).2.2 hc
      · exact (isName_of_local hname ':' hc).2.2.1 rfl
    have htake : (name ++ tail).takeWhile inEndpointHost = name := by
      rw [List.takeWhile_append_of_pos hclean]
      cases tail with
      | nil => exact List.append_nil _
      | cons c tail =>
        rw [List.takeWhile_cons_of_neg (inEndpointHost_iff.mpr (htail c rfl))]
        exact List.append_nil _
    rw [htake]
    exact (local_of_name hname).1

/-- A plain local URL has another host exactly if it hides that behind an `@`. -/
theorem hidesHost_iff {rest : Text} : PlainLocal rest ∧ IsForeign rest ↔ HidesHost rest := by
  unfold IsForeign
  constructor
  · rintro ⟨⟨name, hname, tail, rfl, htail⟩, hforeign⟩
    have hlocal := (local_of_name hname).1
    have hne := (local_of_name hname).2.1
    cases tail with
    | nil =>
      rw [Uri.hostOf_name (isName_of_local hname) hne rfl] at hforeign
      exact absurd hlocal hforeign
    | cons c tail =>
      rcases htail c rfl with rfl | rfl
      · have hslash : authorityOf ('/' :: tail) = [] := List.takeWhile_cons_of_neg (by decide)
        rw [Uri.hostOf_name (isName_of_local hname) hne hslash] at hforeign
        exact absurd hlocal hforeign
      · rw [Uri.hostOf_name_port (isName_of_local hname) hne] at hforeign
        split at hforeign
        · rename_i hat
          exact ⟨name, hname, tail, rfl, hat, hforeign⟩
        · exact absurd hlocal hforeign
  · rintro ⟨name, hname, tail, rfl, hat, hforeign⟩
    refine ⟨⟨name, hname, ':' :: tail, rfl, fun c hc => Or.inr (Option.some.inj hc).symm⟩, ?_⟩
    rw [Uri.hostOf_name_port (isName_of_local hname) (local_of_name hname).2.1, if_pos hat]
    exact hforeign

/-- The verdict on a text is right. -/
def EndpointExact (lower : String → String) (value : String) : Prop :=
  hasNonLocalHttpEndpoint lower value = true ↔ ContainsForeignUrl lower value

/-- Some URL is of another host and does not look local, or no URL hides its host unless some local
    one is written oddly, and the other way round. -/
def DecidedPlainly (t : Text) : Prop :=
  (∃ rest, UrlAt t rest ∧ ¬ PlainLocal rest ∧ IsForeign rest) ∨
    ((∃ rest, UrlAt t rest ∧ HidesHost rest) ↔ ∃ rest, UrlAt t rest ∧ OddlyLocal rest)

/-- Two sides that share a part agree exactly if the part decides them or the others agree. -/
theorem or_iff_or_iff {a b c : Prop} : (a ∨ b ↔ a ∨ c) ↔ a ∨ (c ↔ b) := by
  by_cases h : a
  · simp [h]
  · simp only [h, false_or]
    exact Iff.comm

theorem endpointExact_iff {lower : String → String} {value : String} :
    EndpointExact lower value ↔ DecidedPlainly (lower value).toList := by
  unfold EndpointExact DecidedPlainly ContainsForeignUrl
  rw [hasNonLocalHttpEndpoint_iff]
  generalize (lower value).toList = t
  have hflagged : (∃ rest, UrlAt t rest ∧ isFlagged rest = true) ↔
      (∃ rest, UrlAt t rest ∧ ¬ PlainLocal rest ∧ IsForeign rest) ∨
        ∃ rest, UrlAt t rest ∧ OddlyLocal rest := by
    rw [← exists_or]
    refine exists_congr fun rest => ?_
    rw [isFlagged_iff, ← and_or_left]
    unfold OddlyLocal IsForeign
    rw [← and_or_left]
    exact and_congr_right fun _ => ⟨fun h => ⟨h, (em _).symm⟩, fun h => h.1⟩
  have hforeign : (∃ rest, UrlAt t rest ∧ IsForeign rest) ↔
      (∃ rest, UrlAt t rest ∧ ¬ PlainLocal rest ∧ IsForeign rest) ∨
        ∃ rest, UrlAt t rest ∧ HidesHost rest := by
    rw [← exists_or]
    refine exists_congr fun rest => ?_
    rw [← hidesHost_iff, ← and_or_left, ← or_and_right]
    exact and_congr_right fun _ => ⟨fun h => ⟨(em _).symm, h⟩, fun h => h.2⟩
  rw [hflagged, hforeign]
  exact or_iff_or_iff

/-! ## The audit -/

structure PluginSecurityAuditFinding where
  check : String
  detail : String
deriving DecidableEq, Repr

instance : Model PluginSecurityAuditFinding where
  name := "PluginSecurityAuditFinding"
  normalize := id
  checks f := [("check", safeIdentifier 1 160 f.check), ("detail", safeText 1 300 f.detail)]
  normalize_idem _ := rfl

structure PluginSecurityAuditResult where
  pluginId : String
  passed : Bool
  findings : List (Checked PluginSecurityAuditFinding) := []

instance : Model PluginSecurityAuditResult where
  name := "PluginSecurityAuditResult"
  normalize := id
  checks r := [("plugin_id", safeIdentifier 1 160 r.pluginId)]
  normalize_idem _ := rfl

abbrev Findings : Type := List (Checked PluginSecurityAuditFinding)

/-- `if …: findings.append(_audit_finding(check, detail))`. -/
def findingIf (found : Bool) (check detail : String) : Except PluginError Findings :=
  if found then (pluginBuild { check, detail : PluginSecurityAuditFinding }).map fun f => [f]
  else .ok []

/-- The findings of a loop, one turn after another. -/
def findingsOf {α : Type} (turn : α → Except PluginError Findings) :
    List α → Except PluginError Findings
  | [] => .ok []
  | a :: rest => do
    let first ← turn a
    let others ← findingsOf turn rest
    pure (first ++ others)

def secretMarkers : List String := ["api_key", "token", "password", "secret", "private_key", "sk-"]

/-- `_looks_secret`. -/
def looksSecret (lower : String → String) (value : String) : Bool :=
  secretMarkers.any fun marker => decide (marker.toList <:+: (lower value).toList)

/-- What the audit asks of the language: `str.lower`, and `str` of a number. -/
structure AuditText where
  lower : String → String
  number : Rat → String

mutual

/-- `_walk_values`, each value as `str` gives it. -/
def walkValues (t : AuditText) : Json → List String
  | .null => []
  | .bool b => [if b then "True" else "False"]
  | .number x => [t.number x]
  | .text s => [s]
  | .array values => walkItems t values
  | .object entries => walkEntries t entries

def walkItems (t : AuditText) : List Json → List String
  | [] => []
  | item :: rest => walkValues t item ++ walkItems t rest

def walkEntries (t : AuditText) : List (String × Json) → List String
  | [] => []
  | (key, item) :: rest => key :: (walkValues t item ++ walkEntries t rest)

end

/-- `_manifest_scan_values`. -/
def manifestScanValues (m : VADPluginManifest) : List String :=
  [m.pluginId, m.version, m.command.executable] ++ m.command.args ++
    m.command.env.flatMap (fun e => [e.1, e.2]) ++
    m.permissions.flatMap (fun p => [p.name, p.reason]) ++
    m.tools.flatMap (fun t => [t.name, t.role]) ++
    m.prompts.flatMap (fun p => [p.promptId, p.role, p.path]) ++ m.checksums.map Prod.fst

/-- Findings that are looked for in this order. -/
def inOrder (parts : List (Except PluginError Findings)) : Except PluginError Findings :=
  findingsOf id parts

/-- The two findings that a text can give. -/
def textFindings (t : AuditText) (place value : String) : Except PluginError Findings :=
  inOrder [
    findingIf (looksSecret t.lower value) "no_secrets" (place ++ " contains a secret marker"),
    findingIf (hasNonLocalHttpEndpoint t.lower value) "no_cloud_default"
      (place ++ " contains a non-local HTTP endpoint")]

/-- `if not _path_is_under(Path(operation.path), root): …`. -/
def pathFindings (env : PluginEnv) (workspaceRoot userConfigRoot : Place)
    (operation : PluginInstallOperation) : Except PluginError Findings := do
  let path ← env.resolve operation.path
  let root := if operation.scope = .user then userConfigRoot else workspaceRoot
  findingIf (!root.under path) "guarded_write"
    ("operation path escapes approved " ++ operation.scope.value ++ " root")

/-- One turn of the loop over the operations; there is one action only, and it is supported. -/
def operationFindings (env : PluginEnv) (t : AuditText) (workspaceRoot userConfigRoot : Place)
    (operation : PluginInstallOperation) : Except PluginError Findings :=
  inOrder [
    findingIf (decide (operation.action ≠ .writeConfig)) "guarded_write"
      "unsupported install action write_config",
    findingIf (decide (operation.scope = .project)) "guarded_write"
      ("project-scoped write is not allowed for " ++ operation.path),
    pathFindings env workspaceRoot userConfigRoot operation,
    findingsOf (textFindings t "generated config") (walkValues t operation.content)]

/-- Everything that the audit looks for. -/
def auditFindings (env : PluginEnv) (t : AuditText) (m : VADPluginManifest)
    (dryRun : PluginInstallerDryRun) (workspaceRoot userConfigRoot : Place) :
    Except PluginError Findings :=
  inOrder [
    findingIf (decide (dryRun.pluginId ≠ m.pluginId)) "artifact_binding"
      "dry-run plugin id does not match manifest",
    findingIf (!dryRun.dryRun || decide (dryRun.writesPerformed ≠ 0)) "dry_run_only"
      "plugin audit requires a no-write dry-run plan",
    findingsOf (operationFindings env t workspaceRoot userConfigRoot) dryRun.operations,
    findingsOf (fun tool => findingIf (tool.highRisk && tool.approvedByDefault)
      "dangerous_auto_approval" ("high-risk tool " ++ tool.name ++ " is approved by default"))
      m.tools,
    findingsOf (textFindings t "plugin manifest") (manifestScanValues m)]

/-- `audit_plugin_artifact_security`. -/
def auditPluginArtifactSecurity (env : PluginEnv) (t : AuditText) (m : VADPluginManifest)
    (dryRun : PluginInstallerDryRun) (workspaceRoot userConfigRoot : String) :
    Except PluginError (Checked PluginSecurityAuditResult) := do
  let workspace ← env.resolve workspaceRoot
  let user ← env.resolve userConfigRoot
  let findings ← auditFindings env t m dryRun workspace user
  pluginBuild {
    pluginId := m.pluginId
    passed := findings.isEmpty
    findings := findings : PluginSecurityAuditResult }

/-- The texts that the audit looks at. -/
def scannedTexts (t : AuditText) (m : VADPluginManifest) (dryRun : PluginInstallerDryRun) :
    List String :=
  dryRun.operations.flatMap (fun o => walkValues t o.content) ++ manifestScanValues m

/-! ### When nothing is found -/

theorem findingIf_nil {found : Bool} {check detail : String} :
    findingIf found check detail = .ok [] ↔ found = false := by
  unfold findingIf
  cases found with
  | false => exact ⟨fun _ => rfl, fun _ => rfl⟩
  | true =>
    refine ⟨fun h => ?_, fun h => nomatch h⟩
    cases hbuild : pluginBuild { check, detail : PluginSecurityAuditFinding } with
    | error e =>
      rw [if_pos rfl, hbuild] at h
      cases h
    | ok f =>
      rw [if_pos rfl, hbuild] at h
      cases h

/-- Two parts of the findings are empty exactly if each is. -/
theorem append_nil_iff {x y : Except PluginError Findings} :
    (do let a ← x; let b ← y; pure (a ++ b)) = .ok [] ↔ x = .ok [] ∧ y = .ok [] := by
  cases x with
  | error e => exact ⟨fun h => (nomatch h), fun h => nomatch h.1⟩
  | ok a =>
    cases y with
    | error e => exact ⟨fun h => (nomatch h), fun h => nomatch h.2⟩
    | ok b =>
      show Except.ok (a ++ b) = .ok [] ↔ _
      rw [Except.ok.injEq, List.append_eq_nil_iff, Except.ok.injEq, Except.ok.injEq]

theorem findingsOf_nil {α : Type} {turn : α → Except PluginError Findings} {as : List α} :
    findingsOf turn as = .ok [] ↔ ∀ a ∈ as, turn a = .ok [] := by
  induction as with
  | nil => exact ⟨fun _ a ha => (nomatch ha), fun _ => rfl⟩
  | cons a rest ih =>
    unfold findingsOf
    rw [append_nil_iff, ih, List.forall_mem_cons]

theorem inOrder_nil {parts : List (Except PluginError Findings)} :
    inOrder parts = .ok [] ↔ ∀ x ∈ parts, x = .ok [] := findingsOf_nil

theorem textFindings_nil {t : AuditText} {place value : String} :
    textFindings t place value = .ok [] ↔
      looksSecret t.lower value = false ∧ hasNonLocalHttpEndpoint t.lower value = false := by
  unfold textFindings
  rw [inOrder_nil, List.forall_mem_cons, List.forall_mem_singleton, findingIf_nil, findingIf_nil]

theorem pathFindings_nil {env : PluginEnv} {workspaceRoot userConfigRoot : Place}
    {operation : PluginInstallOperation} :
    pathFindings env workspaceRoot userConfigRoot operation = .ok [] ↔
      ∃ path, env.resolve operation.path = .ok path ∧
        (if operation.scope = .user then userConfigRoot else workspaceRoot).under path = true := by
  unfold pathFindings
  cases env.resolve operation.path with
  | error e => exact ⟨fun h => (nomatch h), fun ⟨_, h, _⟩ => nomatch h⟩
  | ok path =>
    refine Iff.trans findingIf_nil ?_
    rw [Bool.not_eq_false']
    exact ⟨fun h => ⟨path, rfl, h⟩, fun ⟨_, hpath, h⟩ => Except.ok.inj hpath ▸ h⟩

/-- What an operation must be like. -/
structure OperationApproved (env : PluginEnv) (workspaceRoot userConfigRoot : Place)
    (operation : PluginInstallOperation) : Prop where
  notProject : operation.scope ≠ .project
  under : ∃ path, env.resolve operation.path = .ok path ∧
    (if operation.scope = .user then userConfigRoot else workspaceRoot).under path = true

theorem operationFindings_nil {env : PluginEnv} {t : AuditText} {workspaceRoot userConfigRoot : Place}
    {operation : PluginInstallOperation} :
    operationFindings env t workspaceRoot userConfigRoot operation = .ok [] ↔
      OperationApproved env workspaceRoot userConfigRoot operation ∧
        ∀ text ∈ walkValues t operation.content,
          looksSecret t.lower text = false ∧ hasNonLocalHttpEndpoint t.lower text = false := by
  have haction : decide (operation.action ≠ .writeConfig) = false := by
    cases operation.action
    rfl
  unfold operationFindings
  rw [inOrder_nil]
  simp only [List.forall_mem_cons, List.not_mem_nil, false_implies, implies_true, and_true,
    findingIf_nil, pathFindings_nil, findingsOf_nil, textFindings_nil, haction, true_and,
    decide_eq_false_iff_not]
  exact ⟨fun ⟨hscope, hunder, htexts⟩ => ⟨⟨hscope, hunder⟩, htexts⟩,
    fun ⟨happroved, htexts⟩ => ⟨happroved.notProject, happroved.under, htexts⟩⟩

/-- What everything but the texts must be like. -/
structure ArtifactApproved (env : PluginEnv) (m : VADPluginManifest) (dryRun : PluginInstallerDryRun)
    (workspaceRoot userConfigRoot : Place) : Prop where
  bound : dryRun.pluginId = m.pluginId
  noWrites : dryRun.dryRun = true ∧ dryRun.writesPerformed = 0
  operations : ∀ operation ∈ dryRun.operations,
    OperationApproved env workspaceRoot userConfigRoot operation
  tools : ∀ tool ∈ m.tools, tool.highRisk = true → tool.approvedByDefault = false

theorem auditFindings_nil {env : PluginEnv} {t : AuditText} {m : VADPluginManifest}
    {dryRun : PluginInstallerDryRun} {workspace user : Place} :
    auditFindings env t m dryRun workspace user = .ok [] ↔
      ArtifactApproved env m dryRun workspace user ∧ ∀ text ∈ scannedTexts t m dryRun,
        looksSecret t.lower text = false ∧ hasNonLocalHttpEndpoint t.lower text = false := by
  have htool (tool : PluginToolGrant) : (tool.highRisk && tool.approvedByDefault) = false ↔
      (tool.highRisk = true → tool.approvedByDefault = false) := by
    cases tool.highRisk <;> simp
  have hwrites : (!dryRun.dryRun || decide (dryRun.writesPerformed ≠ 0)) = false ↔
      dryRun.dryRun = true ∧ dryRun.writesPerformed = 0 := by
    simp
  unfold auditFindings scannedTexts
  rw [inOrder_nil, List.forall_mem_append, List.forall_mem_flatMap]
  simp only [List.forall_mem_cons, List.not_mem_nil, false_implies, implies_true, and_true,
    findingIf_nil, findingsOf_nil, operationFindings_nil, textFindings_nil, hwrites, htool,
    decide_eq_false_iff_not, not_not]
  constructor
  · rintro ⟨hbound, hdry, hoperations, htools, htexts⟩
    exact ⟨⟨hbound, hdry, fun o ho => (hoperations o ho).1, htools⟩,
      fun o ho => (hoperations o ho).2, htexts⟩
  · rintro ⟨happroved, hcontents, htexts⟩
    exact ⟨happroved.bound, happroved.noWrites,
      fun o ho => ⟨happroved.operations o ho, hcontents o ho⟩, happroved.tools, htexts⟩

/-- The audit passes. -/
def AuditPasses (env : PluginEnv) (t : AuditText) (m : VADPluginManifest)
    (dryRun : PluginInstallerDryRun) (workspaceRoot userConfigRoot : String) : Prop :=
  ∃ result, auditPluginArtifactSecurity env t m dryRun workspaceRoot userConfigRoot = .ok result ∧
    result.1.passed = true

/-- The paths resolve, the plugin has an identifier, and everything but the texts is approved. -/
def Approved (env : PluginEnv) (m : VADPluginManifest) (dryRun : PluginInstallerDryRun)
    (workspaceRoot userConfigRoot : String) : Prop :=
  safeIdentifier 1 160 m.pluginId = true ∧ ∃ workspace user,
    env.resolve workspaceRoot = .ok workspace ∧ env.resolve userConfigRoot = .ok user ∧
      ArtifactApproved env m dryRun workspace user

/-- A result is built exactly for an identifier. -/
theorem buildResult_iff {r : PluginSecurityAuditResult} :
    (∃ result, pluginBuild r = .ok result ∧ result.1.passed = true) ↔
      safeIdentifier 1 160 r.pluginId = true ∧ r.passed = true := by
  have hvalid : Model.Valid r ↔ safeIdentifier 1 160 r.pluginId = true :=
    ⟨fun h => failedFields_eq_nil.mp h.2 _ (List.mem_singleton.mpr rfl),
      fun h => ⟨rfl, failedFields_eq_nil.mpr fun c hc => List.mem_singleton.mp hc ▸ h⟩⟩
  constructor
  · rintro ⟨result, hresult, hpassed⟩
    have hbuild : Model.build r = .ok result := by
      unfold pluginBuild at hresult
      cases hr : Model.build r with
      | error e =>
        rw [hr] at hresult
        cases hresult
      | ok b =>
        rw [hr] at hresult
        exact congrArg Except.ok (Except.ok.inj hresult)
    have hsame : result.1 = r := Model.build_eq_ok hbuild
    exact ⟨hvalid.mp (hsame ▸ result.2), hsame ▸ hpassed⟩
  · rintro ⟨hidentifier, hpassed⟩
    refine ⟨⟨r, hvalid.mpr hidentifier⟩, ?_, hpassed⟩
    unfold pluginBuild
    rw [Model.build_of_valid (hvalid.mpr hidentifier)]
    rfl

theorem auditPasses_iff {env : PluginEnv} {t : AuditText} {m : VADPluginManifest}
    {dryRun : PluginInstallerDryRun} {workspaceRoot userConfigRoot : String} :
    AuditPasses env t m dryRun workspaceRoot userConfigRoot ↔
      Approved env m dryRun workspaceRoot userConfigRoot ∧ ∀ text ∈ scannedTexts t m dryRun,
        looksSecret t.lower text = false ∧ hasNonLocalHttpEndpoint t.lower text = false := by
  unfold AuditPasses auditPluginArtifactSecurity Approved
  cases hworkspace : env.resolve workspaceRoot with
  | error e => exact ⟨fun ⟨_, h, _⟩ => (nomatch h), fun ⟨⟨_, _, _, h, _⟩, _⟩ => nomatch h⟩
  | ok workspace =>
    cases huser : env.resolve userConfigRoot with
    | error e => exact ⟨fun ⟨_, h, _⟩ => (nomatch h), fun ⟨⟨_, _, _, _, h, _⟩, _⟩ => nomatch h⟩
    | ok user =>
      cases hfindings : auditFindings env t m dryRun workspace user with
      | error e =>
        refine ⟨fun ⟨_, h, _⟩ => ?_, fun ⟨⟨_, workspace', user', hw, hu, happroved⟩, htexts⟩ => ?_⟩
        · change (auditFindings env t m dryRun workspace user >>= _) = _ at h
          rw [hfindings] at h
          cases h
        · obtain rfl := Except.ok.inj hw
          obtain rfl := Except.ok.inj hu
          rw [auditFindings_nil.mpr ⟨happroved, htexts⟩] at hfindings
          cases hfindings
      | ok findings =>
        have hresult : (∃ result, (auditFindings env t m dryRun workspace user >>= fun findings =>
            pluginBuild { pluginId := m.pluginId, passed := findings.isEmpty, findings :
              PluginSecurityAuditResult }) = .ok result ∧ result.1.passed = true) ↔
            safeIdentifier 1 160 m.pluginId = true ∧ findings.isEmpty = true := by
          rw [hfindings]
          exact buildResult_iff
        refine hresult.trans ?_
        rw [List.isEmpty_iff]
        constructor
        · rintro ⟨hidentifier, rfl⟩
          obtain ⟨happroved, htexts⟩ := auditFindings_nil.mp hfindings
          exact ⟨⟨hidentifier, workspace, user, rfl, rfl, happroved⟩, htexts⟩
        · rintro ⟨⟨hidentifier, workspace', user', hw, hu, happroved⟩, htexts⟩
          obtain rfl := Except.ok.inj hw
          obtain rfl := Except.ok.inj hu
          rw [auditFindings_nil.mpr ⟨happroved, htexts⟩] at hfindings
          exact ⟨hidentifier, (Except.ok.inj hfindings).symm⟩

/-! ### What an audit that passes means -/

/-- The texts that the audit looks at, and those of the manifest's paths. -/
def artifactTexts (t : AuditText) (m : VADPluginManifest) (dryRun : PluginInstallerDryRun) :
    List String := scannedTexts t m dryRun ++ m.configPaths.map fun c => c.path

/-- An artifact whose audit passes has no URL with another host. -/
def AuditSound (env : PluginEnv) (t : AuditText) (m : VADPluginManifest)
    (dryRun : PluginInstallerDryRun) (workspaceRoot userConfigRoot : String) : Prop :=
  AuditPasses env t m dryRun workspaceRoot userConfigRoot →
    ∀ text ∈ artifactTexts t m dryRun, ¬ ContainsForeignUrl t.lower text

/-- Every URL in the text looks local. -/
def LooksLocal (lower : String → String) (value : String) : Prop :=
  ∀ rest, UrlAt (lower value).toList rest → PlainLocal rest

/-- If the artifact is approved and its texts look harmless, no URL in them hides its host, and the
    paths of the manifest have no URL with another host. -/
def NothingHidden (env : PluginEnv) (t : AuditText) (m : VADPluginManifest)
    (dryRun : PluginInstallerDryRun) (workspaceRoot userConfigRoot : String) : Prop :=
  Approved env m dryRun workspaceRoot userConfigRoot →
    (∀ text ∈ scannedTexts t m dryRun, looksSecret t.lower text = false ∧ LooksLocal t.lower text) →
      (∀ text ∈ scannedTexts t m dryRun, ∀ rest, UrlAt (t.lower text).toList rest →
        ¬ HidesHost rest) ∧
      ∀ c ∈ m.configPaths, ¬ ContainsForeignUrl t.lower c.path

theorem looksLocal_iff {lower : String → String} {value : String} :
    hasNonLocalHttpEndpoint lower value = false ↔ LooksLocal lower value := by
  rw [← Bool.not_eq_true, hasNonLocalHttpEndpoint_iff]
  unfold LooksLocal
  constructor
  · intro h rest hrest
    by_contra hplain
    exact h ⟨rest, hrest, isFlagged_iff.mpr hplain⟩
  · rintro h ⟨rest, hrest, hflagged⟩
    exact isFlagged_iff.mp hflagged (h rest hrest)

theorem auditSound_iff {env : PluginEnv} {t : AuditText} {m : VADPluginManifest}
    {dryRun : PluginInstallerDryRun} {workspaceRoot userConfigRoot : String} :
    AuditSound env t m dryRun workspaceRoot userConfigRoot ↔
      NothingHidden env t m dryRun workspaceRoot userConfigRoot := by
  unfold AuditSound NothingHidden artifactTexts
  rw [auditPasses_iff, and_imp, List.forall_mem_append, List.forall_mem_map]
  simp only [looksLocal_iff]
  refine forall_congr' fun _ => forall_congr' fun htexts => and_congr_left fun _ => ?_
  refine forall₂_congr fun text htext => ?_
  unfold ContainsForeignUrl
  constructor
  · intro h rest hrest hhides
    exact h ⟨rest, hrest, (hidesHost_iff.mpr hhides).2⟩
  · rintro h ⟨rest, hrest, hforeign⟩
    exact h rest hrest (hidesHost_iff.mp ⟨(htexts text htext).2 rest hrest, hforeign⟩)

/-- The verdict on a text is right exactly where hidden hosts and odd spellings do not decide it,
    and an audit that passes means what it should exactly where nothing is hidden from it. -/
theorem endpoint_audit_iff (lower : String → String) (value : String) (env : PluginEnv)
    (t : AuditText) (m : VADPluginManifest) (dryRun : PluginInstallerDryRun)
    (workspaceRoot userConfigRoot : String) :
    (EndpointExact lower value ↔ DecidedPlainly (lower value).toList) ∧
      (AuditSound env t m dryRun workspaceRoot userConfigRoot ↔
        NothingHidden env t m dryRun workspaceRoot userConfigRoot) :=
  ⟨endpointExact_iff, auditSound_iff⟩

/-- The local name in front of the `@` is not the host. -/
theorem userinfo_hides_host : ¬ EndpointExact id "http://localhost:80@evil.com/" := by
  intro h
  have hfirst : PyText.afterFirst ('h' :: "ttp://".toList) "http://localhost:80@evil.com/".toList =
      some "localhost:80@evil.com/".toList := by decide
  have hnext : PyText.afterFirst ('h' :: "ttp://".toList) "localhost:80@evil.com/".toList =
      none := by decide
  have hsecond : PyText.afterFirst ('h' :: "ttps://".toList)
      "http://localhost:80@evil.com/".toList = none := by decide
  have hat := PyText.occursBefore_iff_of_some (by decide) hfirst
  have hforeign : ContainsForeignUrl id "http://localhost:80@evil.com/" :=
    ⟨_, Or.inl ((hat _).mpr (Or.inl rfl)), by unfold IsForeign; decide⟩
  obtain ⟨rest, hrest, hflagged⟩ := hasNonLocalHttpEndpoint_iff.mp (h.mpr hforeign)
  rcases hrest with hrest | hrest
  · rcases (hat rest).mp hrest with rfl | hrest
    · exact absurd hflagged (by decide)
    · exact PyText.not_occursBefore_of_none hnext rest hrest
  · exact PyText.not_occursBefore_of_none hsecond rest hrest

end Vad
