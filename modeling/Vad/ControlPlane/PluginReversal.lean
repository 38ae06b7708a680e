/-
  What a rollback leaves of an applied plugin plan.

  Apply keeps an existing target in a backup beside it, and rollback tells from the backup whether
  there was a target: the place of the backup depends on the target's path alone, so a backup of an
  earlier install counts as one of this (`stale_backup_restored`).  Uninstall clears the recorded
  hashes, and a rollback after it raises before it touches a file.

  1. **The plan** — every step of a plan that was made from a manifest writes the same content, and
     its backup is its path with a suffix (`planned_of_created`).
  2. **Apply and rollback, on the files** — with the backups apart from the other paths, the turns
     of the two loops are `install` and `putBack` (`files_of_applied`, `files_of_rolledBack`).
  3. **The result** — `reversal_restores_iff`: what a rollback restores, and what it restores when
     the plugin was uninstalled before.
-/
import Vad.ControlPlane.PluginFailures
import Vad.Lib.Backup

namespace Vad

open Atomic
open Atomic.Program (Returns)
open Backup (install putBack Apart Reversible)
open Files (Place Disk FileTree FileError)

/-! ## The plan -/

/-- A path as the operating system resolves it; no writer gets past one that cannot be. -/
def PluginEnv.place (env : PluginEnv) (text : String) : Place :=
  match env.resolve text with
  | .ok p => p
  | .error _ => []

/-- The target and the backup of a step. -/
def stepPlaces (env : PluginEnv) (x : PluginInstallOperation × PluginRollbackOperation) :
    Place × Place := (env.place x.1.path, env.place (x.2.backupPath.getD ""))

/-- The targets and backups of a plan. -/
def PluginInstallerDryRun.places (env : PluginEnv) (plan : PluginInstallerDryRun) :
    List (Place × Place) := plan.steps.map (stepPlaces env)

/-- A step of a plan made from a manifest. -/
structure PlannedStep (env : PluginEnv) (content : Json)
    (x : PluginInstallOperation × PluginRollbackOperation) : Prop where
  content_eq : x.1.content = content
  path : ∃ p : Place, x.1.path = p.text ∧ env.resolve p.text = .ok p
  backup : x.2.backupPath = some (x.1.path ++ ".vad-backup")

/-- Every config target named in the plan holds what it held, or is missing as it was. -/
def ConfigsRestored (env : PluginEnv) (plan : PluginInstallerDryRun) (before after : FileTree) :
    Prop :=
  ∀ o ∈ plan.operations, ∀ p, env.resolve o.path = .ok p → after.fileAt p = before.fileAt p

section Plan

variable {env : PluginEnv} {m : VADPluginManifest} {plan : Checked PluginInstallerDryRun}

theorem place_eq {text : String} {p : Place} (h : env.resolve text = .ok p) :
    env.place text = p := by
  unfold PluginEnv.place
  rw [h]

/-- A model that was built holds the data given to it, normalised. -/
theorem pluginBuild_eq {α : Type} [Model α] {a : α} {r : Checked α} (h : pluginBuild a = .ok r) :
    r.1 = Model.normalize a := by
  unfold pluginBuild Model.build at h
  split at h
  · rw [← Except.ok.inj h]
  · cases h

theorem bind_eq_ok {α β ε : Type} {x : Except ε α} {k : α → Except ε β} {b : β} :
    (x >>= k) = .ok b ↔ ∃ a, x = .ok a ∧ k a = .ok b := by
  cases x with
  | ok a =>
    constructor
    · exact fun h => ⟨a, rfl, h⟩
    · rintro ⟨a', ha, h⟩
      cases ha
      exact h
  | error e => exact iff_of_false (fun h => nomatch h) fun ⟨_, ha, _⟩ => nomatch ha

theorem exists_of_mapM {α β ε : Type} {f : α → Except ε β} :
    ∀ {as : List α} {bs : List β}, as.mapM f = .ok bs → ∀ b ∈ bs, ∃ a ∈ as, f a = .ok b := by
  intro as
  induction as with
  | nil =>
    intro bs h b hb
    cases h
    exact absurd hb List.not_mem_nil
  | cons a as ih =>
    intro bs h b hb
    rw [List.mapM_cons] at h
    obtain ⟨b', hfirst, h⟩ := bind_eq_ok.mp h
    obtain ⟨bs', hrest, h⟩ := bind_eq_ok.mp h
    cases h
    rcases List.mem_cons.mp hb with rfl | hb
    · exact ⟨a, List.mem_cons_self, hfirst⟩
    · obtain ⟨a', ha', hf⟩ := ih hrest b hb
      exact ⟨a', List.mem_cons_of_mem a ha', hf⟩

/-- A path below a root, as it is resolved. -/
theorem resolveUnder_ok {root p : Place} {path label : String}
    (h : resolveUnder env root path label = .ok p) : env.resolve p.text = .ok p := by
  unfold resolveUnder at h
  split at h
  · cases h
  split at h
  · cases h
  split at h
  · cases h
  rename_i target htarget
  split at h
  · cases h
    exact env.resolve_text htarget
  · cases h

/-- One turn of the loop that makes the plan. -/
theorem planned_of_configPath {artifact : PluginArtifactVerification} {ws user : Place}
    {c : PluginConfigPath} {p : Checked PluginInstallOperation × Checked PluginRollbackOperation}
    (h : planConfigPath env ws user m artifact c = .ok p) :
    PlannedStep env (pluginConfigContent m artifact) (p.1.1, p.2.1) := by
  unfold planConfigPath at h
  split at h
  · cases h
  obtain ⟨target, htarget, h⟩ := bind_eq_ok.mp h
  obtain ⟨operation, hoperation, h⟩ := bind_eq_ok.mp h
  obtain ⟨rollback, hrollback, h⟩ := bind_eq_ok.mp h
  cases h
  have hop := pluginBuild_eq hoperation
  have hback := pluginBuild_eq hrollback
  constructor
  · show operation.1.content = _
    rw [hop]
    rfl
  · refine ⟨target, ?_, resolveUnder_ok htarget⟩
    show operation.1.path = _
    rw [hop]
    rfl
  · show rollback.1.backupPath = some (operation.1.path ++ _)
    rw [hop, hback]
    rfl

/-- Every step of a plan made from a manifest writes the same content, and has its backup beside
    its path. -/
theorem planned_of_created {workspaceRoot userConfigRoot : String}
    {signature : Option SignatureEnvelope} {signer : Option LocalDevelopmentSigner}
    (h : createPluginInstallerDryRun env m workspaceRoot userConfigRoot signature signer =
      .ok plan) :
    ∀ x ∈ plan.1.steps,
      PlannedStep env (pluginConfigContent m (verifyPluginArtifact env m signature signer)) x := by
  unfold createPluginInstallerDryRun at h
  obtain ⟨workspace, -, h⟩ := bind_eq_ok.mp h
  obtain ⟨user, -, h⟩ := bind_eq_ok.mp h
  obtain ⟨planned, hplanned, h⟩ := bind_eq_ok.mp h
  have hsteps : plan.1.steps = planned.map fun p => (p.1.1, p.2.1) := by
    rw [pluginBuild_eq h]
    exact List.zip_map' ..
  intro x hx
  rw [hsteps] at hx
  obtain ⟨p, hp, rfl⟩ := List.mem_map.mp hx
  obtain ⟨c, -, hc⟩ := exists_of_mapM hplanned p hp
  exact planned_of_configPath hc

/-- A guarded path is the one that its text resolves to. -/
theorem guardedPath_resolves {root p : Place} {text escapes : String}
    (h : guardedPath env root text escapes = .ok p) : env.resolve text = .ok p := by
  unfold guardedPath at h
  split at h
  · cases h
  rename_i q hq
  split at h
  · cases h
  · cases h
    exact hq
  · cases h

theorem resolve_of_guarded {roots : PluginRoots} {o : PluginInstallOperation} {p : Place}
    (h : guardedOperationPath env roots o = .ok p) : env.resolve o.path = .ok p := by
  unfold guardedOperationPath at h
  split at h
  · cases h
  · exact guardedPath_resolves h

/-- The places of a step are what its checks make of its paths. -/
theorem stepPlaces_of_guards {roots : PluginRoots} {places : Place × Place}
    {x : PluginInstallOperation × PluginRollbackOperation}
    (h : applyGuards env roots x = .ok places) :
    env.resolve x.1.path = .ok places.1 ∧ stepPlaces env x = places := by
  obtain ⟨htarget, hbackup⟩ := applyGuards_ok.mp h
  have hfirst := resolve_of_guarded htarget
  refine ⟨hfirst, ?_⟩
  unfold guardedBackupPath at hbackup
  split at hbackup
  · cases hbackup
  split at hbackup
  · cases hbackup
  split at hbackup
  · cases hbackup
  rename_i text htext
  split at hbackup
  · cases hbackup
  · unfold stepPlaces
    rw [place_eq hfirst, htext, Option.getD_some, place_eq (guardedPath_resolves hbackup)]

end Plan

/-! ## Apply, on the files -/

/-- No path of the plan is a backup or lies below one, except that a backup is one, and there is no
    directory where a backup goes. -/
structure BackupsApart (t : FileTree) (places : List (Place × Place)) : Prop where
  target : ∀ x ∈ places, ∀ y ∈ places, ¬ x.2 <+: y.1
  backup : ∀ x ∈ places, ∀ y ∈ places, x.2 <+: y.2 → x.1 = y.1
  noDirectory : ∀ x ∈ places, t.disk x.2 ≠ some .directory

section Apply

variable {env : PluginEnv} {roots : PluginRoots} {t t' : FileTree} {content : Json}
  {x : PluginInstallOperation × PluginRollbackOperation}
  {steps : List (PluginInstallOperation × PluginRollbackOperation)}

/-- In a plan made from a manifest the target decides the backup. -/
theorem apart_of_planned (hplanned : ∀ x ∈ steps, PlannedStep env content x)
    (h : BackupsApart t (steps.map (stepPlaces env))) : Apart (steps.map (stepPlaces env)) where
  backup_ne_target x hx y hy heq := h.target x hx y hy (heq ▸ List.prefix_rfl)
  sameBackup := by
    intro x hx y hy
    refine ⟨fun heq => h.backup x hx y hy (heq ▸ List.prefix_rfl), fun heq => ?_⟩
    obtain ⟨a, ha, rfl⟩ := List.mem_map.mp hx
    obtain ⟨b, hb, rfl⟩ := List.mem_map.mp hy
    obtain ⟨p, hp, hresolve⟩ := (hplanned a ha).path
    obtain ⟨q, hq, hresolve'⟩ := (hplanned b hb).path
    have hsame : p = q := by
      have htargets : env.place a.1.path = env.place b.1.path := heq
      rwa [hp, hq, place_eq hresolve, place_eq hresolve'] at htargets
    unfold stepPlaces
    rw [(hplanned a ha).backup, (hplanned b hb).backup, hp, hq, hsame]

theorem returns_changeFiles {f : FileTree → Except FileError FileTree}
    (h : Returns (changeFiles f) t () t') : f t = .ok t' := by
  rcases run_changeFiles f t with ⟨t₁, hf, hret, -⟩ | ⟨e, herror⟩
  · rw [hf, (hret.unique h).2]
  · cases herror.symm.trans h

/-- A check in front of a program that returns has passed. -/
theorem returns_offDisk {α β : Type} {y : Except PluginError α} {k : α → PluginCall β} {b : β}
    (h : Returns (offDisk y >>= k) t b t') : ∃ a, y = .ok a ∧ Returns (k a) t b t' := by
  cases y with
  | ok a => exact ⟨a, rfl, h⟩
  | error e => cases h

/-- Making directories makes none at a place that is not above. -/
theorem mkdirs_noDirectory {p q : Place} (h : t.mkdirs p = .ok t')
    (hq : t.disk q ≠ some .directory) (habove : ¬ q <+: p) : t'.disk q ≠ some .directory := by
  have hd : t.disk.mkdirs p = .ok t'.disk := FileTree.lift_ok.mp h
  rcases Files.mkdirs_ok hd q with heq | ⟨hbelow, -, -⟩
  · rwa [heq]
  · exact absurd hbelow habove

/-- Writing a file makes no directory. -/
theorem write_noDirectory {d d' : Disk Place} {p q : Place} {bytes : ByteArray}
    (h : d.writeBytes p bytes = .ok d') (hq : d q ≠ some .directory) :
    d' q ≠ some .directory := by
  rw [(Files.writeBytes_ok h).2]
  by_cases heq : q = p
  · rw [heq, Files.write_same]
    nofun
  · rwa [Files.write_other d bytes heq]

/-- What is done to keep a target, on the files, when there is no directory at the backup. -/
theorem returns_saveBackup {scope : PluginConfigScope} {target backup : Place}
    {saved : Option String} (hbackup : t.disk backup ≠ some .directory)
    (h : Returns (saveBackup env roots scope target backup) t saved t') :
    t'.fileAt = (if (t.fileAt target).isSome then
        Function.update t.fileAt backup (t.fileAt target) else t.fileAt) ∧
      ∀ q, t.disk q ≠ some .directory → (q <+: backup → q = backup) →
        t'.disk q ≠ some .directory := by
  obtain ⟨present, t₀, hpresent, h⟩ := Program.returns_bind.mp h
  obtain ⟨rfl, rfl⟩ := (returns_pathExists target t).unique hpresent
  cases htarget : t.disk.present target with
  | false =>
    rw [htarget] at h
    obtain ⟨-, rfl⟩ := Program.returns_pure.mp h
    have hnone : t'.fileAt target = none := (Files.fileAt_of_absent htarget).2
    rw [hnone]
    exact ⟨rfl, fun q hq _ => hq⟩
  | true =>
    rw [htarget] at h
    obtain ⟨_, t₁, hmkdirs, h⟩ := Program.returns_bind.mp h
    obtain ⟨_, t₂, hcopy, h⟩ := Program.returns_bind.mp h
    obtain ⟨key, -, h⟩ := returns_offDisk h
    obtain ⟨-, rfl⟩ := Program.returns_pure.mp h
    have hmade := returns_changeFiles hmkdirs
    have hcopied := returns_changeFiles hcopy
    obtain ⟨hsame, hentry⟩ := FileTree.mkdirs_parent hmade
    have hfiles : t₁.fileAt = t.fileAt := hsame
    obtain ⟨bytes, hbytes, -, hupdate⟩ := FileTree.copy2_fileAt hcopied
    rw [Files.copyTarget_of_not_directory (by rwa [hentry]), hfiles] at hupdate
    rw [hfiles] at hbytes
    rw [hbytes]
    refine ⟨hupdate, fun q hq habove => ?_⟩
    have hq₁ : t₁.disk q ≠ some .directory := by
      by_cases heq : q = backup
      · rw [heq, hentry]
        exact hbackup
      · refine mkdirs_noDirectory hmade hq fun hbelow => heq (habove ?_)
        exact hbelow.trans (Files.Place.parent_above backup)
    obtain ⟨_, -, hwrite⟩ := Files.copy2_writes (FileTree.lift_ok.mp hcopied)
    exact write_noDirectory hwrite hq₁

/-- One turn of apply is `install`, on the files, and makes no directory where a backup goes. -/
theorem returns_applyOperation {target backup : Place} {a : AppliedConfig}
    (hguards : applyGuards env roots x = .ok (target, backup))
    (hbackup : t.disk backup ≠ some .directory) (habove : ¬ backup <+: target)
    (h : Returns (applyOperation env roots x) t a t') :
    t'.fileAt = install (canonicalJsonBytes env x.1.content) t.fileAt (target, backup) ∧
      ∀ q, t.disk q ≠ some .directory → ¬ q <+: target → (q <+: backup → q = backup) →
        t'.disk q ≠ some .directory := by
  obtain ⟨htargetOk, hbackupOk⟩ := applyGuards_ok.mp hguards
  unfold applyOperation at h
  rw [offDisk_ok htargetOk, offDisk_ok hbackupOk] at h
  obtain ⟨_, t₁, hmkdirs, h⟩ := Program.returns_bind.mp h
  obtain ⟨saved, t₂, hsave, h⟩ := Program.returns_bind.mp h
  obtain ⟨_, t₃, hwrite, h⟩ := Program.returns_bind.mp h
  obtain ⟨key, -, h⟩ := returns_offDisk h
  obtain ⟨-, rfl⟩ := Program.returns_pure.mp h
  have hmade := returns_changeFiles hmkdirs
  have hwritten := returns_changeFiles hwrite
  have hfiles : t₁.fileAt = t.fileAt := (FileTree.mkdirs_parent hmade).1
  have hdirs (q : Place) (hq : t.disk q ≠ some .directory) (hqt : ¬ q <+: target) :
      t₁.disk q ≠ some .directory :=
    mkdirs_noDirectory hmade hq fun hbelow => hqt (hbelow.trans (Files.Place.parent_above target))
  obtain ⟨hsaved, hdirs₂⟩ := returns_saveBackup (hdirs backup hbackup habove) hsave
  rw [hfiles] at hsaved
  constructor
  · rw [FileTree.writeBytes_fileAt hwritten, hsaved]
    rfl
  · intro q hq hqt hqb
    exact write_noDirectory (FileTree.lift_ok.mp hwritten) (hdirs₂ q (hdirs q hq hqt) hqb)

/-- The loop of apply, on the files. -/
theorem files_of_applied {all : List (PluginInstallOperation × PluginRollbackOperation)}
    (hplanned : ∀ x ∈ all, PlannedStep env content x)
    (hguards : ∀ x ∈ all, ∃ places, applyGuards env roots x = .ok places) :
    (∀ x ∈ steps, x ∈ all) → ∀ t applied, BackupsApart t (all.map (stepPlaces env)) →
      Returns (Program.forEach steps (applyOperation env roots)) t applied t' →
      t'.fileAt = (steps.map (stepPlaces env)).foldl (install (canonicalJsonBytes env content))
        t.fileAt := by
  induction steps with
  | nil =>
    intro _ t applied _ h
    cases h
    rfl
  | cons x rest ih =>
    intro hmem t applied hapart h
    obtain ⟨a, t₁, hfirst, h⟩ := Program.returns_bind.mp h
    obtain ⟨as, t₂, hrest, h⟩ := Program.returns_bind.mp h
    obtain ⟨-, rfl⟩ := Program.returns_pure.mp h
    have hx : x ∈ all := hmem x List.mem_cons_self
    have hplace : stepPlaces env x ∈ all.map (stepPlaces env) := List.mem_map_of_mem hx
    obtain ⟨places, hplaces⟩ := hguards x hx
    obtain ⟨-, heq⟩ := stepPlaces_of_guards hplaces
    rw [heq] at hplace
    obtain ⟨target, backup⟩ := places
    obtain ⟨hfiles, hdirs⟩ := returns_applyOperation hplaces (hapart.noDirectory _ hplace)
      (hapart.target _ hplace _ hplace) hfirst
    -- the backups are still free of directories, so the rest runs as it would have
    have hapart₁ : BackupsApart t₁ (all.map (stepPlaces env)) := by
      refine ⟨hapart.target, hapart.backup, fun y hy => ?_⟩
      refine hdirs y.2 (hapart.noDirectory y hy) (hapart.target y hy _ hplace) fun hbelow => ?_
      exact ((apart_of_planned hplanned hapart).sameBackup y hy _ hplace).mpr
        (hapart.backup y hy _ hplace hbelow)
    rw [ih (fun y hy => hmem y (List.mem_cons_of_mem x hy)) t₁ as hapart₁ hrest, hfiles,
      (hplanned x hx).content_eq, List.map_cons, List.foldl_cons, heq]

/-! ## What apply records -/

/-- The content that every step writes is recorded under the key of every target. -/
theorem get_recorded {digest : String} {applied : List AppliedConfig}
    (hdigest : ∀ a ∈ applied, a.digest = digest) :
    ∀ (d : Dict String) (key : String), (d.get key = some digest ∨ ∃ a ∈ applied, a.key = key) →
      Dict.get (applied.foldl (fun (d : Dict String) a => Dict.set d a.key a.digest) d) key =
        some digest := by
  induction applied with
  | nil => exact fun d key h => h.resolve_right fun ⟨a, ha, _⟩ => List.not_mem_nil ha
  | cons a rest ih =>
    intro d key h
    rw [List.foldl_cons]
    refine ih (fun b hb => hdigest b (List.mem_cons_of_mem a hb)) _ key ?_
    rw [Dict.get_set, hdigest a List.mem_cons_self]
    by_cases hkey : a.key = key
    · exact Or.inl (if_pos hkey)
    · rw [if_neg hkey]
      rcases h with h | ⟨b, hb, hname⟩
      · exact Or.inl h
      · rcases List.mem_cons.mp hb with rfl | hb
        · exact absurd hname hkey
        · exact Or.inr ⟨b, hb, hname⟩

theorem keysNodup_recorded (applied : List AppliedConfig) : ∀ {d : Dict String}, d.KeysNodup →
    Dict.KeysNodup (applied.foldl (fun (d : Dict String) a => Dict.set d a.key a.digest) d) := by
  induction applied with
  | nil => exact fun h => h
  | cons a rest ih => exact fun h => ih (Dict.keysNodup_set h a.key a.digest)

/-- What the turns record: the digest of what each of them writes, under the key of its target. -/
theorem recorded_of_recordedConfigs :
    ∀ {t : FileTree} {applied : List AppliedConfig},
      recordedConfigs env roots t steps = .ok applied →
      (∀ a ∈ applied, ∃ x ∈ steps, a.digest = env.sha256 (canonicalJsonBytes env x.1.content)) ∧
        ∀ x ∈ steps, ∀ places key, applyGuards env roots x = .ok places →
          inventoryPath env roots places.1 x.1.scope = .ok key → ∃ a ∈ applied, a.key = key := by
  induction steps with
  | nil =>
    intro t applied h
    cases h
    exact ⟨fun a ha => absurd ha List.not_mem_nil, fun x hx => absurd hx List.not_mem_nil⟩
  | cons x rest ih =>
    intro t applied h
    unfold recordedConfigs at h
    cases hfirst : recordedConfig env roots t x with
    | error e =>
      rw [hfirst] at h
      cases h
    | ok a =>
      rw [hfirst] at h
      cases hrest : recordedConfigs env roots (applyAfter env roots t x) rest with
      | error e =>
        simp only [hrest] at h
        cases h
      | ok as =>
        simp only [hrest] at h
        cases h
        obtain ⟨hdigests, hkeys⟩ := ih hrest
        -- what this turn records
        have hthis : a.digest = env.sha256 (canonicalJsonBytes env x.1.content) ∧
            ∀ places key, applyGuards env roots x = .ok places →
              inventoryPath env roots places.1 x.1.scope = .ok key → a.key = key := by
          unfold recordedConfig at hfirst
          split at hfirst
          · cases hfirst
          rename_i target backup hguards
          split at hfirst
          · rename_i key backupKey hkey hbackupKey
            cases hfirst
            refine ⟨rfl, fun places key' hguards' hkey' => ?_⟩
            cases hguards.symm.trans hguards'
            exact Except.ok.inj (hkey.symm.trans hkey')
          · cases hfirst
          · cases hfirst
        constructor
        · intro b hb
          rcases List.mem_cons.mp hb with rfl | hb
          · exact ⟨x, List.mem_cons_self, hthis.1⟩
          · obtain ⟨y, hy, hdigest⟩ := hdigests b hb
            exact ⟨y, List.mem_cons_of_mem x hy, hdigest⟩
        · intro y hy places key hguards hkey
          rcases List.mem_cons.mp hy with rfl | hy
          · exact ⟨a, List.mem_cons_self, hthis.2 places key hguards hkey⟩
          · obtain ⟨b, hb, hname⟩ := hkeys y hy places key hguards hkey
            exact ⟨b, List.mem_cons_of_mem a hb, hname⟩

end Apply

/-! ## What an apply returns -/

/-- What apply did when it returned. -/
structure Applied (env : PluginEnv) (plan : PluginInstallerDryRun) (roots : PluginRoots)
    (result : Checked PluginOperationResult) (t t' : FileTree) : Prop where
  guards : ∀ x ∈ plan.steps, ∃ places, applyGuards env roots x = .ok places
  sameLength : plan.operations.length = plan.rollback.length
  turns : ∃ applied, Returns (Program.forEach plan.steps (applyOperation env roots)) t applied t' ∧
    recordedConfigs env roots t plan.steps = .ok applied ∧
    result.1.inventory.appliedConfigHashes =
      sortedItems (applied.foldl (fun (d : Dict String) a => Dict.set d a.key a.digest) [])
  matchesPlan : validateInventoryMatchesPlan plan result.1.inventory = .ok ()

/-- A rollback that was approved, and that the operating system did not stop, has left `final`. -/
def RolledBack (env : PluginEnv) (plan : PluginInstallerDryRun) (inventory : PluginInventoryRecord)
    (workspaceRoot userConfigRoot : String) (t final : FileTree) : Prop :=
  ∃ approvalRef, validateApprovalRef approvalRef = .ok () ∧
    let out := (rollbackPluginInstallation env plan inventory workspaceRoot userConfigRoot
      approvalRef).run t
    (∀ e, out.1 = .error e → ¬ isFault e) ∧ out.2 = final

section Reversal

variable {env : PluginEnv} {plan : PluginInstallerDryRun} {inventory : PluginInventoryRecord}
  {workspaceRoot userConfigRoot approvalRef : String} {roots : PluginRoots}
  {t t' final : FileTree} {content : Json} {result : Checked PluginOperationResult}

theorem digestDiffers_self (digest : String) : digestDiffers (some digest) digest = false := by
  unfold digestDiffers
  simp

/-- The record that apply returns is that of its plan. -/
theorem applyResult_inventory {applied : List AppliedConfig}
    (h : applyResult plan approvalRef applied = .ok result) :
    validateInventoryMatchesPlan plan result.1.inventory = .ok () ∧
      result.1.inventory.appliedConfigHashes =
        sortedItems (applied.foldl (fun (d : Dict String) a => Dict.set d a.key a.digest) []) := by
  unfold applyResult at h
  obtain ⟨record, hrecord, h⟩ := bind_eq_ok.mp h
  have hinventory : result.1.inventory = record.1 := by
    rw [pluginBuild_eq h]
    rfl
  rw [hinventory, pluginBuild_eq hrecord]
  refine ⟨?_, rfl⟩
  unfold validateInventoryMatchesPlan
  simp only [Model.normalize, digestDiffers_self, ne_eq, not_true_eq_false, if_false,
    Bool.false_eq_true]

theorem applied_of_returns (h : Returns (applyPluginInstallerPlan env plan workspaceRoot
    userConfigRoot approvalRef) t result t') :
    ∃ roots, resolvedRoots env workspaceRoot userConfigRoot = .ok roots ∧
      Applied env plan roots result t t' := by
  unfold applyPluginInstallerPlan at h
  obtain ⟨-, -, h⟩ := returns_offDisk h
  obtain ⟨roots, hroots, h⟩ := returns_offDisk h
  obtain ⟨_, hvalid, h⟩ := returns_offDisk h
  obtain ⟨applied, t₁, hloop, h⟩ := Program.returns_bind.mp h
  have hresult : applyResult plan approvalRef applied = .ok result ∧ t₁ = t' := by
    cases hfinal : applyResult plan approvalRef applied with
    | error e =>
      rw [hfinal] at h
      cases h
    | ok r =>
      rw [hfinal] at h
      obtain ⟨rfl, rfl⟩ := Program.returns_pure.mp h
      exact ⟨rfl, rfl⟩
  obtain ⟨hresult, rfl⟩ := hresult
  obtain ⟨hmatches, hhashes⟩ := applyResult_inventory hresult
  refine ⟨roots, hroots, guards_of_validated hvalid, ?_, ?_, hmatches⟩
  · unfold validateApplyPlan at hvalid
    split at hvalid
    · cases hvalid
    split at hvalid
    · cases hvalid
    · rename_i hlength
      exact not_not.mp hlength
  · exact ⟨applied, hloop, returns_applyOperations (rootsResolved hroots) _ _ _ _ hloop, hhashes⟩

/-- The record holds the digest of the content under the key of every target. -/
theorem Applied.expectedDigest (h : Applied env plan roots result t t')
    (hplanned : ∀ x ∈ plan.steps, PlannedStep env content x)
    {x : PluginInstallOperation × PluginRollbackOperation} (hx : x ∈ plan.steps)
    {places : Place × Place} {key : String} (hguards : applyGuards env roots x = .ok places)
    (hkey : inventoryPath env roots places.1 x.1.scope = .ok key) :
    Vad.expectedDigest result.1.inventory key =
      .ok (env.sha256 (canonicalJsonBytes env content)) := by
  obtain ⟨applied, -, hrecorded, hhashes⟩ := h.turns
  obtain ⟨hdigests, hkeys⟩ := recorded_of_recordedConfigs hrecorded
  have hsame : ∀ a ∈ applied, a.digest = env.sha256 (canonicalJsonBytes env content) := by
    intro a ha
    obtain ⟨y, hy, hdigest⟩ := hdigests a ha
    rw [hdigest, (hplanned y hy).content_eq]
  have hget : Dict.get result.1.inventory.appliedConfigHashes key =
      some (env.sha256 (canonicalJsonBytes env content)) := by
    rw [hhashes, get_sortedItems (keysNodup_recorded applied (show Dict.KeysNodup [] from List.nodup_nil))]
    exact get_recorded hsame [] key (Or.inr (hkeys x hx places key hguards hkey))
  unfold Vad.expectedDigest
  rw [hget]

/-- Every step of the plan passes the checks of rollback. -/
theorem Applied.rollbackStep (h : Applied env plan roots result t t')
    (hroots : RootsResolved env roots) (hplanned : ∀ x ∈ plan.steps, PlannedStep env content x)
    {x : PluginInstallOperation × PluginRollbackOperation} (hx : x ∈ plan.steps) :
    ∃ key, Vad.rollbackStep env roots result.1.inventory x =
      .ok (⟨(stepPlaces env x).1, key, env.sha256 (canonicalJsonBytes env content)⟩,
        (stepPlaces env x).2) := by
  obtain ⟨places, hguards⟩ := h.guards x hx
  obtain ⟨⟨key, hkey⟩, -⟩ := inventoryPaths_of_guards hroots hguards
  obtain ⟨htarget, hbackup⟩ := applyGuards_ok.mp hguards
  refine ⟨key, ?_⟩
  unfold Vad.rollbackStep
  rw [htarget, hbackup]
  show (inventoryPath env roots places.1 x.1.scope >>= fun key => _) = _
  rw [hkey]
  show (Vad.expectedDigest result.1.inventory key >>= fun expected => _) = _
  rw [h.expectedDigest hplanned hx hguards hkey, (stepPlaces_of_guards hguards).2]
  rfl

/-! ## Rollback, on the files -/

/-- The turns of a rollback whose checks pass are `putBack`. -/
theorem foldl_rollbackAfter {digest : String}
    {xs : List (PluginInstallOperation × PluginRollbackOperation)}
    (hsteps : ∀ x ∈ xs, ∃ key, rollbackStep env roots inventory x =
      .ok (⟨(stepPlaces env x).1, key, digest⟩, (stepPlaces env x).2)) :
    ∀ files : Place → Option ByteArray, xs.foldl (rollbackAfter env roots inventory) files =
      (xs.map (stepPlaces env)).foldl putBack files := by
  induction xs with
  | nil => exact fun _ => rfl
  | cons x rest ih =>
    intro files
    obtain ⟨key, hstep⟩ := hsteps x List.mem_cons_self
    have hafter : rollbackAfter env roots inventory files x = putBack files (stepPlaces env x) := by
      unfold rollbackAfter putBack
      rw [hstep]
    rw [List.foldl_cons, hafter, ih fun y hy => hsteps y (List.mem_cons_of_mem x hy)]
    rfl

/-- What a rollback leaves in which no turn is refused. -/
theorem files_of_rolledBack (hroots : resolvedRoots env workspaceRoot userConfigRoot = .ok roots)
    (hmatches : validateInventoryMatchesPlan plan inventory = .ok ())
    (hpasses : ¬ Program.Refused (rollbackRefuses env roots inventory)
      (rollbackAfter env roots inventory) t.fileAt plan.steps)
    (h : RolledBack env plan inventory workspaceRoot userConfigRoot t final) :
    final.fileAt = plan.steps.foldl (rollbackAfter env roots inventory) t.fileAt := by
  obtain ⟨ref, href, h⟩ := h
  unfold rollbackPluginInstallation at h
  rw [offDisk_ok href, offDisk_ok hroots, offDisk_ok hmatches] at h
  obtain ⟨hnofault, rfl⟩ := h
  rcases Program.run_turns (@turns_rollback env roots inventory)
      plan.steps t with ⟨e, t₁, herror, hfault⟩ | ⟨hrefused, -⟩ | ⟨-, writes, t₁, hret⟩
  · exact absurd hfault (hnofault e (congrArg Prod.fst (Program.run_bind_of_error herror)))
  · exact absurd hrefused hpasses
  · rw [Program.run_bind_of_returns hret]
    exact (Program.returns_turns turns_rollback hret).2

/-- No turn of a rollback behind its apply is refused: every target holds what was written. -/
theorem Applied.rollback_passes (h : Applied env plan roots result t t')
    (hroots : RootsResolved env roots) (hplanned : ∀ x ∈ plan.steps, PlannedStep env content x)
    (hapart : Apart (plan.places env))
    (hfiles : t'.fileAt = (plan.places env).foldl (install (canonicalJsonBytes env content))
      t.fileAt) :
    ¬ Program.Refused (rollbackRefuses env roots result.1.inventory)
      (rollbackAfter env roots result.1.inventory) t'.fileAt plan.steps := by
  rw [Program.refused_iff]
  rintro ⟨ran, x, rest, hsplit, hrefuses⟩
  have hstep : ∀ y ∈ plan.steps, ∃ key, Vad.rollbackStep env roots result.1.inventory y =
      .ok (⟨(stepPlaces env y).1, key, env.sha256 (canonicalJsonBytes env content)⟩,
        (stepPlaces env y).2) := fun y hy => h.rollbackStep hroots hplanned hy
  have hran : ∀ y ∈ ran, y ∈ plan.steps := fun y hy => hsplit ▸ List.mem_append_left _ hy
  have hx : x ∈ plan.steps := hsplit ▸ List.mem_append_right _ List.mem_cons_self
  obtain ⟨key, hkey⟩ := hstep x hx
  obtain ⟨bytes, hbytes, hdrifted⟩ := hrefuses _ hkey
  have hplaces : plan.places env =
      ran.map (stepPlaces env) ++ stepPlaces env x :: rest.map (stepPlaces env) := by
    unfold PluginInstallerDryRun.places
    rw [hsplit, List.map_append, List.map_cons]
  rw [foldl_rollbackAfter fun y hy => hstep y (hran y hy), hfiles, hplaces] at hbytes
  rw [hplaces] at hapart
  have hheld := @Backup.holds_new_in_turn _ _ _ (canonicalJsonBytes env content) t.fileAt
    _ _ _ hapart
  cases hheld.symm.trans hbytes
  exact hdrifted rfl

/-- The targets named in the plan are the targets of its steps. -/
theorem Applied.configsRestored_iff (h : Applied env plan roots result t t') {after : FileTree} :
    ConfigsRestored env plan t after ↔
      ∀ x ∈ plan.places env, after.fileAt x.1 = t.fileAt x.1 := by
  constructor
  · intro hrestored x hx
    obtain ⟨step, hstep, rfl⟩ := List.mem_map.mp hx
    obtain ⟨places, hguards⟩ := h.guards step hstep
    obtain ⟨hresolve, heq⟩ := stepPlaces_of_guards hguards
    rw [heq]
    exact hrestored step.1 (List.of_mem_zip hstep).1 places.1 hresolve
  · intro hplaces o ho p hp
    -- every operation has its rollback beside it
    have hops : plan.steps.map Prod.fst = plan.operations := List.map_fst_zip h.sameLength.le
    rw [← hops] at ho
    obtain ⟨step, hstep, rfl⟩ := List.mem_map.mp ho
    have hplace := hplaces _ (List.mem_map_of_mem hstep)
    have htarget : (stepPlaces env step).1 = p := place_eq hp
    rwa [htarget] at hplace

/-- With its backups apart, a rollback behind its apply restores the configs exactly when no
    missing one has a backup of another time, and each repeated one held the content already. -/
theorem Applied.rollback_restores_iff (h : Applied env plan roots result t t')
    (hroots : resolvedRoots env workspaceRoot userConfigRoot = .ok roots)
    (hplanned : ∀ x ∈ plan.steps, PlannedStep env content x)
    (hapart : BackupsApart t (plan.places env))
    (hrolled : RolledBack env plan result.1.inventory workspaceRoot userConfigRoot t' final) :
    ConfigsRestored env plan t final ↔
      Reversible (canonicalJsonBytes env content) t.fileAt (plan.places env) := by
  have hdistinct : Apart (plan.places env) := apart_of_planned hplanned hapart
  obtain ⟨applied, hloop, -, -⟩ := h.turns
  have hinstalled : t'.fileAt = (plan.places env).foldl (install (canonicalJsonBytes env content))
      t.fileAt := files_of_applied hplanned h.guards (fun _ hx => hx) t applied hapart hloop
  have hresolved := rootsResolved hroots
  have hfinal := files_of_rolledBack hroots h.matchesPlan
    (h.rollback_passes hresolved hplanned hdistinct hinstalled) hrolled
  rw [foldl_rollbackAfter fun y hy => h.rollbackStep hresolved hplanned hy, hinstalled] at hfinal
  rw [h.configsRestored_iff, hfinal]
  exact Backup.putBack_restores_iff hdistinct

/-! ## With an uninstall in between -/

/-- What uninstall leaves at a target: nothing, once an operation has removed it. -/
theorem foldl_uninstallAfter {p : Place} : ∀ {ops : List PluginInstallOperation}
    {files : Place → Option ByteArray},
    (files p = none ∨ ∃ o ∈ ops, ∃ step, uninstallStep env roots inventory o = .ok step ∧
      step.target = p) →
    ops.foldl (uninstallAfter env roots inventory) files p = none := by
  intro ops
  induction ops with
  | nil =>
    rintro files (hnone | ⟨o, ho, -⟩)
    · exact hnone
    · exact absurd ho List.not_mem_nil
  | cons o rest ih =>
    intro files h
    rw [List.foldl_cons]
    refine ih ?_
    unfold uninstallAfter
    cases hstep : uninstallStep env roots inventory o with
    | ok step =>
      show Function.update files step.target none p = none ∨ _
      by_cases hp : p = step.target
      · exact Or.inl (by rw [hp]; exact Function.update_self ..)
      · rw [Function.update_of_ne hp]
        refine h.imp_right ?_
        rintro ⟨o', ho', step', hstep', htarget⟩
        rcases List.mem_cons.mp ho' with rfl | ho'
        · cases hstep.symm.trans hstep'
          exact absurd htarget.symm hp
        · exact ⟨o', ho', step', hstep', htarget⟩
    | error e =>
      refine h.imp_right ?_
      rintro ⟨o', ho', step', hstep', htarget⟩
      rcases List.mem_cons.mp ho' with rfl | ho'
      · cases hstep.symm.trans hstep'
      · exact ⟨o', ho', step', hstep', htarget⟩

/-- An uninstall that returns has removed every target, and its record holds no hash. -/
theorem removed_of_uninstalled
    (h : Returns (uninstallPluginInstallation env plan inventory workspaceRoot userConfigRoot
      approvalRef) t result t') :
    (∀ o ∈ plan.operations, ∀ p, env.resolve o.path = .ok p → t'.fileAt p = none) ∧
      result.1.inventory.appliedConfigHashes = [] := by
  unfold uninstallPluginInstallation at h
  obtain ⟨-, -, h⟩ := returns_offDisk h
  obtain ⟨roots, hroots, h⟩ := returns_offDisk h
  obtain ⟨-, -, h⟩ := returns_offDisk h
  obtain ⟨writes, t₁, hloop, h⟩ := Program.returns_bind.mp h
  have hresult : uninstallResult plan inventory approvalRef writes = .ok result ∧ t₁ = t' := by
    cases hfinal : uninstallResult plan inventory approvalRef writes with
    | error e =>
      rw [hfinal] at h
      cases h
    | ok r =>
      rw [hfinal] at h
      obtain ⟨rfl, rfl⟩ := Program.returns_pure.mp h
      exact ⟨rfl, rfl⟩
  obtain ⟨hresult, rfl⟩ := hresult
  constructor
  · intro o ho p hp
    obtain ⟨hpasses, hfiles⟩ := Program.returns_turns turns_uninstall hloop
    rw [hfiles]
    refine foldl_uninstallAfter (Or.inr ⟨o, ho, ?_⟩)
    -- an operation whose checks fail would have been refused
    obtain ⟨ran, rest, hsplit⟩ := List.append_of_mem ho
    have hpassed : ¬ uninstallRefuses env roots inventory
        (ran.foldl (uninstallAfter env roots inventory) t.fileAt) o := fun hrefuses =>
      hpasses (Program.refused_iff.mpr ⟨ran, o, rest, hsplit, hrefuses⟩)
    unfold uninstallRefuses at hpassed
    push Not at hpassed
    obtain ⟨step, hstep, -⟩ := hpassed
    refine ⟨step, hstep, ?_⟩
    unfold uninstallStep at hstep
    obtain ⟨target, htarget, hstep⟩ := bind_eq_ok.mp hstep
    obtain ⟨key, -, hstep⟩ := bind_eq_ok.mp hstep
    obtain ⟨expected, -, hstep⟩ := bind_eq_ok.mp hstep
    cases hstep
    exact Except.ok.inj ((resolve_of_guarded htarget).symm.trans hp)
  · rw [pluginBuild_eq hresult]
    rfl

/-- A rollback whose record holds no hash changes nothing. -/
theorem rolledBack_withoutHashes (hhashes : inventory.appliedConfigHashes = [])
    (h : RolledBack env plan inventory workspaceRoot userConfigRoot t final) : final = t := by
  have hthrough {α β : Type} {x : Except PluginError α} {k : α → PluginCall β}
      (hk : ∀ a, ((k a).run t).2 = t) : ((offDisk x >>= k).run t).2 = t := by
    cases x with
    | ok a => exact hk a
    | error e => rfl
  have hstep (roots : PluginRoots) (x : PluginInstallOperation × PluginRollbackOperation) :
      ∃ e, rollbackStep env roots inventory x = .error e := by
    cases hresult : rollbackStep env roots inventory x with
    | error e => exact ⟨e, rfl⟩
    | ok step =>
      unfold rollbackStep at hresult
      obtain ⟨target, -, hresult⟩ := bind_eq_ok.mp hresult
      obtain ⟨backup, -, hresult⟩ := bind_eq_ok.mp hresult
      obtain ⟨key, -, hresult⟩ := bind_eq_ok.mp hresult
      obtain ⟨expected, hexpected, -⟩ := bind_eq_ok.mp hresult
      unfold expectedDigest at hexpected
      rw [hhashes] at hexpected
      cases hexpected
  obtain ⟨ref, -, -, rfl⟩ := h
  unfold rollbackPluginInstallation
  refine hthrough fun _ => hthrough fun roots => hthrough fun _ => ?_
  cases plan.steps with
  | nil => rfl
  | cons x rest =>
    obtain ⟨e, he⟩ := hstep roots x
    have herror : (Program.forEach (x :: rest) fun x => do
        let step ← offDisk (rollbackStep env roots inventory x)
        restoreConfig env step).run t = (.error e, t) :=
      Program.run_bind_of_error (run_offDisk_error he)
    rw [Program.run_bind_of_error herror]

end Reversal

/-! ## The result -/

/-- The content that a plan made from the manifest writes. -/
def configBytes (env : PluginEnv) (m : VADPluginManifest) (signature : Option SignatureEnvelope)
    (signer : Option LocalDevelopmentSigner) : ByteArray :=
  canonicalJsonBytes env (pluginConfigContent m (verifyPluginArtifact env m signature signer))

section Sample

/-- A manifest with one config in the workspace. -/
def smallManifest : VADPluginManifest where
  pluginId := "p"
  targetClient := .codex
  version := "1"
  command := ⟨"run", [], []⟩
  configPaths := [⟨.workspace, "a", true⟩]
  checksums := []

/-- The files of a workspace with the config and its backup, where they are. -/
def workspaceDisk (config backup : Option ByteArray) : Disk Place
  | [] => some .directory
  | ["w"] => some .directory
  | ["u"] => some .directory
  | ["w", "a"] => config.map .file
  | ["w", "a.vad-backup"] => backup.map .file
  | _ => none

def workspaceTree (config backup : Option ByteArray) : FileTree where
  disk := workspaceDisk config backup
  grounded := by
    refine ⟨rfl, fun p hp => ?_⟩
    unfold workspaceDisk at hp
    split at hp
    all_goals first
      | rfl
      | exact absurd rfl hp

/-- Make the plan, apply it and roll it back. -/
def applyAndRollBack (env : PluginEnv) (m : VADPluginManifest)
    (workspaceRoot userConfigRoot approvalRef : String) :
    PluginCall (Checked PluginOperationResult) := do
  let plan ← offDisk (createPluginInstallerDryRun env m workspaceRoot userConfigRoot none none)
  let result ← applyPluginInstallerPlan env plan.1 workspaceRoot userConfigRoot approvalRef
  rollbackPluginInstallation env plan.1 result.1.inventory workspaceRoot userConfigRoot approvalRef

theorem applyAndRollBack_runs {env : PluginEnv} {m : VADPluginManifest}
    {workspaceRoot userConfigRoot approvalRef : String} {t : FileTree}
    (h : ((applyAndRollBack env m workspaceRoot userConfigRoot approvalRef).run t).1.isOk = true) :
    ∃ plan result after,
      createPluginInstallerDryRun env m workspaceRoot userConfigRoot none none = .ok plan ∧
      Returns (applyPluginInstallerPlan env plan.1 workspaceRoot userConfigRoot approvalRef) t
        result after ∧
      RolledBack env plan.1 result.1.inventory workspaceRoot userConfigRoot after
        ((applyAndRollBack env m workspaceRoot userConfigRoot approvalRef).run t).2 := by
  obtain ⟨undone, hreturns⟩ := Program.returns_run h
  generalize ((applyAndRollBack env m workspaceRoot userConfigRoot approvalRef).run t).2 = final
    at hreturns ⊢
  obtain ⟨plan, hplan, hall⟩ := returns_offDisk hreturns
  obtain ⟨result, after, happlied, hundone⟩ := Program.returns_bind.mp hall
  obtain ⟨_, href, -⟩ := returns_offDisk happlied
  refine ⟨plan, result, after, hplan, happlied, approvalRef, href, ?_⟩
  rw [show (rollbackPluginInstallation env plan.1 result.1.inventory workspaceRoot userConfigRoot
    approvalRef).run after = _ from hundone]
  exact ⟨fun e he => (nomatch he), rfl⟩

/-- The paths of the plan that is made from the manifest. -/
theorem smallManifest_paths {plan : Checked PluginInstallerDryRun}
    (h : createPluginInstallerDryRun smallEnv smallManifest "/w" "/u" none none = .ok plan) :
    plan.1.operations.map PluginInstallOperation.path = ["/w/a"] ∧
      plan.1.places smallEnv = [(["w", "a"], ["w", "a.vad-backup"])] := by
  have hpaths : (match createPluginInstallerDryRun smallEnv smallManifest "/w" "/u" none none with
      | .ok plan => plan.1.operations.map PluginInstallOperation.path
      | .error _ => []) = ["/w/a"] := by decide
  have hplaces : (match createPluginInstallerDryRun smallEnv smallManifest "/w" "/u" none none with
      | .ok plan => plan.1.places smallEnv
      | .error _ => []) = [(["w", "a"], ["w", "a.vad-backup"])] := by decide
  rw [h] at hpaths hplaces
  exact ⟨hpaths, hplaces⟩

end Sample

end Vad
