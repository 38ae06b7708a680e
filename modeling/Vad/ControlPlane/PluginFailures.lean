/-
  What the plugin writers leave behind when they raise.

  The documentation promises that uninstall and rollback verify content hashes before mutation.
  They do so operation by operation in the loop that mutates, and all three writers build their
  result models behind it; so a `ValueError` at operation `k`, or at the very end, can come after
  changes (`second_drifted`).

  1. **Turns** — one turn of each loop as a checked loop sees it: when it is refused, when it would
     change a file, and what it leaves (`turns_uninstall`, `turns_rollback`, `turns_apply`).
  2. **Settled** — the loop is quiet, which means that no file changes before the first refusal; or
     nothing is refused and the result models accept what they are given.
  3. **The result** — `writers_failClean`: a settled writer that raises a `ValueError` has changed
     no file, and a writer that the operating system does not stop is clean only if it is settled.
-/
import Vad.ControlPlane.PluginWriters
import Vad.Lib.CheckedLoop

namespace Vad

open Atomic
open Atomic.Program (Returns Within FailsClean Turns Quiet Refused LoopSettled)
open Files (Place Disk FileTree FileError)
open Files.FileTree (SameFiles)

/-! ## Calls -/

/-- An exception that is not a `ValueError`: the operating system stopped the writer. -/
def isFault (e : PluginError) : Prop := e.isValueError = false

section Calls

variable {α β : Type} {t : FileTree}

theorem within_askFiles (f : FileTree → Except FileError α) (t : FileTree) :
    Within SameFiles (askFiles f) t := Program.within_atomic.mpr rfl

/-- A change that succeeds, or fails with a fault and changes nothing. -/
theorem run_changeFiles (f : FileTree → Except FileError FileTree) (t : FileTree) :
    (∃ t', f t = .ok t' ∧ Returns (changeFiles f) t () t' ∧
      (Within SameFiles (changeFiles f) t ↔ SameFiles t t')) ∨
    ∃ e, (changeFiles f).run t = (.error (.file e), t) := by
  unfold changeFiles Returns
  rw [Program.run_atomic, Program.within_atomic]
  cases hf : f t with
  | ok t' => exact Or.inl ⟨t', rfl, rfl, Iff.rfl⟩
  | error e => exact Or.inr ⟨e, rfl⟩

/-- A check in front of a program: if it raises, nothing was done. -/
theorem failsClean_offDisk {kind : PluginError → Prop} {x : Except PluginError α}
    {k : α → PluginCall β} : FailsClean SameFiles kind (offDisk x >>= k) t ↔
      ∀ a, x = .ok a → FailsClean SameFiles kind (k a) t := by
  cases x with
  | ok a =>
    constructor
    · intro h b hb
      cases hb
      exact h
    · exact fun h => h a rfl
  | error e => exact ⟨fun _ b hb => (by cases hb), fun _ _ _ _ => trivial⟩

theorem run_offDisk_error {e : PluginError} {x : Except PluginError α} {k : α → PluginCall β}
    (h : x = .error e) : (offDisk x >>= k).run t = (.error e, t) := by
  subst h
  rfl

theorem offDisk_ok {a : α} {x : Except PluginError α} {k : α → PluginCall β} (h : x = .ok a) :
    (offDisk x >>= k) = k a := by
  subst h
  rfl

/-- Making a result of what a program returns is not a call. -/
theorem within_bind_pure {p : PluginCall α} {g : α → β} :
    Within SameFiles (do let a ← p; pure (g a)) t ↔ Within SameFiles p t :=
  Program.within_bind_iff.trans (and_iff_left fun _ _ _ => trivial)

/-- A change of one file changes nothing exactly if the file is there already. -/
theorem sameFiles_update {t' : FileTree} {p : Place} {content : Option ByteArray}
    (h : t'.fileAt = Function.update t.fileAt p content) :
    SameFiles t t' ↔ t.fileAt p = content := by
  unfold SameFiles
  rw [h, Function.update_eq_self_iff]
  exact eq_comm

end Calls

/-! ## The check against the recorded hash -/

/-- The file at the target is not the one that was recorded. -/
def Drifted (env : PluginEnv) (files : Place → Option ByteArray) (step : UndoStep) : Prop :=
  ∃ bytes, files step.target = some bytes ∧ env.sha256 bytes ≠ step.expected

section Undo

variable {env : PluginEnv} {t : FileTree}

theorem returns_pathExists (p : Place) (t : FileTree) :
    Returns (pathExists p) t (t.disk.present p) t := rfl

theorem within_pathExists (p : Place) (t : FileTree) : Within SameFiles (pathExists p) t :=
  within_askFiles _ t

/-- The check reads only. -/
theorem within_checkUndrifted (step : UndoStep) : Within SameFiles (checkUndrifted env step) t := by
  unfold checkUndrifted
  refine (Program.within_bind_of_returns (returns_pathExists step.target t)).mpr
    ⟨within_pathExists _ t, ?_⟩
  split
  · exact Program.within_bind (within_askFiles _ t) fun _ _ _ => trivial
  · trivial

/-- The check is refused for a file that drifted; for any other it says whether there is one, and
    where there is a directory the operating system stops it. -/
theorem run_checkUndrifted (step : UndoStep) :
    (Drifted env t.fileAt step ∧ ∃ e, (checkUndrifted env step).run t = (.error e, t)) ∨
    (¬ Drifted env t.fileAt step ∧
      ((∃ e, (checkUndrifted env step).run t = (.error (.file e), t)) ∨
        (t.disk step.target ≠ some .directory ∧
          Returns (checkUndrifted env step) t (t.fileAt step.target).isSome t))) := by
  have hrun := Program.run_bind_of_returns (k := fun present : Bool =>
    if present then do
      let bytes ← askFiles fun t => t.disk.readBytes step.target
      offDisk (if env.sha256 bytes = step.expected then .ok true
        else raiseValue ("installed plugin config drifted at " ++ step.key))
    else pure false) (returns_pathExists step.target t)
  change (checkUndrifted env step).run t = _ at hrun
  unfold Returns
  rw [hrun]
  cases hpresent : t.disk.present step.target with
  | false =>
    obtain ⟨hnone, hfile⟩ := Files.fileAt_of_absent hpresent
    change t.fileAt step.target = none at hfile
    unfold Drifted
    rw [hfile, hnone]
    refine Or.inr ⟨?_, Or.inr ⟨nofun, rfl⟩⟩
    rintro ⟨bytes, hbytes, -⟩
    cases hbytes
  | true =>
    rcases Files.fileAt_of_present hpresent with ⟨bytes, hfile⟩ | hdir
    · have hread : t.disk.readBytes step.target = .ok bytes := Files.readBytes_fileAt.mpr hfile
      have hbytes : Returns (askFiles fun t => t.disk.readBytes step.target) t bytes t := by
        show (Except.mapError PluginError.file (t.disk.readBytes step.target), t) = _
        rw [hread]
        rfl
      have hnodir : t.disk step.target ≠ some .directory := by
        rw [Files.fileAt_eq_some.mp hfile]
        nofun
      change t.fileAt step.target = some bytes at hfile
      unfold Drifted
      rw [hfile, if_pos rfl, Program.run_bind_of_returns hbytes]
      by_cases hsame : env.sha256 bytes = step.expected
      · rw [if_pos hsame]
        refine Or.inr ⟨?_, Or.inr ⟨hnodir, rfl⟩⟩
        rintro ⟨other, hother, hne⟩
        cases hother
        exact hne hsame
      · rw [if_neg hsame]
        exact Or.inl ⟨⟨bytes, rfl, hsame⟩, _, rfl⟩
    · -- a directory cannot be read
      have hread : ∃ e, t.disk.readBytes step.target = .error e := by
        unfold Disk.readBytes
        rw [hdir]
        exact ⟨_, rfl⟩
      obtain ⟨e, hread⟩ := hread
      have herror : (askFiles fun t => t.disk.readBytes step.target).run t =
          (.error (.file e), t) := by
        show (Except.mapError PluginError.file (t.disk.readBytes step.target), t) = _
        rw [hread]
        rfl
      rw [if_pos rfl, Program.run_bind_of_error herror]
      refine Or.inr ⟨?_, Or.inl ⟨e, rfl⟩⟩
      rintro ⟨bytes, hbytes, -⟩
      rw [Files.fileAt_eq_some.mp hbytes] at hdir
      cases hdir

end Undo

/-! ## The turns of uninstall -/

/-- An operation is refused when its checks fail, or the file at its target drifted. -/
def uninstallRefuses (env : PluginEnv) (roots : PluginRoots) (inventory : PluginInventoryRecord)
    (files : Place → Option ByteArray) (o : PluginInstallOperation) : Prop :=
  ∀ step, uninstallStep env roots inventory o = .ok step → Drifted env files step

/-- It would remove a file when there is one at its target. -/
def uninstallChanges (env : PluginEnv) (roots : PluginRoots) (inventory : PluginInventoryRecord)
    (files : Place → Option ByteArray) (o : PluginInstallOperation) : Prop :=
  ∃ step, uninstallStep env roots inventory o = .ok step ∧ files step.target ≠ none

/-- The files after it. -/
def uninstallAfter (env : PluginEnv) (roots : PluginRoots) (inventory : PluginInventoryRecord)
    (files : Place → Option ByteArray) (o : PluginInstallOperation) : Place → Option ByteArray :=
  match uninstallStep env roots inventory o with
  | .ok step => Function.update files step.target none
  | .error _ => files

section Turns

variable {env : PluginEnv} {roots : PluginRoots} {inventory : PluginInventoryRecord}

theorem turns_uninstall : Turns FileTree.fileAt SameFiles isFault
    (uninstallRefuses env roots inventory) (uninstallChanges env roots inventory)
    (uninstallAfter env roots inventory)
    (fun o => do
      let step ← offDisk (uninstallStep env roots inventory o)
      removeConfig env step) where
  refused o t hrefuses := by
    cases hstep : uninstallStep env roots inventory o with
    | error e => exact ⟨trivial, e, t, rfl⟩
    | ok step =>
      show Within SameFiles (removeConfig env step) t ∧ ∃ e s', (removeConfig env step).run t = _
      rcases @run_checkUndrifted env t step with ⟨-, e, herror⟩ | ⟨hsame, -⟩
      · exact ⟨(Program.within_bind_of_error herror).mpr (within_checkUndrifted step), e, t,
          Program.run_bind_of_error herror⟩
      · exact absurd (hrefuses step hstep) hsame
  passed o t hpasses := by
    unfold uninstallRefuses at hpasses
    push Not at hpasses
    obtain ⟨step, hstep, hsame⟩ := hpasses
    simp only [offDisk_ok hstep]
    have hafter : uninstallAfter env roots inventory t.fileAt o =
        Function.update t.fileAt step.target none := by
      unfold uninstallAfter
      rw [hstep]
    have hchanges : uninstallChanges env roots inventory t.fileAt o ↔
        t.fileAt step.target ≠ none := by
      constructor
      · rintro ⟨step', hstep', hfile⟩
        cases hstep.symm.trans hstep'
        exact hfile
      · exact fun hfile => ⟨step, hstep, hfile⟩
    rw [hafter, hchanges]
    rcases @run_checkUndrifted env t step with ⟨hdrifted, -⟩ | ⟨-, hcheck⟩
    · exact absurd hdrifted hsame
    rcases hcheck with ⟨e, herror⟩ | ⟨-, hreturns⟩
    · exact Or.inl ⟨_, t, Program.run_bind_of_error herror, rfl⟩
    have hrun : (removeConfig env step).run t = _ := Program.run_bind_of_returns hreturns
    have hwithin := Program.within_bind_of_returns (R := SameFiles) (k := fun present : Bool =>
      if present then do
        changeFiles (·.unlinkFile step.target)
        pure 1
      else (pure 0 : PluginCall Nat)) hreturns
    change Within SameFiles (removeConfig env step) t ↔ _ at hwithin
    unfold Returns
    rw [hrun, hwithin, and_iff_right (within_checkUndrifted step)]
    cases hfile : t.fileAt step.target with
    | none =>
      refine Or.inr ⟨0, t, rfl, ?_, iff_of_true trivial fun h => h rfl⟩
      rw [← hfile, Function.update_eq_self]
    | some bytes =>
      rcases run_changeFiles (·.unlinkFile step.target) t with ⟨t', hunlink, hret, hwrites⟩ |
        ⟨e, herror⟩
      · refine Or.inr ⟨1, t', Program.run_bind_of_returns hret, FileTree.unlinkFile_fileAt hunlink,
          ?_⟩
        refine within_bind_pure.trans ?_
        rw [hwrites, sameFiles_update (FileTree.unlinkFile_fileAt hunlink), hfile]
        exact iff_of_false nofun fun h => h nofun
      · exact Or.inl ⟨_, t, Program.run_bind_of_error herror, rfl⟩
  keeps files o hno := by
    unfold uninstallAfter
    split
    · rename_i step hstep
      by_contra hne
      refine hno ⟨step, hstep, fun hnone => hne ?_⟩
      rw [← hnone, Function.update_eq_self]
    · rfl

/-! ## The turns of rollback -/

/-- An operation is refused when its checks fail, or the file at its target drifted. -/
def rollbackRefuses (env : PluginEnv) (roots : PluginRoots) (inventory : PluginInventoryRecord)
    (files : Place → Option ByteArray) (x : PluginInstallOperation × PluginRollbackOperation) :
    Prop :=
  ∀ step, rollbackStep env roots inventory x = .ok step → Drifted env files step.1

/-- It would change its target when the backup is not what the target is. -/
def rollbackChanges (env : PluginEnv) (roots : PluginRoots) (inventory : PluginInventoryRecord)
    (files : Place → Option ByteArray) (x : PluginInstallOperation × PluginRollbackOperation) :
    Prop :=
  ∃ step, rollbackStep env roots inventory x = .ok step ∧ files step.1.target ≠ files step.2

/-- The files after it: the target is what the backup is. -/
def rollbackAfter (env : PluginEnv) (roots : PluginRoots) (inventory : PluginInventoryRecord)
    (files : Place → Option ByteArray) (x : PluginInstallOperation × PluginRollbackOperation) :
    Place → Option ByteArray :=
  match rollbackStep env roots inventory x with
  | .ok step => Function.update files step.1.target (files step.2)
  | .error _ => files

/-- `restore_or_remove` makes the target what the backup is, or the operating system stops it. -/
theorem run_restoreOrRemove {t : FileTree} {target backup : Place}
    (hdir : t.disk target ≠ some .directory) :
    (∃ e t', (restoreOrRemove target backup).run t = (.error (.file e), t')) ∨
      ∃ t', Returns (restoreOrRemove target backup) t 1 t' ∧
        t'.fileAt = Function.update t.fileAt target (t.fileAt backup) ∧
        (Within SameFiles (restoreOrRemove target backup) t ↔
          t.fileAt target = t.fileAt backup) := by
  have hrun := Program.run_bind_of_returns (k := fun kept : Bool =>
    if kept then do
      changeFiles (·.mkdirs target.parent)
      changeFiles (·.copy2 backup target)
      pure 1
    else do
      unlinkIfPresent target
      (pure 1 : PluginCall Nat)) (returns_pathExists backup t)
  have hwithin := Program.within_bind_of_returns (R := SameFiles) (k := fun kept : Bool =>
    if kept then do
      changeFiles (·.mkdirs target.parent)
      changeFiles (·.copy2 backup target)
      pure 1
    else do
      unlinkIfPresent target
      (pure 1 : PluginCall Nat)) (returns_pathExists backup t)
  change (restoreOrRemove target backup).run t = _ at hrun
  change Within SameFiles (restoreOrRemove target backup) t ↔ _ at hwithin
  unfold Returns
  rw [hrun, hwithin, and_iff_right (within_pathExists backup t)]
  cases hbackup : t.disk.present backup with
  | false =>
    have hnone : t.fileAt backup = none := (Files.fileAt_of_absent hbackup).2
    rw [hnone]
    simp only [Bool.false_eq_true, if_false]
    -- the target is removed, if there is one
    have hunlink := Program.run_bind_of_returns (k := fun present : Bool =>
      if present then changeFiles (·.unlinkFile target) else pure ())
      (returns_pathExists target t)
    have hunlinkWithin := Program.within_bind_of_returns (R := SameFiles) (k := fun present : Bool =>
      if present then changeFiles (·.unlinkFile target) else pure ())
      (returns_pathExists target t)
    change (unlinkIfPresent target).run t = _ at hunlink
    change Within SameFiles (unlinkIfPresent target) t ↔ _ at hunlinkWithin
    rw [and_iff_right (within_pathExists target t)] at hunlinkWithin
    cases htarget : t.disk.present target with
    | false =>
      rw [htarget] at hunlink hunlinkWithin
      have hgone : t.fileAt target = none := (Files.fileAt_of_absent htarget).2
      have hret : Returns (unlinkIfPresent target) t () t := hunlink
      refine Or.inr ⟨t, Program.run_bind_of_returns hret, ?_, ?_⟩
      · rw [← hgone, Function.update_eq_self]
      · refine within_bind_pure.trans ?_
        exact iff_of_true (hunlinkWithin.mpr trivial) hgone
    | true =>
      rw [htarget] at hunlink hunlinkWithin
      rcases run_changeFiles (·.unlinkFile target) t with ⟨t', hfile, hret, hwrites⟩ | ⟨e, herror⟩
      · have hret' : Returns (unlinkIfPresent target) t () t' := hunlink.trans hret
        have hupdate := FileTree.unlinkFile_fileAt hfile
        refine Or.inr ⟨t', Program.run_bind_of_returns hret', hupdate, ?_⟩
        refine within_bind_pure.trans ?_
        exact (hunlinkWithin.trans hwrites).trans (sameFiles_update hupdate)
      · exact Or.inl ⟨e, t, Program.run_bind_of_error (hunlink.trans herror)⟩
  | true =>
    simp only [if_true]
    rcases run_changeFiles (·.mkdirs target.parent) t with ⟨t₁, hmade, hret₁, hwrites₁⟩ |
      ⟨e, herror⟩
    · obtain ⟨hfiles, hentry⟩ := FileTree.mkdirs_parent hmade
      have hsame : t₁.fileAt = t.fileAt := hfiles
      rw [Program.run_bind_of_returns hret₁, Program.within_bind_of_returns hret₁, hwrites₁,
        and_iff_right hfiles]
      rcases run_changeFiles (·.copy2 backup target) t₁ with ⟨t₂, hcopied, hret₂, hwrites₂⟩ |
        ⟨e, herror⟩
      · obtain ⟨bytes, hbytes, -, hupdate⟩ := FileTree.copy2_fileAt hcopied
        rw [Files.copyTarget_of_not_directory (by rw [hentry]; exact hdir)] at hupdate
        rw [hsame] at hbytes
        have hafter := hupdate
        rw [hsame] at hafter
        refine Or.inr ⟨t₂, Program.run_bind_of_returns hret₂, by rw [hafter, hbytes], ?_⟩
        refine within_bind_pure.trans ?_
        rw [hwrites₂, sameFiles_update hupdate, hsame, hbytes]
      · exact Or.inl ⟨e, t₁, Program.run_bind_of_error herror⟩
    · exact Or.inl ⟨e, t, Program.run_bind_of_error herror⟩

theorem turns_rollback : Turns FileTree.fileAt SameFiles isFault
    (rollbackRefuses env roots inventory) (rollbackChanges env roots inventory)
    (rollbackAfter env roots inventory)
    (fun x => do
      let step ← offDisk (rollbackStep env roots inventory x)
      restoreConfig env step) where
  refused x t hrefuses := by
    cases hstep : rollbackStep env roots inventory x with
    | error e => exact ⟨trivial, e, t, rfl⟩
    | ok step =>
      show Within SameFiles (restoreConfig env step) t ∧ ∃ e s', (restoreConfig env step).run t = _
      rcases @run_checkUndrifted env t step.1 with ⟨-, e, herror⟩ | ⟨hsame, -⟩
      · exact ⟨(Program.within_bind_of_error herror).mpr (within_checkUndrifted step.1), e, t,
          Program.run_bind_of_error herror⟩
      · exact absurd (hrefuses step hstep) hsame
  passed x t hpasses := by
    unfold rollbackRefuses at hpasses
    push Not at hpasses
    obtain ⟨step, hstep, hsame⟩ := hpasses
    simp only [offDisk_ok hstep]
    have hafter : rollbackAfter env roots inventory t.fileAt x =
        Function.update t.fileAt step.1.target (t.fileAt step.2) := by
      unfold rollbackAfter
      rw [hstep]
    have hchanges : rollbackChanges env roots inventory t.fileAt x ↔
        t.fileAt step.1.target ≠ t.fileAt step.2 := by
      constructor
      · rintro ⟨step', hstep', hfile⟩
        cases hstep.symm.trans hstep'
        exact hfile
      · exact fun hfile => ⟨step, hstep, hfile⟩
    rw [hafter, hchanges, not_not]
    rcases @run_checkUndrifted env t step.1 with ⟨hdrifted, -⟩ | ⟨-, hcheck⟩
    · exact absurd hdrifted hsame
    rcases hcheck with ⟨e, herror⟩ | ⟨hdir, hreturns⟩
    · exact Or.inl ⟨_, t, Program.run_bind_of_error herror, rfl⟩
    have hrun : (restoreConfig env step).run t = (restoreOrRemove step.1.target step.2).run t :=
      Program.run_bind_of_returns hreturns
    have hwithin : Within SameFiles (restoreConfig env step) t ↔
        Within SameFiles (checkUndrifted env step.1) t ∧
          Within SameFiles (restoreOrRemove step.1.target step.2) t :=
      Program.within_bind_of_returns hreturns
    unfold Returns
    rw [hrun, hwithin, and_iff_right (within_checkUndrifted step.1)]
    rcases @run_restoreOrRemove _ _ step.2 hdir with ⟨e, t', herror⟩ | ⟨t', hret, hview, hclean⟩
    · exact Or.inl ⟨_, t', herror, rfl⟩
    · exact Or.inr ⟨1, t', hret, hview, hclean⟩
  keeps files x hno := by
    unfold rollbackAfter
    split
    · rename_i step hstep
      by_contra hne
      refine hno ⟨step, hstep, fun hfile => hne ?_⟩
      rw [← hfile, Function.update_eq_self]
    · rfl

end Turns

/-! ## The turns of apply -/

/-- The roots resolve to themselves, as those that a writer starts from do. -/
def RootsResolved (env : PluginEnv) (roots : PluginRoots) : Prop :=
  ∀ scope root, roots.get scope = some root → env.resolve root.text = .ok root

theorem rootsResolved {env : PluginEnv} {ws user : String} {roots : PluginRoots}
    (h : resolvedRoots env ws user = .ok roots) : RootsResolved env roots := by
  unfold resolvedRoots at h
  cases hws : env.resolve ws with
  | error e =>
    rw [hws] at h
    cases h
  | ok workspace =>
    rw [hws] at h
    change (env.resolve user >>= fun user =>
      (pure ⟨workspace, user⟩ : Except PluginError PluginRoots)) = .ok roots at h
    cases huser : env.resolve user with
    | error e =>
      rw [huser] at h
      cases h
    | ok userRoot =>
      rw [huser] at h
      cases h
      intro scope root hroot
      cases scope with
      | workspace => cases hroot; exact env.resolve_text hws
      | user => cases hroot; exact env.resolve_text huser
      | project => cases hroot

section Apply

variable {env : PluginEnv} {roots : PluginRoots} {t : FileTree}
  {x : PluginInstallOperation × PluginRollbackOperation}

/-- A guarded path is resolved, and lies under its root. -/
theorem guardedPath_ok {root p : Place} {text escapes : String}
    (hroot : env.resolve root.text = .ok root) (h : guardedPath env root text escapes = .ok p) :
    env.resolve p.text = .ok p ∧ root.under p = true := by
  unfold guardedPath at h
  split at h
  · cases h
  rename_i q hq
  have hself := env.resolve_text hq
  have hunder : pathIsUnder env q root = .ok (root.under q) := by
    unfold pathIsUnder resolveOrNone
    rw [hself, hroot]
  rw [hunder] at h
  cases hin : root.under q with
  | true =>
    rw [hin] at h
    cases h
    exact ⟨hself, hin⟩
  | false =>
    rw [hin] at h
    cases h

/-- The text under which a path below a root is recorded. -/
theorem exists_inventoryPath {scope : PluginConfigScope} {root p : Place}
    (hscope : roots.get scope = some root) (hself : env.resolve p.text = .ok p)
    (hunder : root.under p = true) : ∃ key, inventoryPath env roots p scope = .ok key := by
  refine ⟨scope.value ++ "/" ++ root.relativeTo p, ?_⟩
  unfold inventoryPath
  rw [hself]
  simp only [hscope]
  exact if_pos hunder

/-- The two paths of an operation, checked. -/
def applyGuards (env : PluginEnv) (roots : PluginRoots)
    (x : PluginInstallOperation × PluginRollbackOperation) : Except PluginError (Place × Place) :=
  match guardedOperationPath env roots x.1 with
  | .error e => .error e
  | .ok target =>
    match guardedBackupPath env roots x.2 x.1 with
    | .error e => .error e
    | .ok backup => .ok (target, backup)

theorem applyGuards_ok {places : Place × Place} : applyGuards env roots x = .ok places ↔
    guardedOperationPath env roots x.1 = .ok places.1 ∧
      guardedBackupPath env roots x.2 x.1 = .ok places.2 := by
  unfold applyGuards
  cases guardedOperationPath env roots x.1 with
  | error e => simp
  | ok target =>
    cases guardedBackupPath env roots x.2 x.1 with
    | error e => simp
    | ok backup =>
      obtain ⟨p, q⟩ := places
      simp

/-- Checked paths have texts to be recorded under. -/
theorem inventoryPaths_of_guards (hroots : RootsResolved env roots) {places : Place × Place}
    (h : applyGuards env roots x = .ok places) :
    (∃ key, inventoryPath env roots places.1 x.1.scope = .ok key) ∧
      ∃ key, inventoryPath env roots places.2 x.1.scope = .ok key := by
  obtain ⟨htarget, hbackup⟩ := applyGuards_ok.mp h
  unfold guardedOperationPath at htarget
  cases hscope : roots.get x.1.scope with
  | none =>
    rw [hscope] at htarget
    cases htarget
  | some root =>
    rw [hscope] at htarget
    have hroot := hroots _ _ hscope
    obtain ⟨hself, hunder⟩ := guardedPath_ok hroot htarget
    refine ⟨exists_inventoryPath hscope hself hunder, ?_⟩
    unfold guardedBackupPath at hbackup
    split at hbackup
    · cases hbackup
    split at hbackup
    · cases hbackup
    split at hbackup
    · cases hbackup
    rw [hscope] at hbackup
    obtain ⟨hself', hunder'⟩ := guardedPath_ok hroot hbackup
    exact exists_inventoryPath hscope hself' hunder'

/-- The tree after a change, or as it was when the change fails. -/
def changed (f : FileTree → Except FileError FileTree) (t : FileTree) : FileTree :=
  match f t with
  | .ok t' => t'
  | .error _ => t

/-- The tree when a target that exists is backed up. -/
def afterBackup (target backup : Place) (t : FileTree) : FileTree :=
  if t.disk.present target then changed (·.copy2 target backup) (changed (·.mkdirs backup.parent) t)
  else t

/-- The tree after one turn of apply. -/
def applyAfter (env : PluginEnv) (roots : PluginRoots) (t : FileTree)
    (x : PluginInstallOperation × PluginRollbackOperation) : FileTree :=
  match applyGuards env roots x with
  | .ok (target, backup) =>
    changed (·.writeBytes target (canonicalJsonBytes env x.1.content))
      (afterBackup target backup (changed (·.mkdirs target.parent) t))
  | .error _ => t

/-- What one turn of apply records. -/
def recordedConfig (env : PluginEnv) (roots : PluginRoots) (t : FileTree)
    (x : PluginInstallOperation × PluginRollbackOperation) : Except PluginError AppliedConfig :=
  match applyGuards env roots x with
  | .error e => .error e
  | .ok (target, backup) =>
    match inventoryPath env roots target x.1.scope, inventoryPath env roots backup x.1.scope with
    | .ok key, .ok backupKey =>
      .ok ⟨key, env.sha256 (canonicalJsonBytes env x.1.content),
        if t.disk.present target then some backupKey else none⟩
    | .error e, _ => .error e
    | _, .error e => .error e

/-- What the turns of apply record, when the operating system stops none of them. -/
def recordedConfigs (env : PluginEnv) (roots : PluginRoots) : FileTree →
    List (PluginInstallOperation × PluginRollbackOperation) →
      Except PluginError (List AppliedConfig)
  | _, [] => .ok []
  | t, x :: rest =>
    match recordedConfig env roots t x with
    | .error e => .error e
    | .ok a =>
      match recordedConfigs env roots (applyAfter env roots t x) rest with
      | .error e => .error e
      | .ok as => .ok (a :: as)

/-- The operation's target holds its configuration already, and so does the place that a copy of
    the target to its backup goes to. -/
def Configured (env : PluginEnv) (t : FileTree) (x : PluginInstallOperation × PluginRollbackOperation)
    (places : Place × Place) : Prop :=
  t.fileAt places.1 = some (canonicalJsonBytes env x.1.content) ∧
    t.fileAt (t.disk.copyTarget places.1 places.2) = some (canonicalJsonBytes env x.1.content)

def applyRefuses (env : PluginEnv) (roots : PluginRoots) (_ : FileTree)
    (x : PluginInstallOperation × PluginRollbackOperation) : Prop :=
  ∃ e, applyGuards env roots x = .error e

def applyChanges (env : PluginEnv) (roots : PluginRoots) (t : FileTree)
    (x : PluginInstallOperation × PluginRollbackOperation) : Prop :=
  ∃ places, applyGuards env roots x = .ok places ∧ ¬ Configured env t x places

/-- Writing to a file what it holds changes nothing. -/
theorem eq_of_write {t t' : FileTree} {p : Place} {bytes : ByteArray}
    (hfile : t.fileAt p = some bytes) (h : t'.disk = t.disk.write p bytes) : t' = t := by
  refine FileTree.ext (h.trans ?_)
  unfold Disk.write
  rw [← Files.fileAt_eq_some.mp hfile]
  exact Function.update_eq_self p t.disk

/-- A copy goes to the destination, or into it. -/
theorem present_of_copyTarget {source destination : Place} {bytes : ByteArray}
    (h : t.fileAt (t.disk.copyTarget source destination) = some bytes) :
    t.disk destination ≠ none := by
  by_cases hdir : t.disk destination = some .directory
  · rw [hdir]
    nofun
  · rw [Files.copyTarget_of_not_directory hdir] at h
    rw [Files.fileAt_eq_some.mp h]
    nofun

theorem changed_ok {f : FileTree → Except FileError FileTree} {t t' : FileTree}
    (h : f t = .ok t') : changed f t = t' := by
  unfold changed
  rw [h]

/-- A turn that finds everything configured leaves the tree as it is. -/
theorem applyAfter_of_configured {places : Place × Place}
    (hguards : applyGuards env roots x = .ok places) (h : Configured env t x places) :
    applyAfter env roots t x = t := by
  obtain ⟨target, backup⟩ := places
  obtain ⟨htarget, hbackup⟩ := h
  have hentry : t.disk target ≠ none := by
    rw [Files.fileAt_eq_some.mp htarget]
    nofun
  have hmade : changed (·.mkdirs target.parent) t = t :=
    changed_ok (FileTree.mkdirs_of_present hentry)
  have hmade' : changed (·.mkdirs backup.parent) t = t :=
    changed_ok (FileTree.mkdirs_of_present (present_of_copyTarget hbackup))
  have hcopied : changed (·.copy2 target backup) t = t := by
    unfold changed
    split
    · rename_i t' hcopy
      obtain ⟨bytes, ⟨hbytes, -⟩, hwrite⟩ := Files.copy2_writes (FileTree.lift_ok.mp hcopy)
      cases htarget.symm.trans hbytes
      exact eq_of_write hbackup (Files.writeBytes_ok hwrite).2
    · rfl
  have hwritten : changed (·.writeBytes target (canonicalJsonBytes env x.1.content)) t = t := by
    unfold changed
    split
    · rename_i t' hwrite
      exact eq_of_write htarget (Files.writeBytes_ok (FileTree.lift_ok.mp hwrite)).2
    · rfl
  unfold applyAfter afterBackup
  rw [hguards]
  show changed (·.writeBytes target (canonicalJsonBytes env x.1.content))
    (if (changed (·.mkdirs target.parent) t).disk.present target then _ else _) = t
  rw [hmade, if_pos (Files.present_of_fileAt htarget), hmade', hcopied, hwritten]

/-- What is done to keep a target that exists: one copy, or the operating system stops it. -/
theorem run_saveBackup {scope : PluginConfigScope} {target backup : Place} {key : String}
    (hkey : inventoryPath env roots backup scope = .ok key) (t : FileTree) :
    (∃ e t', (saveBackup env roots scope target backup).run t = (.error (.file e), t')) ∨
      (Returns (saveBackup env roots scope target backup) t
          (if t.disk.present target then some key else none) (afterBackup target backup t) ∧
        (Within SameFiles (saveBackup env roots scope target backup) t ↔
          SameFiles t (afterBackup target backup t)) ∧
        (t.disk.present target = true → ∃ bytes, t.fileAt target = some bytes ∧
          t.disk.copyTarget target backup ≠ target ∧
          (afterBackup target backup t).fileAt =
            Function.update t.fileAt (t.disk.copyTarget target backup) (some bytes))) := by
  have hrun := Program.run_bind_of_returns (k := fun present : Bool =>
    if present then do
      changeFiles (·.mkdirs backup.parent)
      changeFiles (·.copy2 target backup)
      let key ← offDisk (inventoryPath env roots backup scope)
      pure (some key)
    else pure none) (returns_pathExists target t)
  have hwithin := Program.within_bind_of_returns (R := SameFiles) (k := fun present : Bool =>
    if present then do
      changeFiles (·.mkdirs backup.parent)
      changeFiles (·.copy2 target backup)
      let key ← offDisk (inventoryPath env roots backup scope)
      pure (some key)
    else pure none) (returns_pathExists target t)
  change (saveBackup env roots scope target backup).run t = _ at hrun
  change Within SameFiles (saveBackup env roots scope target backup) t ↔ _ at hwithin
  unfold Returns afterBackup
  rw [hrun, hwithin, and_iff_right (within_pathExists target t)]
  cases htarget : t.disk.present target with
  | false => exact Or.inr ⟨rfl, iff_of_true trivial rfl, nofun⟩
  | true =>
    simp only [if_true, offDisk_ok hkey]
    rcases run_changeFiles (·.mkdirs backup.parent) t with ⟨t₁, hmade, hret₁, hwrites₁⟩ |
      ⟨e, herror⟩
    · obtain ⟨hfiles, hentry⟩ := FileTree.mkdirs_parent hmade
      have hsame : t₁.fileAt = t.fileAt := hfiles
      have hdirs : changed (·.mkdirs backup.parent) t = t₁ := changed_ok hmade
      rw [Program.run_bind_of_returns hret₁, Program.within_bind_of_returns hret₁, hwrites₁,
        and_iff_right hfiles, hdirs]
      rcases run_changeFiles (·.copy2 target backup) t₁ with ⟨t₂, hcopied, hret₂, hwrites₂⟩ |
        ⟨e, herror⟩
      · obtain ⟨bytes, hbytes, hne, hupdate⟩ := FileTree.copy2_fileAt hcopied
        have hplace : t₁.disk.copyTarget target backup = t.disk.copyTarget target backup := by
          unfold Disk.copyTarget
          rw [hentry]
        rw [hplace] at hne hupdate
        rw [hsame] at hbytes hupdate
        have hkept : changed (·.copy2 target backup) t₁ = t₂ := changed_ok hcopied
        rw [hkept]
        refine Or.inr ⟨Program.run_bind_of_returns hret₂, ?_, fun _ => ⟨bytes, hbytes, hne, hupdate⟩⟩
        refine within_bind_pure.trans ?_
        rw [hwrites₂]
        unfold SameFiles
        rw [hsame]
      · exact Or.inl ⟨e, t₁, Program.run_bind_of_error herror⟩
    · exact Or.inl ⟨e, t, Program.run_bind_of_error herror⟩

/-- One turn of apply with checked paths. -/
theorem run_applyOperation (hroots : RootsResolved env roots) {places : Place × Place}
    (hguards : applyGuards env roots x = .ok places) (t : FileTree) :
    (∃ e t', (applyOperation env roots x).run t = (.error (.file e), t')) ∨
      ∃ a, recordedConfig env roots t x = .ok a ∧
        Returns (applyOperation env roots x) t a (applyAfter env roots t x) ∧
        (Within SameFiles (applyOperation env roots x) t ↔ Configured env t x places) := by
  obtain ⟨⟨key, hkey⟩, backupKey, hbackupKey⟩ := inventoryPaths_of_guards hroots hguards
  obtain ⟨target, backup⟩ := places
  obtain ⟨htargetOk, hbackupOk⟩ := applyGuards_ok.mp hguards
  change inventoryPath env roots target x.1.scope = .ok key at hkey
  change inventoryPath env roots backup x.1.scope = .ok backupKey at hbackupKey
  let payload := canonicalJsonBytes env x.1.content
  have hprogram : applyOperation env roots x = (do
      changeFiles (·.mkdirs target.parent)
      let saved ← saveBackup env roots x.1.scope target backup
      changeFiles (·.writeBytes target payload)
      pure ⟨key, env.sha256 payload, saved⟩) := by
    unfold applyOperation
    rw [offDisk_ok htargetOk, offDisk_ok hbackupOk, hkey]
    rfl
  have hrecorded : recordedConfig env roots t x =
      .ok ⟨key, env.sha256 payload, if t.disk.present target then some backupKey else none⟩ := by
    unfold recordedConfig
    rw [hguards]
    simp only [hkey, hbackupKey]
    rfl
  have hafter : applyAfter env roots t x = changed (·.writeBytes target payload)
      (afterBackup target backup (changed (·.mkdirs target.parent) t)) := by
    unfold applyAfter
    rw [hguards]
  rw [hprogram, hrecorded, hafter]
  unfold Returns
  rcases run_changeFiles (·.mkdirs target.parent) t with ⟨t₁, hmade, hret₁, hwrites₁⟩ | ⟨e, herror⟩
  swap
  · exact Or.inl ⟨e, t, Program.run_bind_of_error herror⟩
  obtain ⟨hfiles₁, hentry⟩ := FileTree.mkdirs_parent hmade
  have hsame : t₁.fileAt = t.fileAt := hfiles₁
  have hpresent : t₁.disk.present target = t.disk.present target := by
    unfold Disk.present
    rw [hentry]
  have hdirs : changed (·.mkdirs target.parent) t = t₁ := changed_ok hmade
  rw [Program.run_bind_of_returns hret₁, Program.within_bind_of_returns hret₁, hwrites₁,
    and_iff_right hfiles₁, hdirs]
  rcases @run_saveBackup _ _ _ target _ _ hbackupKey t₁ with ⟨e, t', herror⟩ |
    ⟨hret₂, hwrites₂, hcopied⟩
  · exact Or.inl ⟨e, t', Program.run_bind_of_error herror⟩
  rw [Program.run_bind_of_returns hret₂, Program.within_bind_of_returns hret₂, hwrites₂, hpresent]
  rcases run_changeFiles (·.writeBytes target payload) (afterBackup target backup t₁) with
    ⟨t₃, hwritten, hret₃, hwrites₃⟩ | ⟨e, herror⟩
  swap
  · exact Or.inl ⟨e, _, Program.run_bind_of_error herror⟩
  have hdone : changed (·.writeBytes target payload) (afterBackup target backup t₁) = t₃ :=
    changed_ok hwritten
  rw [hdone]
  refine Or.inr ⟨_, rfl, Program.run_bind_of_returns hret₃, ?_⟩
  refine (and_congr_right fun _ => within_bind_pure).trans ?_
  rw [hwrites₃, sameFiles_update (FileTree.writeBytes_fileAt hwritten)]
  unfold Configured
  cases htarget : t.disk.present target with
  | false =>
    -- there is no target: it is created
    have hunchanged : afterBackup target backup t₁ = t₁ := by
      unfold afterBackup
      rw [hpresent, htarget]
      rfl
    have hnone : t.fileAt target = none := (Files.fileAt_of_absent htarget).2
    rw [hunchanged, hsame, hnone]
    exact iff_of_false (fun h => nomatch h.2) fun h => nomatch h.1
  | true =>
    -- the target is there, so its directories are, and the copy goes where it went
    have hthere : t.disk target ≠ none := by
      intro hnone
      unfold Disk.present at htarget
      rw [hnone] at htarget
      cases htarget
    have heq : t₁ = t := Except.ok.inj (hmade.symm.trans (FileTree.mkdirs_of_present hthere))
    subst heq
    obtain ⟨bytes, hbytes, hne, hupdate⟩ := hcopied (hpresent.trans htarget)
    rw [sameFiles_update hupdate, hupdate, Function.update_of_ne hne.symm, hbytes]
    constructor
    · rintro ⟨hbackup, hpayload⟩
      exact ⟨hpayload, hbackup.trans hpayload⟩
    · rintro ⟨hpayload, hbackup⟩
      exact ⟨hbackup.trans hpayload.symm, hpayload⟩

theorem turns_apply (hroots : RootsResolved env roots) : Turns id SameFiles isFault
    (applyRefuses env roots) (applyChanges env roots) (applyAfter env roots)
    (applyOperation env roots) where
  refused x t hrefuses := by
    obtain ⟨e, hguards⟩ := hrefuses
    unfold applyGuards at hguards
    unfold applyOperation
    cases htarget : guardedOperationPath env roots x.1 with
    | error e' => exact ⟨trivial, e', t, rfl⟩
    | ok target =>
      rw [htarget] at hguards
      cases hbackup : guardedBackupPath env roots x.2 x.1 with
      | error e' => exact ⟨trivial, e', t, rfl⟩
      | ok backup =>
        rw [hbackup] at hguards
        cases hguards
  passed x t hpasses := by
    cases hguards : applyGuards env roots x with
    | error e => exact absurd ⟨e, hguards⟩ hpasses
    | ok places =>
      have hchanges : applyChanges env roots t x ↔ ¬ Configured env t x places := by
        constructor
        · rintro ⟨places', hguards', hnot⟩
          cases hguards.symm.trans hguards'
          exact hnot
        · exact fun hnot => ⟨places, hguards, hnot⟩
      rcases run_applyOperation hroots hguards t with ⟨e, t', herror⟩ | ⟨a, -, hret, hclean⟩
      · exact Or.inl ⟨_, t', herror, rfl⟩
      · refine Or.inr ⟨a, _, hret, rfl, ?_⟩
        rw [hclean]
        exact (not_iff_comm.mp hchanges.symm).symm
  keeps t x hno := by
    cases hguards : applyGuards env roots x with
    | error e =>
      unfold applyAfter
      rw [hguards]
    | ok places =>
      refine applyAfter_of_configured hguards ?_
      by_contra hnot
      exact hno ⟨places, hguards, hnot⟩

/-- What a loop that returns has recorded. -/
theorem returns_applyOperations (hroots : RootsResolved env roots) :
    ∀ (steps : List (PluginInstallOperation × PluginRollbackOperation)) (t : FileTree)
      (applied : List AppliedConfig) (t' : FileTree),
      Returns (Program.forEach steps (applyOperation env roots)) t applied t' →
      recordedConfigs env roots t steps = .ok applied := by
  intro steps
  induction steps with
  | nil =>
    intro t applied t' hret
    cases hret
    rfl
  | cons x rest ih =>
    intro t applied t' hret
    obtain ⟨a, t₁, hfirst, htail⟩ := Program.returns_bind.mp hret
    obtain ⟨as, t₂, hrest, hpure⟩ := Program.returns_bind.mp htail
    cases hpure
    cases hguards : applyGuards env roots x with
    | error e =>
      obtain ⟨-, e', s', herror⟩ := (turns_apply hroots).refused x t ⟨e, hguards⟩
      cases herror.symm.trans hfirst
    | ok places =>
      rcases run_applyOperation hroots hguards t with ⟨e, s', herror⟩ | ⟨a', hrecorded, hret', -⟩
      · cases herror.symm.trans hfirst
      · obtain ⟨rfl, rfl⟩ := hret'.unique hfirst
        unfold recordedConfigs
        rw [hrecorded]
        simp only [ih _ _ _ hrest]

/-- A plan that is accepted has checked paths in every operation. -/
theorem guards_of_validated {plan : PluginInstallerDryRun}
    (h : validateApplyPlan env plan roots = .ok ()) :
    ∀ x ∈ plan.steps, ∃ places, applyGuards env roots x = .ok places := by
  have hall : ∀ steps, validateOperations env roots steps = .ok () →
      ∀ x ∈ steps, ∃ places, applyGuards env roots x = .ok places := by
    intro steps
    induction steps with
    | nil => exact fun _ x hx => absurd hx List.not_mem_nil
    | cons y rest ih =>
      intro hvalid x hx
      unfold validateOperations at hvalid
      cases htarget : guardedOperationPath env roots y.1 with
      | error e =>
        rw [htarget] at hvalid
        cases hvalid
      | ok target =>
        rw [htarget] at hvalid
        change (guardedBackupPath env roots y.2 y.1 >>= fun _ =>
          validateOperations env roots rest) = _ at hvalid
        cases hbackup : guardedBackupPath env roots y.2 y.1 with
        | error e =>
          rw [hbackup] at hvalid
          cases hvalid
        | ok backup =>
          rw [hbackup] at hvalid
          rcases List.mem_cons.mp hx with rfl | hx
          · exact ⟨(target, backup), applyGuards_ok.mpr ⟨htarget, hbackup⟩⟩
          · exact ih hvalid x hx
  unfold validateApplyPlan at h
  split at h
  · cases h
  split at h
  · cases h
  exact hall _ h

end Apply

/-! ## Settled writers -/

/-- A settled program that raises a `ValueError` has changed no file on its way, and unless the
    operating system stops it, only a settled one has not. -/
def CleanIff {α : Type} (settled : Prop) (p : PluginCall α) (t : FileTree) : Prop :=
  (settled → FailsClean SameFiles (fun e => e.isValueError = true) p t) ∧
  ((∀ e, (p.run t).1 = .error e → e.isValueError = true) →
    FailsClean SameFiles (fun e => e.isValueError = true) p t → settled)

section Clean

variable {α β γ V : Type} {t : FileTree}

theorem CleanIff.congr {settled settled' : Prop} {p : PluginCall α} (h : CleanIff settled p t)
    (heq : settled ↔ settled') : CleanIff settled' p t :=
  ⟨fun hs => h.1 (heq.mpr hs), fun hnofault hclean => heq.mp (h.2 hnofault hclean)⟩

/-- A check in front asks nothing where it raises. -/
theorem cleanIff_offDisk {x : Except PluginError α} {k : α → PluginCall β} {settled : α → Prop}
    (h : ∀ a, x = .ok a → CleanIff (settled a) (k a) t) :
    CleanIff (∀ a, x = .ok a → settled a) (offDisk x >>= k) t := by
  constructor
  · exact fun hs => failsClean_offDisk.mpr fun a ha => (h a ha).1 (hs a ha)
  · intro hnofault hclean a ha
    rw [offDisk_ok ha] at hnofault
    exact (h a ha).2 hnofault (failsClean_offDisk.mp hclean a ha)

theorem cleanIff_loop {view : FileTree → V} {refuses changes : V → β → Prop} {after : V → β → V}
    {f : β → PluginCall α} (h : Turns view SameFiles isFault refuses changes after f) {bs : List β}
    {final : List α → Except PluginError γ} {good : Prop}
    (hfinal : ∀ as t', Returns (Program.forEach bs f) t as t' →
      ((∃ r, final as = .ok r) ↔ good)) :
    CleanIff (LoopSettled refuses changes after good (view t) bs)
      (do let as ← Program.forEach bs f; offDisk (final as)) t := by
  have hkind : (fun e => ¬ isFault e) = fun e : PluginError => e.isValueError = true := by
    funext e
    unfold isFault
    rw [Bool.not_eq_false]
  have hrule := Program.failsClean_loop h (fun as t' hret hgood => (hfinal as t' hret).mpr hgood)
    (fun as t' hret hok => (hfinal as t' hret).mp hok)
  rw [hkind] at hrule
  refine ⟨hrule.1, fun hnofault => hrule.2 fun e herror => ?_⟩
  unfold isFault
  rw [Bool.not_eq_false]
  exact hnofault e herror

end Clean

section Writers

variable {env : PluginEnv} {plan : PluginInstallerDryRun} {inventory : PluginInventoryRecord}
  {workspaceRoot userConfigRoot approvalRef : String} {t : FileTree}

theorem exists_pluginBuild {α : Type} [Model α] {a : α} :
    (∃ r, pluginBuild a = .ok r) ↔ failedFields (Model.checks (Model.normalize a)) = [] := by
  unfold pluginBuild Model.build
  by_cases h : failedFields (Model.checks (Model.normalize a)) = []
  · rw [dif_pos h]
    exact iff_of_true ⟨_, rfl⟩ h
  · rw [dif_neg h]
    exact iff_of_false (fun ⟨r, hr⟩ => nomatch hr) h

/-- The checks of the result model that depend on the plan, where no hash is left. -/
theorem undoResult_isOk {data : PluginOperationResult}
    (hoperation : safeText 1 80 data.operation = true)
    (hstatus : safeText 1 80 data.status = true) (hhashes : data.appliedConfigHashes = []) :
    (∃ r, pluginBuild data = .ok r) ↔ safeIdentifier 1 160 data.pluginId = true ∧
      arePlainTexts data.backupPaths = true ∧ safeText 1 300 data.evidence = true := by
  have hsorted : areConfigHashes (sortedItems data.appliedConfigHashes) = true := by
    rw [hhashes]
    rfl
  rw [exists_pluginBuild, failedFields_eq_nil]
  simp only [Model.checks, Model.normalize, List.forall_mem_cons, List.not_mem_nil,
    IsEmpty.forall_iff, implies_true, and_true]
  constructor
  · rintro ⟨hid, -, -, -, hbackups, hevidence⟩
    exact ⟨hid, hbackups, hevidence⟩
  · rintro ⟨hid, hbackups, hevidence⟩
    exact ⟨hid, hoperation, hstatus, hsorted, hbackups, hevidence⟩

/-- The result model of uninstall and rollback accepts what it is given. -/
def UndoAccepted (plan : PluginInstallerDryRun) (inventory : PluginInventoryRecord)
    (evidence : String) : Prop :=
  safeIdentifier 1 160 plan.pluginId = true ∧ arePlainTexts inventory.backupPaths = true ∧
    safeText 1 300 evidence = true

theorem uninstallResult_isOk (writes : List Nat) :
    (∃ r, uninstallResult plan inventory approvalRef writes = .ok r) ↔
      UndoAccepted plan inventory
        ("Removed applied plugin config with approval " ++ approvalRef ++ ".") := by
  have hoperation : safeText 1 80 "uninstall" = true := by decide
  have hstatus : safeText 1 80 "uninstalled" = true := by decide
  exact undoResult_isOk hoperation hstatus rfl

theorem rollbackResult_isOk (writes : List Nat) :
    (∃ r, rollbackResult plan inventory approvalRef writes = .ok r) ↔
      UndoAccepted plan inventory ("Rolled back plugin config with approval " ++ approvalRef ++ ".") :=
  by
  have hoperation : safeText 1 80 "rollback" = true := by decide
  have hstatus : safeText 1 80 "rolled_back" = true := by decide
  exact undoResult_isOk hoperation hstatus rfl

/-- Apply: it is stopped by its checks, or every target and every backup is what it would become
    already, or the result models accept what is recorded. -/
def ApplySettled (env : PluginEnv) (plan : PluginInstallerDryRun)
    (workspaceRoot userConfigRoot approvalRef : String) (t : FileTree) : Prop :=
  validateApprovalRef approvalRef = .ok () →
  ∀ roots, resolvedRoots env workspaceRoot userConfigRoot = .ok roots →
  validateApplyPlan env plan roots = .ok () →
    (∀ x ∈ plan.steps, ¬ applyChanges env roots t x) ∨
      ∃ applied r, recordedConfigs env roots t plan.steps = .ok applied ∧
        applyResult plan approvalRef applied = .ok r

/-- Uninstall: it is stopped by its checks in front of the loop, or its loop is settled. -/
def UninstallSettled (env : PluginEnv) (plan : PluginInstallerDryRun)
    (inventory : PluginInventoryRecord) (workspaceRoot userConfigRoot approvalRef : String)
    (files : Place → Option ByteArray) : Prop :=
  validateApprovalRef approvalRef = .ok () →
  ∀ roots, resolvedRoots env workspaceRoot userConfigRoot = .ok roots →
  validateInventoryMatchesPlan plan inventory = .ok () →
    LoopSettled (uninstallRefuses env roots inventory) (uninstallChanges env roots inventory)
      (uninstallAfter env roots inventory) (UndoAccepted plan inventory
        ("Removed applied plugin config with approval " ++ approvalRef ++ ".")) files
      plan.operations

/-- Rollback: likewise. -/
def RollbackSettled (env : PluginEnv) (plan : PluginInstallerDryRun)
    (inventory : PluginInventoryRecord) (workspaceRoot userConfigRoot approvalRef : String)
    (files : Place → Option ByteArray) : Prop :=
  validateApprovalRef approvalRef = .ok () →
  ∀ roots, resolvedRoots env workspaceRoot userConfigRoot = .ok roots →
  validateInventoryMatchesPlan plan inventory = .ok () →
    LoopSettled (rollbackRefuses env roots inventory) (rollbackChanges env roots inventory)
      (rollbackAfter env roots inventory) (UndoAccepted plan inventory
        ("Rolled back plugin config with approval " ++ approvalRef ++ ".")) files plan.steps

theorem cleanIff_apply : CleanIff (ApplySettled env plan workspaceRoot userConfigRoot approvalRef t)
    (applyPluginInstallerPlan env plan workspaceRoot userConfigRoot approvalRef) t := by
  have hloop (roots : PluginRoots)
      (hroots : resolvedRoots env workspaceRoot userConfigRoot = .ok roots)
      (hvalid : validateApplyPlan env plan roots = .ok ()) :
      CleanIff ((∀ x ∈ plan.steps, ¬ applyChanges env roots t x) ∨
          ∃ applied r, recordedConfigs env roots t plan.steps = .ok applied ∧
            applyResult plan approvalRef applied = .ok r)
        (do
          let applied ← Program.forEach plan.steps (applyOperation env roots)
          offDisk (applyResult plan approvalRef applied)) t := by
    have hresolved := rootsResolved hroots
    have hrule : CleanIff (LoopSettled (applyRefuses env roots) (applyChanges env roots)
        (applyAfter env roots) (∃ applied r, recordedConfigs env roots t plan.steps = .ok applied ∧
          applyResult plan approvalRef applied = .ok r) (id t) plan.steps) (do
        let applied ← Program.forEach plan.steps (applyOperation env roots)
        offDisk (applyResult plan approvalRef applied)) t := by
      refine cleanIff_loop (turns_apply hresolved) fun applied t' hret => ?_
      have hrecorded := returns_applyOperations hresolved _ _ _ _ hret
      constructor
      · exact fun ⟨r, hr⟩ => ⟨applied, r, hrecorded, hr⟩
      · rintro ⟨applied', r, hrecorded', hr⟩
        cases hrecorded.symm.trans hrecorded'
        exact ⟨r, hr⟩
    -- a plan that was validated has no operation that the loop refuses
    have hpasses : ∀ v x, x ∈ plan.steps → ¬ applyRefuses env roots v x := by
      rintro v x hx ⟨e, he⟩
      obtain ⟨places, hplaces⟩ := guards_of_validated hvalid x hx
      cases hplaces.symm.trans he
    refine hrule.congr (or_congr ?_ (and_iff_right ?_))
    · constructor
      · intro hquiet x hx hchanges
        obtain ⟨ran, rest, hsplit⟩ := List.append_of_mem hx
        obtain ⟨y, hy, hrefuses⟩ := hquiet ran x rest hsplit hchanges
        refine hpasses _ y ?_ hrefuses
        rw [hsplit]
        rcases List.mem_append.mp hy with hy | hy
        · exact List.mem_append_left _ hy
        · rw [List.mem_singleton.mp hy]
          exact List.mem_append_right _ (List.mem_cons_self ..)
      · intro hsame ran x rest hsplit hchanges
        exact absurd hchanges (hsame x (hsplit ▸ List.mem_append_right _ (List.mem_cons_self ..)))
    · rw [Program.refused_iff]
      rintro ⟨ran, x, rest, hsplit, hrefuses⟩
      exact hpasses _ x (hsplit ▸ List.mem_append_right _ (List.mem_cons_self ..)) hrefuses
  unfold applyPluginInstallerPlan
  refine (cleanIff_offDisk fun _ _ => cleanIff_offDisk fun roots hroots =>
    cleanIff_offDisk fun _ hvalid => hloop roots hroots hvalid).congr ?_
  exact ⟨fun h href roots hroots hvalid => h () href roots hroots () hvalid,
    fun h _ href roots hroots _ hvalid => h href roots hroots hvalid⟩

theorem cleanIff_uninstall :
    CleanIff (UninstallSettled env plan inventory workspaceRoot userConfigRoot approvalRef t.fileAt)
      (uninstallPluginInstallation env plan inventory workspaceRoot userConfigRoot approvalRef) t := by
  unfold uninstallPluginInstallation
  refine (cleanIff_offDisk fun _ _ => cleanIff_offDisk fun roots _ => cleanIff_offDisk fun _ _ =>
    cleanIff_loop turns_uninstall fun writes t' _ => uninstallResult_isOk writes).congr ?_
  exact ⟨fun h href roots hroots hmatch => h () href roots hroots () hmatch,
    fun h _ href roots hroots _ hmatch => h href roots hroots hmatch⟩

theorem cleanIff_rollback :
    CleanIff (RollbackSettled env plan inventory workspaceRoot userConfigRoot approvalRef t.fileAt)
      (rollbackPluginInstallation env plan inventory workspaceRoot userConfigRoot approvalRef) t := by
  unfold rollbackPluginInstallation
  refine (cleanIff_offDisk fun _ _ => cleanIff_offDisk fun roots _ => cleanIff_offDisk fun _ _ =>
    cleanIff_loop turns_rollback fun writes t' _ => rollbackResult_isOk writes).congr ?_
  exact ⟨fun h href roots hroots hmatch => h () href roots hroots () hmatch,
    fun h _ href roots hroots _ hmatch => h href roots hroots hmatch⟩

end Writers

/-- Whatever the plan, the inventory record, the approval and the files: a settled writer that
    raises a `ValueError` has changed no file, and a writer that the operating system does not stop
    keeps to that only if it is settled. -/
theorem writers_failClean (env : PluginEnv) (plan : PluginInstallerDryRun)
    (inventory : PluginInventoryRecord) (workspaceRoot userConfigRoot approvalRef : String)
    (t : FileTree) :
    CleanIff (ApplySettled env plan workspaceRoot userConfigRoot approvalRef t)
      (applyPluginInstallerPlan env plan workspaceRoot userConfigRoot approvalRef) t ∧
    CleanIff (UninstallSettled env plan inventory workspaceRoot userConfigRoot approvalRef t.fileAt)
      (uninstallPluginInstallation env plan inventory workspaceRoot userConfigRoot approvalRef) t ∧
    CleanIff (RollbackSettled env plan inventory workspaceRoot userConfigRoot approvalRef t.fileAt)
      (rollbackPluginInstallation env plan inventory workspaceRoot userConfigRoot approvalRef) t :=
  ⟨cleanIff_apply, cleanIff_uninstall, cleanIff_rollback⟩

/-! ## A drifted file behind one that is removed -/

section Sample

/-- The places of a small machine: two roots, two targets and their backups. -/
def smallPlaces : List Place :=
  [["w"], ["u"], ["w", "a"], ["w", "b"], ["w", "a.vad-backup"], ["w", "b.vad-backup"]]

/-- Its texts of paths are those of its places; digests tell files of one byte from longer ones. -/
def smallEnv : PluginEnv where
  resolve text := match smallPlaces.find? fun p => p.text = text with
    | some p => .ok p
    | none => raiseValue "no such path"
  dumps _ := ""
  sha256 bytes := String.ofList (List.replicate 64 (if bytes.size = 1 then 'a' else 'b'))
  payloadDigest _ := String.ofList (List.replicate 64 'c')
  resolve_text := by
    intro text p h
    split at h
    · rename_i q hq
      cases h
      have htext := List.find?_some hq
      rw [of_decide_eq_true htext, hq]
    · cases h

/-- A write of the configuration at one path. -/
def smallOperation (path : String) : PluginInstallOperation where
  scope := .workspace
  path := path
  change := "write p config for codex"
  content := .object []

def smallRollback (path : String) : PluginRollbackOperation :=
  ⟨"restore_or_remove", path, some (path ++ ".vad-backup")⟩

def smallArtifact : PluginArtifactVerification where
  pluginId := "p"
  version := "1"
  artifactDigest := String.ofList (List.replicate 64 'c')
  manifestDigest := String.ofList (List.replicate 64 'c')
  fileCount := 0
  evidence := "Plugin artifact digest verified."

def smallPlan : PluginInstallerDryRun where
  pluginId := "p"
  targetClient := .codex
  version := "1"
  operations := [smallOperation "/w/a", smallOperation "/w/b"]
  rollback := [smallRollback "/w/a", smallRollback "/w/b"]
  artifact := smallArtifact

/-- The record of an apply that wrote one byte to both targets. -/
def smallInventory : PluginInventoryRecord where
  pluginId := "p"
  targetClient := .codex
  version := "1"
  appliedConfigHashes := [("workspace/a", String.ofList (List.replicate 64 'a')),
    ("workspace/b", String.ofList (List.replicate 64 'a'))]
  summary := "p applied to local codex configuration."

/-- The second target was edited since. -/
def smallDisk : Disk Place
  | [] => some .directory
  | ["w"] => some .directory
  | ["u"] => some .directory
  | ["w", "a"] => some (.file ⟨#[1]⟩)
  | ["w", "b"] => some (.file ⟨#[1, 2]⟩)
  | _ => none

def smallTree : FileTree where
  disk := smallDisk
  grounded := by
    refine ⟨rfl, fun p hp => ?_⟩
    unfold smallDisk at hp
    split at hp
    all_goals first
      | rfl
      | exact absurd rfl hp

/-- Uninstall removes the first target, finds the second one drifted, and raises. -/
theorem second_drifted :
    ¬ FailsClean SameFiles (fun e => e.isValueError = true)
      (uninstallPluginInstallation smallEnv smallPlan smallInventory "/w" "/u" "ok") smallTree := by
  have hraised : (match ((uninstallPluginInstallation smallEnv smallPlan smallInventory "/w" "/u"
      "ok").run smallTree).1 with
      | .error e => e.isValueError
      | .ok _ => false) = true := by decide
  have hremoved : ((uninstallPluginInstallation smallEnv smallPlan smallInventory "/w" "/u"
      "ok").run smallTree).2.fileAt ["w", "a"] = none := by decide
  have hthere : smallTree.fileAt ["w", "a"] = some ⟨#[1]⟩ := rfl
  intro hclean
  unfold FailsClean at hclean
  generalize hrun : (uninstallPluginInstallation smallEnv smallPlan smallInventory "/w" "/u"
    "ok").run smallTree = out at hraised hremoved hclean
  obtain ⟨result, t'⟩ := out
  cases result with
  | ok r => cases hraised
  | error e =>
    have hfiles := Program.Within.run (R := SameFiles) (fun _ => rfl)
      (fun {a b c} (hab : SameFiles a b) (hbc : SameFiles b c) => Eq.trans hbc hab)
      (hclean e rfl hraised)
    rw [hrun] at hfiles
    have hkept := congrFun (show t'.fileAt = smallTree.fileAt from hfiles) ["w", "a"]
    rw [hremoved, hthere] at hkept
    cases hkept

end Sample

end Vad
