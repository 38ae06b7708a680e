/-
  Writing one content to many places, keeping what was there, and putting it back.

  Each step names a target and the place of its backup.  `install` copies what the target holds to
  the backup — nothing, where there is no target — and writes the new content; `putBack` makes the
  target what its backup is, which is nothing where there is no backup.

  1. **Apart** — a backup is nobody's target, and two targets have two backups.  Then every step
     speaks about its own two places, and what they hold after a list of steps depends only on how
     often the target occurs in it (`installed_target`, `installed_backup`).
  2. **The result** — `putBack_restores_iff`: putting everything back restores the targets exactly
     when none of them was missing beside a backup of another time, and each one that is written
     twice held the new content before.
-/
import Mathlib.Logic.Function.Basic
import Mathlib.Data.List.Infix
import Mathlib.Tactic.Common

namespace Backup

variable {K V : Type} [DecidableEq K] {new : V} {files : K → Option V} {xs : List (K × K)}

/-- Save what the target holds, if anything, and write the new content. -/
def install (new : V) (files : K → Option V) (x : K × K) : K → Option V :=
  Function.update
    (if (files x.1).isSome then Function.update files x.2 (files x.1) else files) x.1 (some new)

/-- The target becomes what the backup is. -/
def putBack (files : K → Option V) (x : K × K) : K → Option V :=
  Function.update files x.1 (files x.2)

/-- A backup is nobody's target, and different targets have different backups. -/
structure Apart (xs : List (K × K)) : Prop where
  backup_ne_target : ∀ x ∈ xs, ∀ y ∈ xs, x.2 ≠ y.1
  sameBackup : ∀ x ∈ xs, ∀ y ∈ xs, x.2 = y.2 ↔ x.1 = y.1

/-- How often the target of a step is written. -/
def timesWritten (xs : List (K × K)) (x : K × K) : Nat := (xs.map Prod.fst).count x.1

/-- What the backup holds when the target was written that often. -/
def backedUp (new : V) (files : K → Option V) (x : K × K) : Nat → Option V
  | 0 => files x.2
  | 1 => (files x.1).or (files x.2)
  | _ + 2 => some new

/-- A target that is written once was there, or left no backup of another time; one that is written
    again held the new content. -/
def Reversible (new : V) (files : K → Option V) (xs : List (K × K)) : Prop :=
  ∀ x ∈ xs, if timesWritten xs x = 1 then files x.1 = none → files x.2 = none
    else files x.1 = some new

omit [DecidableEq K] in
theorem Apart.of_append {ys : List (K × K)} (h : Apart (xs ++ ys)) : Apart xs where
  backup_ne_target x hx y hy :=
    h.backup_ne_target x (List.mem_append_left _ hx) y (List.mem_append_left _ hy)
  sameBackup x hx y hy :=
    h.sameBackup x (List.mem_append_left _ hx) y (List.mem_append_left _ hy)

/-! ## After the steps -/

theorem install_target (x : K × K) : install new files x x.1 = some new :=
  Function.update_self ..

theorem install_backup {x : K × K} (hne : x.2 ≠ x.1) :
    install new files x x.2 = (files x.1).or (files x.2) := by
  unfold install
  rw [Function.update_of_ne hne]
  cases h : files x.1 with
  | none => rfl
  | some old => exact Function.update_self ..

/-- A step leaves the places alone that are neither its target nor its backup. -/
theorem install_other {x : K × K} {k : K} (htarget : k ≠ x.1) (hbackup : k ≠ x.2) :
    install new files x k = files k := by
  unfold install
  rw [Function.update_of_ne htarget]
  split
  · exact Function.update_of_ne hbackup ..
  · rfl

theorem timesWritten_concat (x y : K × K) : timesWritten (xs ++ [y]) x =
    timesWritten xs x + if y.1 = x.1 then 1 else 0 := by
  unfold timesWritten
  rw [List.map_append, List.count_append, List.map_singleton, List.count_singleton]
  simp only [beq_iff_eq]

theorem timesWritten_pos {x : K × K} (hx : x ∈ xs) : 0 < timesWritten xs x :=
  List.count_pos_iff.mpr (List.mem_map_of_mem hx)

/-- What the steps leave at a target and at its backup, by how often they write the target. -/
theorem foldl_install (all : List (K × K)) (hapart : Apart all) {x : K × K} (hx : x ∈ all) :
    (∀ y ∈ xs, y ∈ all) →
    (xs.foldl (install new) files x.1 =
        if timesWritten xs x = 0 then files x.1 else some new) ∧
      xs.foldl (install new) files x.2 = backedUp new files x (timesWritten xs x) := by
  -- the steps are taken from the last one on, so that `files` is the state before all of them
  induction xs using List.reverseRecOn with
  | nil => exact fun _ => ⟨rfl, rfl⟩
  | append_singleton ran y ih =>
    intro hmem
    have hy : y ∈ all := hmem y (List.mem_append_right _ (List.mem_singleton.mpr rfl))
    obtain ⟨htarget, hbackup⟩ := ih fun z hz => hmem z (List.mem_append_left _ hz)
    rw [List.foldl_append, List.foldl_cons, List.foldl_nil, timesWritten_concat]
    by_cases hsame : y.1 = x.1
    · -- the target is written again: its backup gets what it held
      have hplace : y.2 = x.2 := (hapart.sameBackup y hy x hx).mpr hsame
      have hkept : install new (ran.foldl (install new) files) y x.2 =
          (ran.foldl (install new) files x.1).or (ran.foldl (install new) files x.2) := by
        have h := @install_backup _ _ _ new (ran.foldl (install new) files) _
          (hapart.backup_ne_target y hy y hy)
        rw [hplace, hsame] at h
        exact h
      rw [if_pos hsame, if_neg (Nat.succ_ne_zero _), hkept, htarget, hbackup]
      refine ⟨?_, ?_⟩
      · rw [← hsame]
        exact install_target y
      · cases htimes : timesWritten ran x with
        | zero => rfl
        | succ n => rfl
    · have hplace : x.2 ≠ y.2 := fun heq => hsame ((hapart.sameBackup x hx y hy).mp heq).symm
      rw [if_neg hsame, Nat.add_zero,
        install_other (Ne.symm hsame) fun heq => hapart.backup_ne_target y hy x hx heq.symm,
        install_other (hapart.backup_ne_target x hx y hy) hplace]
      exact ⟨htarget, hbackup⟩

/-- After all steps every target holds the new content. -/
theorem installed_target (hapart : Apart xs) {x : K × K} (hx : x ∈ xs) :
    xs.foldl (install new) files x.1 = some new := by
  have h := (@foldl_install _ _ _ new files _ xs hapart _ hx fun _ hy => hy).1
  rwa [if_neg (Nat.ne_of_gt (timesWritten_pos hx))] at h

theorem installed_backup (hapart : Apart xs) {x : K × K} (hx : x ∈ xs) :
    xs.foldl (install new) files x.2 = backedUp new files x (timesWritten xs x) :=
  (foldl_install xs hapart hx fun _ hy => hy).2

/-! ## Putting back -/

/-- Putting back touches targets only. -/
theorem foldl_putBack_other {k : K} : ∀ {xs : List (K × K)} {files : K → Option V},
    (∀ x ∈ xs, k ≠ x.1) → xs.foldl putBack files k = files k := by
  intro xs
  induction xs with
  | nil => exact fun _ => rfl
  | cons x rest ih =>
    intro files h
    rw [List.foldl_cons, ih fun y hy => h y (List.mem_cons_of_mem x hy)]
    exact Function.update_of_ne (h x List.mem_cons_self) ..

/-- Every target becomes what its backup is. -/
theorem foldl_putBack (hapart : Apart xs) {x : K × K} (hx : x ∈ xs) :
    xs.foldl putBack files x.1 = files x.2 := by
  induction xs using List.reverseRecOn with
  | nil => exact absurd hx List.not_mem_nil
  | append_singleton ran y ih =>
    have hy : y ∈ ran ++ [y] := List.mem_append_right _ (List.mem_singleton.mpr rfl)
    rw [List.foldl_append, List.foldl_cons, List.foldl_nil]
    unfold putBack
    by_cases hsame : x.1 = y.1
    · have hplace : y.2 = x.2 := (hapart.sameBackup y hy x hx).mpr hsame.symm
      rw [hsame, Function.update_self, hplace]
      exact foldl_putBack_other fun z hz =>
        hapart.backup_ne_target x hx z (List.mem_append_left _ hz)
    · rw [Function.update_of_ne hsame]
      rcases List.mem_append.mp hx with hin | hlast
      · exact ih hapart.of_append hin
      · exact absurd (congrArg Prod.fst (List.mem_singleton.mp hlast)) hsame

/-- When its turn to be put back comes, a target still holds the new content. -/
theorem holds_new_in_turn {ran rest : List (K × K)} {x : K × K}
    (hapart : Apart (ran ++ x :: rest)) :
    ran.foldl putBack ((ran ++ x :: rest).foldl (install new) files) x.1 = some new := by
  have hx : x ∈ ran ++ x :: rest := List.mem_append_right _ List.mem_cons_self
  by_cases hin : ∃ y ∈ ran, y.1 = x.1
  · -- it was put back already, so it is written twice, and its backup holds the new content too
    obtain ⟨y, hy, hsame⟩ := hin
    have hy' : y ∈ ran ++ x :: rest := List.mem_append_left _ hy
    have htimes : 1 < timesWritten (ran ++ x :: rest) y := by
      have hran : 0 < timesWritten ran y := timesWritten_pos hy
      have hrest : 0 < (List.map Prod.fst (x :: rest)).count y.1 :=
        List.count_pos_iff.mpr (by rw [hsame]; exact List.mem_cons_self)
      have hsum : timesWritten (ran ++ x :: rest) y =
          timesWritten ran y + (List.map Prod.fst (x :: rest)).count y.1 := by
        unfold timesWritten
        rw [List.map_append, List.count_append]
      omega
    rw [← hsame, foldl_putBack hapart.of_append hy, installed_backup hapart hy']
    obtain ⟨n, hn⟩ := Nat.exists_eq_add_of_le htimes
    rw [hn, Nat.add_comm]
    rfl
  · rw [foldl_putBack_other fun y hy heq => hin ⟨y, hy, heq.symm⟩]
    exact installed_target hapart hx

omit [DecidableEq K] in
theorem backedUp_eq_iff {x : K × K} : ∀ {n : Nat}, 0 < n →
    (backedUp new files x n = files x.1 ↔
      if n = 1 then files x.1 = none → files x.2 = none else files x.1 = some new)
  | 1, _ => by
    rw [if_pos rfl]
    unfold backedUp
    cases h : files x.1 with
    | none => simp
    | some old => simp
  | n + 2, _ => by
    rw [if_neg (by omega)]
    exact eq_comm

/-- **Putting everything back restores the targets** exactly when the steps are reversible. -/
theorem putBack_restores_iff (hapart : Apart xs) :
    (∀ x ∈ xs, xs.foldl putBack (xs.foldl (install new) files) x.1 = files x.1) ↔
      Reversible new files xs := by
  have heach (x : K × K) (hx : x ∈ xs) :
      xs.foldl putBack (xs.foldl (install new) files) x.1 =
        backedUp new files x (timesWritten xs x) :=
    (foldl_putBack hapart hx).trans (installed_backup hapart hx)
  constructor
  · intro h x hx
    exact (backedUp_eq_iff (timesWritten_pos hx)).mp ((heach x hx).symm.trans (h x hx))
  · intro h x hx
    exact (heach x hx).trans ((backedUp_eq_iff (timesWritten_pos hx)).mpr (h x hx))

end Backup
