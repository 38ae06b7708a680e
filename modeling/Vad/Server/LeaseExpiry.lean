/-
  The expiry time of a lease, and who looks at it.

  A lease has a status and an expiry time.  `acquire` and `renew` look at the status only:

  1. an acquire is denied exactly by an active lease (`returns_acquire`), and a renewal succeeds
     only for one, whatever the time;
  2. nothing ends a lease when its time has come, unless somebody calls `expire` or a scan finds
     its holder silent.

  So `ExpiryHonoured`, what the expiry time is for, holds of a task exactly when its lease is not
  overdue, or has been ended already (`expiryHonoured_iff`).  There is a second way for a lease that
  has run out to be in the way: one that was released with an unreadable reason cannot be loaded,
  and every acquire of its task raises.
-/
import Vad.Server.LeaseLifecycle

namespace Vad

open Keyed (Table)
open Atomic (Program Pool)
open Atomic.Program (Returns returns_bind returns_pure)

/-! ## What the expiry time is for -/

/-- The lease of the task is active, and its time is still to come. -/
def LiveLease (s : Store) (taskId : String) (now : DateTime) : Prop :=
  ∃ l, s.leaseOf taskId = some l ∧ l.status = .active ∧ now.instant < l.expiresAt.instant

/-- Only a live lease denies an acquire or can be renewed, and one that has run out does not keep
    another registered client from acquiring the task. -/
structure ExpiryHonoured (s : Store) (taskId : String) (now : DateTime) : Prop where
  denied : ∀ q r s', q.1.taskId = taskId → Returns (acquire q now) s r s' →
    r.decision.allow = false → LiveLease s taskId now
  renewed : ∀ q r s', Returns (renew taskId q now) s r s' → LiveLease s taskId now
  free : ∀ l, s.leaseOf taskId = some l → l.expiresAt.instant ≤ now.instant →
    ∀ q, q.1.taskId = taskId → q.1.clientId ≠ l.clientId →
      s.clientManifests.has q.1.clientId = true →
        ∃ r s', Returns (acquire q now) s r s' ∧ r.decision.allow = true

/-- The lease of the task, if its time has come, has ended, and it can be loaded, or else nobody
    but its holder is registered. -/
def OverdueEnded (s : Store) (taskId : String) (now : DateTime) : Prop :=
  ∀ l, s.leaseOf taskId = some l → l.expiresAt.instant ≤ now.instant →
    l.status ≠ .active ∧
      (Model.Valid l ∨ ∀ id, s.clientManifests.has id = true → id = l.clientId)

/-! ## Who looks at the status -/

section Acquire

variable {s s' : Store} {now : DateTime}

/-- An acquire that returns has found a client and read the old lease. -/
theorem returns_acquire {q : Checked TaskLeaseAcquireRequest} {r : TaskLeaseResult} :
    Returns (acquire q now) s r s' ↔
      (∃ m, Returns (loadClientManifest q.1.clientId) s m s) ∧
      ∃ existing, existingIn q.1.taskId s = .ok existing ∧
        Returns (acquireAfter q now existing) s r s' := by
  unfold acquire acquireLease
  rw [existingLease_eq]
  constructor
  · intro hacquire
    obtain ⟨m, s₁, hclient, hrest⟩ := returns_bind.mp hacquire
    obtain ⟨-, rfl⟩ := returns_loadClientManifest.mp hclient
    obtain ⟨existing, s₂, hexisting, hafter⟩ := returns_bind.mp hrest
    obtain ⟨hfound, rfl⟩ := returns_query.mp hexisting
    exact ⟨⟨m, hclient⟩, existing, hfound, hafter⟩
  · rintro ⟨⟨m, hclient⟩, existing, hfound, h⟩
    exact returns_bind.mpr ⟨m, s, hclient,
      returns_bind.mpr ⟨existing, s, returns_query.mpr ⟨hfound, rfl⟩, h⟩⟩

theorem allow_of_grantAcquire {q : Checked TaskLeaseAcquireRequest} {r : TaskLeaseResult}
    (h : Returns (grantAcquire q now) s r s') : r.decision.allow = true := by
  obtain ⟨l, s₁, -, h⟩ := returns_bind.mp h
  obtain ⟨event, s₂, -, h⟩ := returns_bind.mp h
  obtain ⟨rfl, -⟩ := returns_pure.mp h
  rfl

/-- A stored lease that passes its checks is found. -/
theorem existingIn_of_leaseOf (hs : RowsOk (fun _ => True) s) {taskId : String} {l : TaskLease}
    (hl : s.leaseOf taskId = some l) (hvalid : Model.Valid l) :
    existingIn taskId s = .ok (some ⟨l, hvalid⟩) := by
  have hbuild : Model.build (leaseRow l).payload = .ok ⟨l, hvalid⟩ := Model.build_of_valid hvalid
  have hfetched : fetched taskId LeaseRow.payload (s.taskLeases.find? taskId) = .ok ⟨l, hvalid⟩ :=
    fetched_eq_ok.mpr ⟨_, (find?_of_leaseOf hs hl).1, hbuild⟩
  rw [existingIn, hfetched]

/-- A registered client is found. -/
theorem exists_loadClientManifest (hs : RowsOk (fun _ => True) s) {id : String}
    (h : s.clientManifests.has id = true) : ∃ m, Returns (loadClientManifest id) s m s := by
  obtain ⟨row, hrow⟩ := Table.has_iff.mp h
  have hvalid := (hs.manifests row (Table.mem_of_find? hrow)).2
  exact ⟨_, returns_loadClientManifest.mpr ⟨⟨row, hrow, Model.build_of_valid hvalid⟩, rfl⟩⟩

/-- Only an active lease denies. -/
theorem active_of_denied {q : Checked TaskLeaseAcquireRequest} {r : TaskLeaseResult}
    (h : Returns (acquire q now) s r s') (hdenied : r.decision.allow = false) :
    ∃ l, s.leaseOf q.1.taskId = some l ∧ l.status = .active := by
  obtain ⟨-, existing, hfound, h⟩ := returns_acquire.mp h
  have hgranted (hgrant : Returns (grantAcquire q now) s r s') : False := by
    rw [allow_of_grantAcquire hgrant] at hdenied
    cases hdenied
  cases existing with
  | none => exact (hgranted h).elim
  | some lease =>
    refine ⟨lease.1, leaseOf_of_existingIn hfound, ?_⟩
    by_contra hended
    have hgrant : acquireAfter q now (some lease) = grantAcquire q now := if_neg hended
    rw [hgrant] at h
    exact hgranted h

/-- An active lease denies every registered client. -/
theorem denied_of_active (now : DateTime) (hs : RowsOk (fun _ => True) s) {q : Checked TaskLeaseAcquireRequest}
    {l : TaskLease} (hl : s.leaseOf q.1.taskId = some l) (hactive : l.status = .active)
    (hclient : s.clientManifests.has q.1.clientId = true) :
    ∃ r s', Returns (acquire q now) s r s' ∧ r.decision.allow = false := by
  obtain ⟨-, -, hgood⟩ := find?_of_leaseOf hs hl
  obtain ⟨event, hevent⟩ := returns_appendLeaseEvent hs.ledgerLists hgood.1
    (show lengthWithin 1 500 "Lease acquire denied because task is already active." = true
      by decide) .blocked now
  have hdeny : Returns (denyAcquire q.1 ⟨l, hgood.2.1 hactive⟩ now) s _ _ :=
    returns_bind.mpr ⟨event, _, hevent, returns_pure.mpr ⟨rfl, rfl⟩⟩
  have hafter : acquireAfter q now (some ⟨l, hgood.2.1 hactive⟩) =
      denyAcquire q.1 ⟨l, hgood.2.1 hactive⟩ now := if_pos hactive
  rw [← hafter] at hdeny
  exact ⟨_, _, returns_acquire.mpr ⟨exists_loadClientManifest hs hclient, _,
    existingIn_of_leaseOf hs hl (hgood.2.1 hactive), hdeny⟩, rfl⟩

/-- A lease that has ended, and loads, grants the task to every registered client. -/
theorem granted_of_ended (hs : RowsOk (fun _ => True) s) {q : Checked TaskLeaseAcquireRequest}
    {l : TaskLease} (hl : s.leaseOf q.1.taskId = some l) (hended : l.status ≠ .active)
    (hvalid : Model.Valid l) (hclient : s.clientManifests.has q.1.clientId = true) :
    ∃ r s', Returns (acquire q now) s r s' ∧ r.decision.allow = true := by
  have hnew : Model.Valid { (newTaskLease q now).1 with releaseReason := none } :=
    (newTaskLease q now).2
  have hlists : (s.putLease (newTaskLease q now).1).ledgerLists := hs.ledgerLists
  obtain ⟨event, hevent⟩ := returns_appendLeaseEvent hlists hnew
    (show lengthWithin 1 500 "Task lease acquired." = true by decide) .active now
  have hsave : Returns (saveTaskLease (newTaskLease q now).1) s _ _ :=
    returns_saveTaskLease_of_has hs hclient
  have hgrant : Returns (grantAcquire q now) s _ _ := returns_bind.mpr ⟨_, _, hsave,
    returns_bind.mpr ⟨event, _, hevent, returns_pure.mpr ⟨rfl, rfl⟩⟩⟩
  have hafter : acquireAfter q now (some ⟨l, hvalid⟩) = grantAcquire q now := if_neg hended
  have hallow := allow_of_grantAcquire hgrant
  rw [← hafter] at hgrant
  exact ⟨_, _, returns_acquire.mpr ⟨exists_loadClientManifest hs hclient, _,
    existingIn_of_leaseOf hs hl hvalid, hgrant⟩, hallow⟩

/-- Only an active lease is renewed. -/
theorem active_of_renewed {taskId : String} {q : Checked TaskLeaseRenewRequest}
    {r : TaskLeaseResult} (h : Returns (renew taskId q now) s r s') :
    ∃ l, s.leaseOf taskId = some l ∧ l.status = .active := by
  obtain ⟨lease, s₁, hload, hrest⟩ := returns_bind.mp h
  obtain ⟨⟨row, hrow, hbuild⟩, rfl⟩ := returns_loadTaskLease.mp hload
  obtain ⟨u, s₂, hholder, -⟩ := returns_bind.mp hrest
  refine ⟨lease.1, leaseOf_of_fetched (fetched_eq_ok.mpr ⟨row, hrow, hbuild⟩), ?_⟩
  by_contra hended
  obtain ⟨hok, -⟩ := returns_done.mp hholder
  unfold requireHolder at hok
  split at hok
  · cases hok
  · cases hok

/-- A request of a client for the task of a stored lease. -/
theorem exists_acquireRequest {l : TaskLease} (hl : GoodLease (fun _ => True) l) {id : String}
    (hid : safeIdentifier 1 160 id = true) :
    ∃ q : Checked TaskLeaseAcquireRequest, q.1.taskId = l.taskId ∧ q.1.clientId = id := by
  have hchecks := failedFields_eq_nil.mp hl.1.2
  simp only [Model.checks, List.forall_mem_cons] at hchecks
  obtain ⟨htask, hrun, -, hrole, hactor, -⟩ := hchecks
  refine ⟨⟨⟨l.taskId, l.runId, id, l.role, l.actor, 300⟩, rfl,
    failedFields_eq_nil.mpr ?_⟩, rfl, rfl⟩
  simp only [Model.checks, List.forall_mem_cons]
  exact ⟨htask, hrun, hid, hrole, hactor, rfl, fun _ hx => absurd hx List.not_mem_nil⟩

end Acquire

/-! ## The condition -/

/-- The identifier of a registered client passes the check of every request. -/
theorem safeIdentifier_of_has {s : Store} (hs : RowsOk (fun _ => True) s) {id : String}
    (h : s.clientManifests.has id = true) : safeIdentifier 1 160 id = true := by
  obtain ⟨row, hrow⟩ := Table.has_iff.mp h
  obtain ⟨hcolumns, hvalid⟩ := hs.manifests row (Table.mem_of_find? hrow)
  have hkey : row.payload.clientId = id := by
    rw [← Table.key_of_find? hrow, hcolumns]
    rfl
  rw [← hkey]
  exact failedFields_eq_nil.mp hvalid.2 ("client_id", safeIdentifier 1 160 row.payload.clientId)
    (by simp [Model.checks])

/-- In every reachable store, the expiry time of a task's lease is honoured exactly when the lease
    is not overdue, or has ended already and is not in the way of loading. -/
theorem expiryHonoured_iff {s : Store} (hs : Reachable s) (taskId : String) (now : DateTime) :
    ExpiryHonoured s taskId now ↔ OverdueEnded s taskId now := by
  constructor
  · intro h l hl hdue
    obtain ⟨hrow, htask, hgood⟩ := find?_of_leaseOf hs.rowsOk hl
    have hholder : s.clientManifests.has l.clientId = true :=
      hs.holdersKnown _ (Table.mem_of_find? hrow)
    refine ⟨fun hactive => ?_, ?_⟩
    · -- the holder itself asks again and is denied
      have hsafe := safeIdentifier_of_has hs.rowsOk hholder
      obtain ⟨q, hq, hclient⟩ := exists_acquireRequest hgood hsafe
      have hlease : s.leaseOf q.1.taskId = some l := by rw [hq, htask]; exact hl
      obtain ⟨r, s', hret, hdenied⟩ :=
        denied_of_active now hs.rowsOk hlease hactive (hclient ▸ hholder)
      obtain ⟨l', hl', -, hlive⟩ := h.denied q r s' (hq.trans htask) hret hdenied
      rw [hl] at hl'
      cases hl'
      omega
    · by_contra hblocked
      simp only [not_or, not_forall] at hblocked
      obtain ⟨hinvalid, id, hid, hother⟩ := hblocked
      obtain ⟨q, hq, hclient⟩ := exists_acquireRequest hgood (safeIdentifier_of_has hs.rowsOk hid)
      obtain ⟨r, s', hret, -⟩ := h.free l hl hdue q (hq.trans htask) (hclient ▸ hother)
        (hclient ▸ hid)
      obtain ⟨-, existing, hfound, -⟩ := returns_acquire.mp hret
      have hold := leaseOf_of_existingIn hfound
      rw [hq, htask, hl] at hold
      cases existing with
      | none => cases hold
      | some lease =>
        have hloaded : l = lease.1 := Option.some.inj hold
        exact hinvalid (hloaded ▸ lease.2)
  · intro h
    have hlive : ∀ l, s.leaseOf taskId = some l → l.status = .active → LiveLease s taskId now := by
      intro l hl hactive
      refine ⟨l, hl, hactive, ?_⟩
      by_contra hdue
      exact (h l hl (by omega)).1 hactive
    constructor
    · rintro q r s' rfl hret hdenied
      obtain ⟨l, hl, hactive⟩ := active_of_denied hret hdenied
      exact hlive l hl hactive
    · intro q r s' hret
      obtain ⟨l, hl, hactive⟩ := active_of_renewed hret
      exact hlive l hl hactive
    · rintro l hl hdue q rfl hother hclient
      obtain ⟨hended, hvalid | halone⟩ := h l hl hdue
      · exact granted_of_ended hs.rowsOk hl hended hvalid hclient
      · exact absurd (halone _ hclient) hother

/-! ## A lease that has run out and blocks -/

/-- Two clients register, and the first acquires the task for five minutes. -/
def leasing : List (Request × DateTime) := [
  (.register ⟨sampleManifest, sampleManifest_valid⟩, epoch),
  (.register ⟨otherManifest, rfl, by decide⟩, epoch),
  (.acquire sampleAcquire, epoch)]

/-- The store that these requests leave when each runs to its end. -/
def leasingStore : Store :=
  ((poolOf sampleOutside Store.empty leasing).exec
    ((List.range 3).flatMap (List.replicate 6))).state

theorem leasingStore_reachable : Reachable leasingStore :=
  ⟨sampleOutside, Table.empty, leasing, _, rfl⟩

/-- A year later the other client is still denied the task. -/
theorem overdueLease_blocks : Reachable leasingStore ∧
    ¬ ExpiryHonoured leasingStore "t1" (epoch.addSeconds 31536000) := by
  refine ⟨leasingStore_reachable, fun h => ?_⟩
  have hactive : (leasingStore.leaseOf "t1").map (fun l => decide (l.status = .active ∧
      l.expiresAt.instant ≤ (epoch.addSeconds 31536000).instant)) = some true := by decide
  have hclient : leasingStore.clientManifests.has "c2" = true := by decide
  obtain ⟨l, hl, hoverdue⟩ := Option.map_eq_some_iff.mp hactive
  rw [decide_eq_true_eq] at hoverdue
  obtain ⟨r, s', hret, hdenied⟩ := denied_of_active (epoch.addSeconds 31536000)
    leasingStore_reachable.rowsOk (q := otherAcquire) hl hoverdue.1 hclient
  obtain ⟨l', hl', -, hlive⟩ := h.denied otherAcquire r s' rfl hret hdenied
  have hsame : l' = l := Option.some.inj (hl'.symm.trans hl)
  rw [hsame] at hlive
  omega

/-- While its five minutes last, the lease is honoured. -/
theorem expiryHonoured_leasing : ExpiryHonoured leasingStore "t1" (epoch.addSeconds 60) := by
  refine (expiryHonoured_iff leasingStore_reachable "t1" _).mpr fun l hl hdue => ?_
  have hlive : (leasingStore.leaseOf "t1").map (fun l =>
      decide ((epoch.addSeconds 60).instant < l.expiresAt.instant)) = some true := by decide
  rw [hl, Option.map_some, Option.some.injEq, decide_eq_true_eq] at hlive
  omega

end Vad
