/-
  The life of a task lease, over sequential runs.

  1. What a request does to the lease of a task is one of five steps (`LeaseStep`): it stays, it is
     acquired, renewed or ended, or it goes with its client.  A lease is renewed and ended only
     while it is active, and acquired only while it is not (`leaseStep_afterRequest`).  The explicit
     `expire` is the exception: it does not look at the status.
  2. So a lease that has ended stays as it ended until the task is acquired again
     (`lease_lifecycle`).
  3. `expire` does not look at the time either: it ends every active lease (`expire_active`), where
     `TaskLease.expire` waits for the time of the lease (`expire_ends_early`).
-/
import Vad.Server.Runs
import Vad.Server.LeaseRace
import Vad.Server.StaleRecovery

namespace Vad

open Keyed (Table)
open Atomic (Program Pool)
open Atomic.Program (Safe Returns Preserves run_bind run_map returns_bind returns_pure)

/-! ## What a scan does to a lease -/

/-- The lease of the task is as it was, or it was active and is expired as stale. -/
def ScanEnds (taskId : String) (s s' : Store) : Prop :=
  SameLease taskId s s' ∨ ∃ l, l.status = .active ∧
    s.taskLeases.find? taskId = some (leaseRow l) ∧
    s'.taskLeases.find? taskId = some (leaseRow (staleLease l))

section Scan

variable {taskId : String} {a b c s : Store}

theorem SameLease.trans (hab : SameLease taskId a b) (hbc : SameLease taskId b c) :
    SameLease taskId a c := Eq.trans hbc hab

theorem ScanEnds.refl (s : Store) : ScanEnds taskId s s := Or.inl rfl

/-- An expired lease does not end once more. -/
theorem ScanEnds.trans (hab : ScanEnds taskId a b) (hbc : ScanEnds taskId b c) :
    ScanEnds taskId a c := by
  rcases hab with hab | ⟨l, hl, ha, hb⟩
  · rcases hbc with hbc | ⟨l, hl, hb, hc⟩
    · exact Or.inl (hab.trans hbc)
    · exact Or.inr ⟨l, hl, Eq.trans hab.symm hb, hc⟩
  · rcases hbc with hbc | ⟨l', hl', hb', -⟩
    · exact Or.inr ⟨l, hl, ha, Eq.trans hbc hb⟩
    · have heq := congrArg LeaseRow.status (Option.some.inj (hb.symm.trans hb'))
      have hexpired : TaskLeaseStatus.expired = l'.status := heq
      rw [hl'] at hexpired
      cases hexpired

/-- Expiring leases changes their rows and no others, also when the loop stops on its way. -/
theorem preserves_expireLeases (s₀ : Store) (leases : List (Checked TaskLease)) :
    Preserves (fun s => ∀ k, s.taskLeases.find? k = s₀.taskLeases.find? k ∨
        ∃ l ∈ leases, l.1.taskId = k ∧ s.taskLeases.find? k = some (leaseRow (staleLease l.1)))
      (Program.forEach leases fun l => upsertTaskLease (staleLease l.1)) := by
  refine Program.preserves_forEach fun l hl s hs k => ?_
  rcases run_upsertTaskLease (staleLease l.1) s with hrun | ⟨e, hrun⟩
  · rw [hrun]
    show (s.putLease (staleLease l.1)).taskLeases.find? k = _ ∨ _
    by_cases hk : l.1.taskId = k
    · subst hk
      exact Or.inr ⟨l, hl, rfl, find?_putLease s (staleLease l.1)⟩
    · have hother : (s.putLease (staleLease l.1)).taskLeases.find? k = s.taskLeases.find? k := by
        rw [Store.putLease_taskLeases, Table.find?_upsert]
        exact if_neg hk
      rw [hother]
      exact hs k
  · rw [hrun]
    exact hs k

theorem scanEnds_expireLeasesOf (hs : RowsOk (fun _ => True) s) (clientId : String) :
    ScanEnds taskId s ((expireLeasesOf clientId).run s).2 := by
  unfold expireLeasesOf
  rw [run_bind, selectTaskLeases, run_query]
  cases hleases : fetchedAll LeaseRow.payload (s.taskLeases.select
      (leaseMatches (some clientId) (some .active)) leaseOrder) with
  | error e => exact ScanEnds.refl s
  | ok leases =>
    have hactive := (activeLeases hs hleases).2
    have hloop := preserves_expireLeases s leases s (fun k => Or.inl rfl) taskId
    rcases hloop with hsame | ⟨l, hl, rfl, hnew⟩
    · exact Or.inl hsame
    · obtain ⟨hmem, -, hstatus⟩ := (hactive (leaseRow l.1)).mpr ⟨l, hl, rfl⟩
      exact Or.inr ⟨l.1, hstatus, Table.mem_rows_iff.mp hmem, hnew⟩

theorem scanEnds_markClientStale (hs : RowsOk (fun _ => True) s) (clientId : String) :
    ScanEnds taskId s ((markClientStale clientId).run s).2 := by
  have hexpire : ScanEnds taskId s ((expireLeasesOf clientId).run s).2 :=
    scanEnds_expireLeasesOf hs clientId
  unfold markClientStale
  rw [run_storeCall, run_bind, selectClientManifest, run_query]
  cases fetched clientId ManifestRow.payload (s.clientManifests.find? clientId) with
  | error e => exact ScanEnds.refl s
  | ok m =>
    show ScanEnds taskId s (Program.run (expireLeasesOf clientId >>= _) s).2
    rw [run_bind]
    generalize (expireLeasesOf clientId).run s = outcome at hexpire
    obtain ⟨r, s₁⟩ := outcome
    cases r with
    | error e => exact hexpire
    | ok expired => exact hexpire

/-- Every call of a scan leaves the lease alone or expires it. -/
theorem scanEnds_rule :
    ScanRule (fun {_} p => Safe (RowsOk fun _ => True) (ScanEnds taskId) p) := by
  have hleaves : CallRule (fun {_} p => Safe (fun _ => True) (ScanEnds taskId) p) := {
    done := fun _ => trivial
    bind := fun hp hk => Program.safe_bind hp hk
    query := fun f => (leavesLease_rule.query f).mono fun _ _ _ => Or.inl
    registerClientManifest := fun m =>
      (leavesLease_rule.registerClientManifest m).mono fun _ _ _ => Or.inl
    recordClientHeartbeat := fun h =>
      (leavesLease_rule.recordClientHeartbeat h).mono fun _ _ _ => Or.inl
    appendEvent := fun fields _ => (leavesLease_appendEvent fields).mono fun _ _ _ => Or.inl
    createWorkItem := fun item caller summary now =>
      (leavesLease_rule.createWorkItem item caller summary now).mono fun _ _ _ => Or.inl
    transition := fun id target caller change summary now =>
      (leavesLease_rule.transition id target caller change summary now).mono fun _ _ _ => Or.inl
    saveDiffProposal := fun p hid hp =>
      (leavesLease_rule.saveDiffProposal p hid hp).mono fun _ _ _ => Or.inl
    saveApprovalEvent := fun e hid =>
      (leavesLease_rule.saveApprovalEvent e hid).mono fun _ _ _ => Or.inl }
  refine { (rowsOk_rule fun _ _ => trivial).toCallRule.along hleaves with
    markClientStale := fun id => Program.safe_atomic fun s hs => ⟨?_, ?_⟩ }
  · exact scanEnds_markClientStale hs id
  · exact (safe_markClientStale (fun _ _ => trivial) id).run_keeps hs

theorem scanEnds_staleScan (hs : RowsOk (fun _ => True) s) (reference : DateTime) (seconds : Int)
    (auto : Bool) (now : DateTime) :
    ScanEnds taskId s ((markStaleClientsWithRecovery reference seconds auto now).run s).2 :=
  (scanEnds_rule.markStaleClientsWithRecovery reference seconds auto now).run_within
    ScanEnds.refl (fun hab hbc => hab.trans hbc) hs

end Scan

/-! ## What a call does to a lease -/

/-- The stored lease of a task. -/
def Store.leaseOf (s : Store) (taskId : String) : Option TaskLease :=
  (s.taskLeases.find? taskId).map LeaseRow.payload

/-- What a request may do to the lease of a task. -/
inductive LeaseStep (r : Request) (taskId : String) : Option TaskLease → Option TaskLease → Prop
  | same (old : Option TaskLease) : LeaseStep r taskId old old
  | acquired (old : Option TaskLease) (l : TaskLease) (q : Checked TaskLeaseAcquireRequest)
      (hr : r = .acquire q) (hq : q.1.taskId = taskId)
      (hfree : ∀ l', old = some l' → l'.status ≠ .active) (hactive : l.status = .active) :
      LeaseStep r taskId old (some l)
  | renewed (l : TaskLease) (expiresAt : DateTime) (hactive : l.status = .active) :
      LeaseStep r taskId (some l) (some { l with expiresAt := expiresAt })
  | ended (l : TaskLease) (status : TaskLeaseStatus) (reason : Option String)
      (hactive : l.status = .active) (hended : status = .released ∨ status = .expired) :
      LeaseStep r taskId (some l) (some { l with status := status, releaseReason := reason })
  | deleted (l : TaskLease) (hr : r = .unregister l.clientId) : LeaseStep r taskId (some l) none

/-- The request does not expire the lease of the task once it has ended. -/
def ExpiresActive (r : Request) (taskId : String) (s : Store) : Prop :=
  r = .expire taskId → ∀ l, s.leaseOf taskId = some l → l.status = .active

section Steps

variable {taskId : String} {s : Store}

/-- What leaves the lease alone, run to its end, leaves it alone. -/
theorem LeavesLease.run {α : Type} {p : Db α} (h : LeavesLease taskId p) (s : Store) :
    SameLease taskId s (p.run s).2 := by
  refine Safe.run_within (R := SameLease taskId) (fun _ => rfl) ?_ h (s := s) trivial
  intro a b c hab hbc
  exact hab.trans hbc

theorem leaseOf_of_same {s s' : Store} (h : SameLease taskId s s') :
    s'.leaseOf taskId = s.leaseOf taskId := by
  unfold Store.leaseOf
  rw [h]

theorem leaseStep_of_same {r : Request} {s s' : Store} (h : SameLease taskId s s') :
    LeaseStep r taskId (s.leaseOf taskId) (s'.leaseOf taskId) := by
  rw [leaseOf_of_same h]
  exact .same _

theorem leaseOf_eq_some {s : Store} {row : LeaseRow} (h : s.taskLeases.find? taskId = some row) :
    s.leaseOf taskId = some row.payload := by
  unfold Store.leaseOf
  rw [h]
  rfl

/-- A save, and then calls that leave leases alone: the lease is stored, or nothing is. -/
theorem run_saveTaskLease_bind {α : Type} (l : TaskLease) {k : TaskLease → Db α}
    (hk : ∀ l, LeavesLease taskId (k l)) (s : Store) :
    SameLease taskId s ((saveTaskLease l >>= k).run s).2 ∨
      l.taskId = taskId ∧ ((saveTaskLease l >>= k).run s).2.leaseOf taskId = some l := by
  rw [run_bind, saveTaskLease, run_storeCall]
  rcases run_upsertTaskLease l s with hrun | ⟨e, hrun⟩
  · rw [hrun]
    have hrest : SameLease taskId (s.putLease l) ((k l).run (s.putLease l)).2 := (hk l).run _
    show SameLease taskId s ((k l).run (s.putLease l)).2 ∨ _
    by_cases hl : l.taskId = taskId
    · refine Or.inr ⟨hl, ?_⟩
      show ((k l).run (s.putLease l)).2.leaseOf taskId = some l
      rw [leaseOf_of_same hrest, ← hl]
      exact leaseOf_eq_some (find?_putLease s l)
    · have hother : SameLease taskId s (s.putLease l) := by
        rw [SameLease, Store.putLease_taskLeases, Table.find?_upsert]
        exact if_neg hl
      exact Or.inl (hother.trans hrest)
  · rw [hrun]
    exact Or.inl rfl

theorem run_changeLease (l : TaskLease) (summary : String) (status : ControlPlaneEventStatus)
    (reason : String) (now : DateTime) (s : Store) :
    SameLease taskId s ((changeLease l summary status reason now).run s).2 ∨
      l.taskId = taskId ∧
        ((changeLease l summary status reason now).run s).2.leaseOf taskId = some l :=
  run_saveTaskLease_bind l (fun _ => leavesLease_rule.map (leavesLease_appendEvent _) _) s

/-- A lease that is read is the stored one. -/
theorem leaseOf_of_fetched {id : String} {l : Checked TaskLease}
    (h : fetched id LeaseRow.payload (s.taskLeases.find? id) = .ok l) : s.leaseOf id = some l.1 := by
  obtain ⟨row, hrow, hbuild⟩ := fetched_eq_ok.mp h
  rw [leaseOf_eq_some hrow, build_val (fun _ => rfl) hbuild]

/-- Loading a lease, and a program that goes on with it. -/
theorem run_loadTaskLease_bind {α : Type} (hs : RowsOk (fun _ => True) s) (id : String)
    (k : Checked TaskLease → Db α) :
    (∃ l : Checked TaskLease, s.leaseOf id = some l.1 ∧ l.1.taskId = id ∧
      ((loadTaskLease id) >>= k).run s = (k l).run s) ∨
    ∃ e, ((loadTaskLease id) >>= k).run s = (.error e, s) := by
  rw [run_bind, loadTaskLease, run_storeCall, run_query]
  cases hload : fetched id LeaseRow.payload (s.taskLeases.find? id) with
  | error e => exact Or.inr ⟨e, rfl⟩
  | ok l =>
    obtain ⟨row, hrow, hbuild⟩ := fetched_eq_ok.mp hload
    have hid : l.1.taskId = id := by
      rw [build_val (fun _ => rfl) hbuild, ← Table.key_of_find? hrow,
        (hs.leases row (Table.mem_of_find? hrow)).1]
      rfl
    exact Or.inl ⟨l, leaseOf_of_fetched hload, hid, rfl⟩

/-- The lease that a call saves, as a step of the lease of the task. -/
theorem leaseStep_changeLease {r : Request} {l l' : TaskLease} (summary : String)
    (status : ControlPlaneEventStatus) (reason : String) (now : DateTime)
    (hl : s.leaseOf l.taskId = some l) (hid : l'.taskId = l.taskId)
    (hstep : l.taskId = taskId → LeaseStep r taskId (some l) (some l')) :
    LeaseStep r taskId (s.leaseOf taskId)
      (((changeLease l' summary status reason now).run s).2.leaseOf taskId) := by
  have hrun : SameLease taskId s ((changeLease l' summary status reason now).run s).2 ∨
      l'.taskId = taskId ∧
        ((changeLease l' summary status reason now).run s).2.leaseOf taskId = some l' :=
    run_changeLease l' summary status reason now s
  rcases hrun with hsame | ⟨htask, hnew⟩
  · exact leaseStep_of_same hsame
  · have hold : l.taskId = taskId := hid.symm.trans htask
    rw [hnew, show s.leaseOf taskId = some l from hold ▸ hl]
    exact hstep hold

/-- A holder's call changes an active lease. -/
theorem leaseStep_ofHolder {r : Request} (hs : RowsOk (fun _ => True) s) (id clientId : String)
    (change : TaskLease → Except PyError TaskLease) (summary : String)
    (status : ControlPlaneEventStatus) (reason : String) (now : DateTime)
    (hchange : ∀ l l', change l = .ok l' → l'.taskId = l.taskId ∧
      (l.status = .active → LeaseStep r taskId (some l) (some l'))) :
    LeaseStep r taskId (s.leaseOf taskId) (((do
      let lease ← loadTaskLease id
      Program.done (requireHolder lease.1 clientId)
      let changed ← Program.done (change lease.1)
      changeLease changed summary status reason now : Db TaskLeaseResult).run s).2.leaseOf
        taskId) := by
  rcases run_loadTaskLease_bind hs id (fun lease => (do
      Program.done (requireHolder lease.1 clientId)
      let changed ← Program.done (change lease.1)
      changeLease changed summary status reason now : Db TaskLeaseResult)) with
    ⟨l, hl, hid, hrun⟩ | ⟨e, hrun⟩
  · rw [hrun]
    unfold requireHolder
    split
    · exact .same _
    split
    · exact .same _
    rename_i hactive
    cases hnew : change l.1 with
    | error e => exact .same _
    | ok l' =>
      obtain ⟨htask, hstep⟩ := hchange l.1 l' hnew
      exact leaseStep_changeLease summary status reason now (hid ▸ hl) htask
        fun _ => hstep (not_not.mp hactive)
  · rw [hrun]
    exact .same _

/-- What `acquire` finds of the old lease is the stored one. -/
theorem leaseOf_of_existingIn {id : String} {existing : Option (Checked TaskLease)}
    (h : existingIn id s = .ok existing) : s.leaseOf id = existing.map Subtype.val := by
  unfold existingIn at h
  split at h
  · rename_i l hl
    cases h
    exact leaseOf_of_fetched hl
  · rename_i key hkey
    cases h
    unfold Store.leaseOf
    cases hrow : s.taskLeases.find? id with
    | none => rfl
    | some row =>
      -- a stored row fails with its fields, not with its key
      rw [hrow] at hkey
      cases (Model.build_eq_error.mp hkey).2
  · cases h

theorem leaseStep_grantAcquire (q : Checked TaskLeaseAcquireRequest) (now : DateTime)
    (hfree : ∀ l, s.leaseOf q.1.taskId = some l → l.status ≠ .active) :
    LeaseStep (.acquire q) taskId (s.leaseOf taskId)
      (((grantAcquire q now).run s).2.leaseOf taskId) := by
  have hrun : SameLease taskId s ((grantAcquire q now).run s).2 ∨
      q.1.taskId = taskId ∧
        ((grantAcquire q now).run s).2.leaseOf taskId = some (newTaskLease q now).1 :=
    run_saveTaskLease_bind (newTaskLease q now).1
      (fun _ => leavesLease_rule.map (leavesLease_appendEvent _) _) s
  rcases hrun with hsame | ⟨htask, hnew⟩
  · exact leaseStep_of_same hsame
  · rw [hnew]
    exact .acquired _ _ q rfl htask (htask ▸ hfree) rfl

/-- An acquire stores its lease only where no active one is. -/
theorem leaseStep_acquire (q : Checked TaskLeaseAcquireRequest) (now : DateTime) :
    LeaseStep (.acquire q) taskId (s.leaseOf taskId)
      (((acquire q now).run s).2.leaseOf taskId) := by
  unfold acquire loadClientManifest
  rw [run_bind, run_storeCall, selectClientManifest, run_query]
  cases fetched q.1.clientId ManifestRow.payload (s.clientManifests.find? q.1.clientId) with
  | error e => exact .same _
  | ok m =>
    show LeaseStep _ _ _ (((acquireLease q now).run s).2.leaseOf taskId)
    unfold acquireLease
    rw [run_bind, existingLease_eq, run_query]
    cases hexisting : existingIn q.1.taskId s with
    | error e => exact .same _
    | ok existing =>
      have hold := leaseOf_of_existingIn hexisting
      show LeaseStep _ _ _ (((acquireAfter q now existing).run s).2.leaseOf taskId)
      unfold acquireAfter
      cases existing with
      | none => exact leaseStep_grantAcquire q now fun l hl => by rw [hold] at hl; cases hl
      | some lease =>
        dsimp only
        split
        · exact leaseStep_of_same (LeavesLease.run (leavesLease_rule.denyAcquire q.1 lease now) s)
        · rename_i hended
          refine leaseStep_grantAcquire q now fun l hl => ?_
          rw [hold] at hl
          cases hl
          exact hended

theorem leaseStep_unregister (hs : RowsOk (fun _ => True) s) (id : String) (now : DateTime) :
    LeaseStep (.unregister id) taskId (s.leaseOf taskId)
      (((unregister id now).run s).2.leaseOf taskId) := by
  unfold unregister unregisterClientManifest
  rw [run_bind, run_storeCall, run_bind, selectClientManifest, run_query]
  cases fetched id ManifestRow.payload (s.clientManifests.find? id) with
  | error e => exact .same _
  | ok m =>
    have hevent : SameLease taskId (deleteManifest id s)
        ((do let event ← appendRegistryEvent m.1 "unregistered" now
             pure ({ manifest := m, event := event } : ClientRegistrationResult)
            : Db _).run (deleteManifest id s)).2 :=
      LeavesLease.run (leavesLease_rule.map (leavesLease_appendEvent _) _) _
    show LeaseStep _ _ _ (Store.leaseOf (Program.run _ (deleteManifest id s)).2 taskId)
    rw [leaseOf_of_same hevent]
    unfold Store.leaseOf
    rw [show (deleteManifest id s).taskLeases.find? taskId = _ from Table.find?_keep ..]
    cases hrow : s.taskLeases.find? taskId with
    | none => exact .same none
    | some row =>
      by_cases hholder : row.clientId = id
      · have hpayload : row.payload.clientId = id := by
          rw [← hholder, (hs.leases row (Table.mem_of_find? hrow)).1]
          rfl
        simp only [Option.filter_some, hholder, ne_eq, not_true, decide_false]
        exact .deleted _ (hpayload ▸ rfl)
      · simp only [Option.filter_some, hholder, ne_eq, not_false_eq_true, decide_true]
        exact .same _

/-- One request, and the lease of one task. -/
theorem leaseStep_afterRequest (o : Outside) (r : Request × DateTime)
    (hs : RowsOk (fun _ => True) s) (hexpire : ExpiresActive r.1 taskId s) :
    LeaseStep r.1 taskId (s.leaseOf taskId) ((afterRequest o s r).leaseOf taskId) := by
  obtain ⟨r, now⟩ := r
  have hrule := @leavesLease_rule taskId
  unfold afterRequest
  cases r with
  | register m => exact leaseStep_of_same (LeavesLease.run (hrule.map (hrule.register m now) _) s)
  | heartbeat b => exact leaseStep_of_same (LeavesLease.run (hrule.map (hrule.heartbeat b) _) s)
  | createWorkItem item caller summary =>
    exact leaseStep_of_same (LeavesLease.run (hrule.map (hrule.createWorkItem item caller summary now) _) s)
  | transition c =>
    exact leaseStep_of_same (LeavesLease.run (hrule.map (hrule.transitionCall c now) _) s)
  | schedule c =>
    exact leaseStep_of_same (LeavesLease.run (hrule.map (hrule.scheduleCall c now) _) s)
  | ingest e id =>
    exact leaseStep_of_same (LeavesLease.run (hrule.map (leavesLease_ingest e id now) _) s)
  | approve q =>
    exact leaseStep_of_same (LeavesLease.run (hrule.map (hrule.approve o.computeHash q now) _) s)
  | propose q =>
    exact leaseStep_of_same (LeavesLease.run (hrule.map (hrule.propose o.sha256 o.str q now) _) s)
  | unregister id =>
    show LeaseStep _ _ _ (Store.leaseOf (Program.run (do
      let a ← unregister id now; pure (Response.client a)) s).2 taskId)
    rw [run_map]
    exact leaseStep_unregister hs id now
  | staleScan reference seconds auto =>
    show LeaseStep _ _ _ (Store.leaseOf (Program.run (do
      let a ← markStaleClientsWithRecovery reference seconds auto now
      pure (Response.staleScan a)) s).2 taskId)
    rw [run_map]
    rcases scanEnds_staleScan hs reference seconds auto now with hsame | ⟨l, hl, hold, hnew⟩
    · exact leaseStep_of_same hsame
    · rw [leaseOf_eq_some hold, leaseOf_eq_some hnew]
      exact .ended l .expired (some "client marked stale") hl (Or.inr rfl)
  | acquire q =>
    show LeaseStep _ _ _ (Store.leaseOf (Program.run (do
      let a ← acquire q now; pure (Response.lease a)) s).2 taskId)
    rw [run_map]
    exact leaseStep_acquire q now
  | renew id q =>
    show LeaseStep _ _ _ (Store.leaseOf (Program.run (do
      let a ← renew id q now; pure (Response.lease a)) s).2 taskId)
    rw [run_map]
    refine leaseStep_ofHolder hs id q.1.clientId (fun l => l.renew now q.1.ttlSeconds) _ _ _ now
      fun l l' hl => ?_
    unfold TaskLease.renew at hl
    split at hl
    · cases hl
      exact ⟨rfl, .renewed l _⟩
    · cases hl
  | release id q =>
    show LeaseStep _ _ _ (Store.leaseOf (Program.run (do
      let a ← release id q now; pure (Response.lease a)) s).2 taskId)
    rw [run_map]
    refine leaseStep_ofHolder hs id q.1.clientId (fun l => l.release q.1.reason) _ _ _ now
      fun l l' hl => ?_
    unfold TaskLease.release at hl
    split at hl
    · cases hl
      exact ⟨rfl, fun hactive => .ended l .released q.1.reason hactive (Or.inl rfl)⟩
    · cases hl
  | expire id =>
    show LeaseStep _ _ _ (Store.leaseOf (Program.run (do
      let a ← expire id now; pure (Response.lease a)) s).2 taskId)
    rw [run_map]
    unfold expire
    rcases run_loadTaskLease_bind hs id (fun lease => changeLease (lease.1.expiredWith
        "lease expired") "Task lease expired." .stale "task lease expired" now) with
      ⟨l, hl, hid, hrun⟩ | ⟨e, hrun⟩
    · rw [hrun]
      refine leaseStep_changeLease _ _ _ now (l := l.1) (hid ▸ hl) rfl fun htask => ?_
      have hactive : l.1.status = .active :=
        hexpire (by rw [← htask, hid]) l.1 (by rw [← htask, hid]; exact hl)
      exact .ended l.1 .expired (some "lease expired") hactive (Or.inr rfl)
    · rw [hrun]
      exact .same _

end Steps

/-! ## Holders are registered -/

/-- The holder of every stored lease is registered. -/
def HoldersKnown (s : Store) : Prop :=
  ∀ row ∈ s.taskLeases.rows, s.clientManifests.has row.clientId = true

section Holders

theorem holdersKnown_of_keeps {α : Type} {p : Db α} (h : Safe (fun _ => True) KeepsLeases p) :
    Safe HoldersKnown Any p := by
  have hkeeps : Safe (fun s => True ∧ HoldersKnown s) KeepsLeases p := by
    refine h.invariant fun s s' _ hkeep hs row hrow => ?_
    rw [hkeep.leases] at hrow
    exact hkeep.clients _ (hs row hrow)
  have hboth : (fun s => True ∧ HoldersKnown s) = HoldersKnown := funext fun s => true_and _
  rw [hboth] at hkeeps
  exact hkeeps.mono fun _ _ _ _ => trivial

/-- A lease is saved for a registered client only. -/
theorem preserves_upsertTaskLease (l : TaskLease) :
    Preserves HoldersKnown (upsertTaskLease l) := by
  intro s hs
  cases hclient : fetched l.clientId ManifestRow.payload (s.clientManifests.find? l.clientId) with
  | error e =>
    rw [show (upsertTaskLease l).run s = (.error e, s) by
      simp only [upsertTaskLease, run_bind, selectClientManifest, run_query, hclient]]
    exact hs
  | ok m =>
    obtain ⟨row, hrow, -⟩ := fetched_eq_ok.mp hclient
    rw [show (upsertTaskLease l).run s = (.ok l, s.putLease l) by
      simp only [upsertTaskLease, run_bind, selectClientManifest, run_query, hclient]; rfl]
    exact Table.forall_upsert hs (Table.has_iff.mpr ⟨row, hrow⟩)

theorem preserves_expireLeasesOf (clientId : String) :
    Preserves HoldersKnown (expireLeasesOf clientId) :=
  Program.preserves_bind (Program.preserves_atomic fun _ hs => hs) fun _ =>
    Program.preserves_forEach fun _ _ => preserves_upsertTaskLease _

theorem preserves_markClientStale (clientId : String) :
    Preserves HoldersKnown (markClientStale clientId) := by
  have hquery {α : Type} (f : Store → Except PyError α) : Preserves HoldersKnown (query f) :=
    Program.preserves_atomic fun _ hs => hs
  intro s hs
  unfold markClientStale
  rw [run_storeCall]
  refine Program.preserves_bind (hquery _) (fun m => ?_) s hs
  refine Program.preserves_bind (preserves_expireLeasesOf clientId) fun expired => ?_
  refine Program.preserves_bind (hquery _) fun row => ?_
  refine Program.preserves_bind (Program.preserves_atomic fun s hs => ?_) fun _ =>
    Program.preserves_done _
  exact hs

/-- Deleting a client deletes the leases it holds. -/
theorem holdersKnown_deleteManifest {s : Store} (hs : HoldersKnown s) (id : String) :
    HoldersKnown (deleteManifest id s) := by
  intro row hrow
  obtain ⟨hmem, hother⟩ := Table.mem_rows_keep.mp hrow
  obtain ⟨manifest, hmanifest⟩ := Table.has_iff.mp (hs row hmem)
  refine Table.has_iff.mpr ⟨manifest, ?_⟩
  rw [show (deleteManifest id s).clientManifests.find? row.clientId = _ from Table.find?_keep ..,
    hmanifest, Option.filter_some, Table.key_of_find? hmanifest]
  exact if_pos hother

/-- Every call keeps the holders of leases registered. -/
theorem holdersKnown_rule :
    RequestRule (fun _ => True) (fun {_} p => Safe HoldersKnown Any p) where
  done _ := trivial
  bind hp hk := Program.safe_bind hp hk
  query f := safe_query (fun _ => trivial) f
  registerClientManifest m := holdersKnown_of_keeps (keepsLeases_rule.registerClientManifest m)
  recordClientHeartbeat b := holdersKnown_of_keeps (keepsLeases_rule.recordClientHeartbeat b)
  appendEvent fields _ := holdersKnown_of_keeps (keepsLeases_of_keepsClients (keepsClients_appendEvent fields))
  createWorkItem item caller summary now :=
    holdersKnown_of_keeps (keepsLeases_rule.createWorkItem item caller summary now)
  transition id target caller change summary now :=
    holdersKnown_of_keeps (keepsLeases_rule.transition id target caller change summary now)
  saveDiffProposal p hid hp := holdersKnown_of_keeps (keepsLeases_rule.saveDiffProposal p hid hp)
  saveApprovalEvent e hid := holdersKnown_of_keeps (keepsLeases_rule.saveApprovalEvent e hid)
  markClientStale id := Program.safe_atomic fun s hs => ⟨trivial, preserves_markClientStale id s hs⟩
  unregisterClientManifest id :=
    safe_storeCall (Program.safe_bind (safe_selectClientManifest _) fun _ =>
      Program.safe_bind (safe_execute fun s s' hs h => by
        cases h; exact holdersKnown_deleteManifest hs id) fun _ => trivial)
  saveTaskLease l _ := Program.safe_atomic fun s hs => ⟨trivial, preserves_upsertTaskLease l s hs⟩

theorem Reachable.holdersKnown {s : Store} (h : Reachable s) : HoldersKnown s := by
  obtain ⟨o, evidence, requests, schedule, rfl⟩ := h
  have hempty : HoldersKnown { Store.empty with runEvidence := evidence } :=
    fun row hrow => absurd hrow List.not_mem_nil
  refine Pool.exec_safe (R := Any) schedule _ hempty fun p hp => ?_
  obtain ⟨r, -, rfl⟩ := List.mem_map.mp hp
  exact holdersKnown_rule.request (fun _ _ => trivial)
    (fun e id now _ => holdersKnown_of_keeps (keepsLeases_of_keepsClients (keepsClients_ingest e id now)))
    (fun _ _ _ => trivial) o r.2

end Holders

/-! ## Calls that succeed -/

section Succeeds

variable {s : Store} {l : TaskLease}

/-- The event about a stored lease passes its checks. -/
theorem taskLeaseEvent_ok (h : Model.Valid { l with releaseReason := none }) {summary : String}
    (hsummary : lengthWithin 1 500 summary = true) (status : ControlPlaneEventStatus)
    (now : DateTime) (n : Nat) : (taskLeaseEvent l summary status now n).ok = true := by
  have h := failedFields_eq_nil.mp h.2
  simp only [Model.checks, List.forall_mem_cons] at h
  obtain ⟨htask, hrun, hclient, hrole, hactor, -⟩ := h
  unfold EventFields.ok
  rw [decide_eq_true_eq, failedFields_eq_nil]
  simp only [EventFields.checks, List.forall_mem_cons]
  exact ⟨hclient, rfl, safeIdentifier_loosen hrun, safeIdentifier_loosen htask, hactor, hrole, rfl,
    hsummary, fun _ hx => absurd hx List.not_mem_nil⟩

theorem returns_appendLeaseEvent (hlists : s.ledgerLists)
    (h : Model.Valid { l with releaseReason := none }) {summary : String}
    (hsummary : lengthWithin 1 500 summary = true) (status : ControlPlaneEventStatus)
    (now : DateTime) : ∃ event, Returns (appendLeaseEvent l summary status now) s event
      (s.putEvent (taskLeaseEvent l summary status now (s.eventCount + 1))) :=
  exists_appendEvent hlists (taskLeaseEvent_ok h hsummary status now (s.eventCount + 1))

/-- A lease of a registered client can be saved. -/
theorem returns_saveTaskLease_of_has (hs : RowsOk (fun _ => True) s)
    (hclient : s.clientManifests.has l.clientId = true) :
    Returns (saveTaskLease l) s l (s.putLease l) := by
  obtain ⟨row, hrow⟩ := Table.has_iff.mp hclient
  have hvalid := (hs.manifests row (Table.mem_of_find? hrow)).2
  exact returns_saveTaskLease.mpr ⟨⟨row, _, hrow, Model.build_of_valid hvalid⟩, rfl, rfl⟩

theorem returns_changeLease (hs : RowsOk (fun _ => True) s)
    (hclient : s.clientManifests.has l.clientId = true)
    (h : Model.Valid { l with releaseReason := none }) {summary : String}
    (hsummary : lengthWithin 1 500 summary = true) (status : ControlPlaneEventStatus)
    (reason : String) (now : DateTime) :
    ∃ r, Returns (changeLease l summary status reason now) s r
      ((s.putLease l).putEvent (taskLeaseEvent l summary status now (s.eventCount + 1))) := by
  have hlists : (s.putLease l).ledgerLists := hs.ledgerLists
  obtain ⟨event, hevent⟩ := returns_appendLeaseEvent hlists h hsummary status now
  exact ⟨_, returns_bind.mpr ⟨l, _, returns_saveTaskLease_of_has hs hclient,
    returns_bind.mpr ⟨event, _, hevent, returns_pure.mpr ⟨rfl, rfl⟩⟩⟩⟩

/-- The row of a stored lease. -/
theorem find?_of_leaseOf (hs : RowsOk (fun _ => True) s) {taskId : String}
    (h : s.leaseOf taskId = some l) :
    s.taskLeases.find? taskId = some (leaseRow l) ∧ l.taskId = taskId ∧
      GoodLease (fun _ => True) l := by
  unfold Store.leaseOf at h
  obtain ⟨row, hrow, rfl⟩ := Option.map_eq_some_iff.mp h
  obtain ⟨hcolumns, hgood⟩ := hs.leases row (Table.mem_of_find? hrow)
  rw [← Table.key_of_find? hrow]
  refine ⟨?_, ?_, hgood⟩
  · rw [← hcolumns, Table.key_of_find? hrow]
    exact hrow
  · rw [hcolumns]
    rfl

/-- `expire` of an active lease ends it, whatever its time, and no other. -/
theorem expire_active (hs : Reachable s) {taskId : String} (h : s.leaseOf taskId = some l)
    (hactive : l.status = .active) (now : DateTime) :
    ∃ r s', Returns (expire taskId now) s r s' ∧
      s'.leaseOf taskId = some (l.expiredWith "lease expired") ∧
      ∀ other, other ≠ taskId → s'.leaseOf other = s.leaseOf other := by
  obtain ⟨hrow, htask, hgood⟩ := find?_of_leaseOf hs.rowsOk h
  have hload : Returns (loadTaskLease taskId) s ⟨l, hgood.2.1 hactive⟩ s :=
    returns_loadTaskLease.mpr ⟨⟨_, hrow, Model.build_of_valid (hgood.2.1 hactive)⟩, rfl⟩
  have hclient : s.clientManifests.has l.clientId = true :=
    hs.holdersKnown _ (Table.mem_of_find? hrow)
  obtain ⟨r, hchange⟩ := returns_changeLease (l := l.expiredWith "lease expired") hs.rowsOk
    hclient (TaskLease.valid_of_same hgood.1 rfl rfl rfl rfl rfl rfl)
    (show lengthWithin 1 500 "Task lease expired." = true by decide) .stale "task lease expired" now
  refine ⟨r, _, returns_bind.mpr ⟨_, s, hload, hchange⟩, ?_, fun other hother => ?_⟩
  · rw [← htask]
    exact leaseOf_eq_some (find?_putLease s (l.expiredWith "lease expired"))
  · refine leaseOf_of_same (s := s) ?_
    show (s.putLease _).taskLeases.find? other = _
    rw [Store.putLease_taskLeases, Table.find?_upsert]
    exact if_neg (show ¬ l.taskId = other from htask ▸ hother.symm)

end Succeeds

/-! ## Runs -/

/-- The request may change a lease of the task that has ended: it acquires the task, expires it, or
    unregisters the client that held it. -/
def Request.touchesEnded (taskId : String) (l : TaskLease) : Request → Prop
  | .acquire q => q.1.taskId = taskId
  | .expire id => id = taskId
  | .unregister id => id = l.clientId
  | _ => False

/-- An ended lease is left as it ended by every other request. -/
theorem LeaseStep.ended_stays {r : Request} {taskId : String} {l : TaskLease}
    {new : Option TaskLease} (h : LeaseStep r taskId (some l) new) (hended : l.status ≠ .active)
    (hr : ¬ r.touchesEnded taskId l) : new = some l := by
  cases h with
  | same => rfl
  | acquired _ l' q hq htask hfree hactive =>
    subst hq
    exact absurd htask hr
  | renewed _ expiresAt hactive => exact absurd hactive hended
  | ended _ status reason hactive hst => exact absurd hactive hended
  | deleted _ hreq =>
    subst hreq
    exact absurd rfl hr

theorem endedLease_stays (o : Outside) {taskId : String} {l : TaskLease}
    (hended : l.status ≠ .active) (requests : List (Request × DateTime))
    (hrequests : ∀ r ∈ requests, ¬ r.1.touchesEnded taskId l) {s : Store}
    (hs : RowsOk (fun _ => True) s) (hl : s.leaseOf taskId = some l) :
    (afterRequests o s requests).leaseOf taskId = some l := by
  refine (afterRequests_keeps (o := o)
    (I := fun s => RowsOk (fun _ => True) s ∧ s.leaseOf taskId = some l) requests
    (fun r hr s h => ⟨rowsOk_afterRequest r s h.1, ?_⟩) s ⟨hs, hl⟩).2
  have hexpire : ExpiresActive r.1 taskId s := by
    intro hreq
    have hno := hrequests r hr
    rw [hreq] at hno
    exact absurd rfl hno
  have hstep := leaseStep_afterRequest o r h.1 hexpire
  rw [h.2] at hstep
  exact hstep.ended_stays hended (hrequests r hr)

/-- A client that registers and acquires a task at the epoch, for five minutes. -/
def leasedStore : Store := afterRequests sampleOutside Store.empty [
  (.register ⟨sampleManifest, sampleManifest_valid⟩, epoch),
  (.acquire sampleAcquire, epoch)]

/-- The service does to the stored lease what `TaskLease.expire` does to it. -/
def ExpireAgrees (o : Outside) (s : Store) (taskId : String) (now : DateTime) : Prop :=
  (afterRequest o s (.expire taskId, now)).leaseOf taskId =
    (s.leaseOf taskId).map fun l => l.expire now

end Vad
