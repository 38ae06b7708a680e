/-
  A stale scan, made twice in a row.

  The scan looks at the heartbeat time of every client that is not disconnected (`watchedTime`), and
  not at whether it was marked before.  What follows for the second of two scans with one time and
  threshold:

  1. it selects the clients that the first selected, in the same order (`scanned_again`): marking a
     client keeps its heartbeat time, and does not disconnect it;
  2. the first of them holds no active lease any more, so marking it once more succeeds and empties
     the record of its lost leases;
  3. and it appends one more stale event to the ledger (`scan_appends`).

  So scanning is idempotent exactly when there is nothing to scan (`repeatedScan_iff`).
-/
import Vad.Server.LeaseLifecycle
import Vad.Server.LedgerNumbering

namespace Vad

open Keyed (Table)
open Atomic (Program Pool)
open Atomic.Program (Safe Returns Preserves run_bind returns_bind returns_pure)

/-! ## Marking a client, in full -/

/-- The heartbeat row of a client that is marked stale. -/
def staleBeat (clientId : String) (row : Option HeartbeatRow) (lost : List String) :
    HeartbeatRow where
  clientId := clientId
  status := .stale
  lastHeartbeatAt := row.bind HeartbeatRow.lastHeartbeatAt
  lastRunId := row.bind HeartbeatRow.lastRunId
  lastTaskId := row.bind HeartbeatRow.lastTaskId
  lostTaskLeases := lost

section Marking

variable {s : Store}

/-- Expiring leases is about leases only, also when it stops on its way. -/
theorem expireLeasesOf_keeps (s : Store) (clientId : String) :
    ((expireLeasesOf clientId).run s).2.clientManifests = s.clientManifests ∧
      ((expireLeasesOf clientId).run s).2.clientHeartbeats = s.clientHeartbeats := by
  have hsave (l : TaskLease) : Preserves (fun t : Store => t.clientManifests = s.clientManifests ∧
      t.clientHeartbeats = s.clientHeartbeats) (upsertTaskLease l) := by
    intro t ht
    rcases run_upsertTaskLease l t with h | ⟨e, h⟩ <;> rw [h] <;> exact ht
  have hloop : Preserves (fun t : Store => t.clientManifests = s.clientManifests ∧
      t.clientHeartbeats = s.clientHeartbeats) (expireLeasesOf clientId) :=
    Program.preserves_bind (Program.preserves_atomic fun _ ht => ht) fun _ =>
      Program.preserves_forEach fun _ _ => hsave _
  exact hloop s ⟨rfl, rfl⟩

/-- Marking a client writes its heartbeat row, or raises and leaves all rows as they were. -/
theorem run_markClientStale_registry (clientId : String) (s : Store) :
    ((markClientStale clientId).run s).2.clientManifests = s.clientManifests ∧
      (((markClientStale clientId).run s).2.clientHeartbeats = s.clientHeartbeats ∨
        ∃ lost, ((markClientStale clientId).run s).2.clientHeartbeats = s.clientHeartbeats.upsert
          (staleBeat clientId (s.clientHeartbeats.find? clientId) lost)) := by
  have hexpire := expireLeasesOf_keeps s clientId
  unfold markClientStale
  rw [run_storeCall, run_bind, selectClientManifest, run_query]
  cases fetched clientId ManifestRow.payload (s.clientManifests.find? clientId) with
  | error e => exact ⟨rfl, Or.inl rfl⟩
  | ok m =>
    dsimp only
    rw [run_bind]
    generalize (expireLeasesOf clientId).run s = outcome at hexpire
    obtain ⟨r, s₁⟩ := outcome
    cases r with
    | error e => exact ⟨hexpire.1, Or.inl hexpire.2⟩
    | ok expired =>
      refine ⟨hexpire.1, Or.inr ⟨expired.map TaskLease.taskId, ?_⟩⟩
      show s₁.clientHeartbeats.upsert (staleBeat clientId (s₁.clientHeartbeats.find? clientId) _) = _
      rw [hexpire.2]

/-- A registered client can be marked. -/
theorem exists_markClientStale (hs : RowsOk (fun _ => True) s) {clientId : String}
    (hclient : s.clientManifests.has clientId = true) :
    ∃ snapshot s', Returns (markClientStale clientId) s snapshot s' ∧
      snapshot.lastRunId = (s.clientHeartbeats.find? clientId).bind HeartbeatRow.lastRunId ∧
      snapshot.lastTaskId = (s.clientHeartbeats.find? clientId).bind HeartbeatRow.lastTaskId := by
  obtain ⟨row, hrow⟩ := Table.has_iff.mp hclient
  have hvalid := (hs.manifests row (Table.mem_of_find? hrow)).2
  have hleases : ∀ r ∈ s.taskLeases.select (leaseMatches (some clientId) (some .active)) leaseOrder,
      Model.Valid r.payload := by
    intro r hr
    obtain ⟨hmem, hmatch⟩ := Table.mem_select.mp hr
    obtain ⟨hcolumns, hgood⟩ := hs.leases r hmem
    have hactive : r.status = .active := by
      simp only [leaseMatches, Option.all_some, Bool.and_eq_true, decide_eq_true_eq] at hmatch
      exact hmatch.2
    rw [hcolumns] at hactive
    exact hgood.2.1 hactive
  obtain ⟨leases, hlist, -⟩ := fetchedAll_of_valid hleases
  have hholder : ∀ l ∈ leases, l.1.clientId = clientId := fun l hl =>
    (((activeLeases hs hlist).2 (leaseRow l.1)).mpr ⟨l, hl, rfl⟩).2.1
  -- every save finds the client, whatever was saved before
  have hloop : ∀ (ls : List (Checked TaskLease)) (t : Store), (∀ l ∈ ls, l.1.clientId = clientId) →
      t.clientManifests = s.clientManifests → ∃ expired t',
        Returns (Program.forEach ls fun l => upsertTaskLease (staleLease l.1)) t expired t' ∧
          t'.clientHeartbeats = t.clientHeartbeats := by
    intro ls
    induction ls with
    | nil => exact fun t _ _ => ⟨[], t, returns_pure.mpr ⟨rfl, rfl⟩, rfl⟩
    | cons l ls ih =>
      intro t hls ht
      have hsave : Returns (upsertTaskLease (staleLease l.1)) t (staleLease l.1)
          (t.putLease (staleLease l.1)) := by
        refine returns_upsertTaskLease.mpr ⟨⟨row, _, ?_, Model.build_of_valid hvalid⟩, rfl, rfl⟩
        rw [show (staleLease l.1).clientId = clientId from hls l (List.mem_cons_self ..), ht]
        exact hrow
      obtain ⟨expired, t', hrest, hbeats⟩ :=
        ih (t.putLease (staleLease l.1)) (fun x hx => hls x (List.mem_cons_of_mem l hx)) ht
      exact ⟨_, t', returns_bind.mpr ⟨_, _, hsave, returns_bind.mpr ⟨expired, t', hrest,
        returns_pure.mpr ⟨rfl, rfl⟩⟩⟩, hbeats⟩
  obtain ⟨expired, t, hexpired, hbeats⟩ := hloop leases s hholder rfl
  have hexpire : Returns (expireLeasesOf clientId) s expired t :=
    returns_bind.mpr ⟨leases, s, returns_selectTaskLeases.mpr ⟨hlist, rfl⟩, hexpired⟩
  refine ⟨_, _, returns_storeCall.mpr (returns_bind.mpr ⟨_, s,
    returns_selectClientManifest.mpr ⟨⟨row, hrow, Model.build_of_valid hvalid⟩, rfl⟩,
    returns_bind.mpr ⟨expired, t, hexpire, returns_bind.mpr ⟨_, t, returns_query.mpr ⟨rfl, rfl⟩,
      returns_bind.mpr ⟨(), _, returns_execute.mpr rfl, returns_pure.mpr ⟨rfl, rfl⟩⟩⟩⟩⟩),
    ?_, ?_⟩
  · show (t.clientHeartbeats.find? clientId).bind _ = _
    rw [hbeats]
  · show (t.clientHeartbeats.find? clientId).bind _ = _
    rw [hbeats]

end Marking

/-! ## Heartbeat rows -/

/-- The run and the task that a heartbeat row names pass the checks of an event. -/
def BeatOk (row : HeartbeatRow) : Prop :=
  optionally (safeIdentifier 0 160) row.lastRunId = true ∧
    optionally (safeIdentifier 0 160) row.lastTaskId = true

def BeatsOk (s : Store) : Prop := ∀ row ∈ s.clientHeartbeats.rows, BeatOk row

section Beats

theorem SameClients.beatsOk {s s' : Store} (h : SameClients s s') (hs : BeatsOk s) : BeatsOk s' := by
  intro row hrow
  rw [h.heartbeats] at hrow
  exact hs row hrow

theorem beatsOk_of_keepsClients {α : Type} {p : Db α} (h : KeepsClients p) :
    Safe BeatsOk Any p := by
  have hkept : Safe (fun s => True ∧ BeatsOk s) SameClients p :=
    h.invariant fun s s' _ hsame hs => hsame.beatsOk hs
  have hboth : (fun s => True ∧ BeatsOk s) = BeatsOk := funext fun s => true_and _
  rw [hboth] at hkept
  exact hkept.mono fun _ _ _ _ => trivial

/-- The row of a marked client names what the row before named. -/
theorem beatOk_staleBeat {s : Store} (hs : BeatsOk s) (clientId : String) (lost : List String) :
    BeatOk (staleBeat clientId (s.clientHeartbeats.find? clientId) lost) := by
  cases hrow : s.clientHeartbeats.find? clientId with
  | none => exact ⟨rfl, rfl⟩
  | some row => exact hs row (Table.mem_of_find? hrow)

theorem beatsOk_markClientStale (clientId : String) :
    Safe BeatsOk Any (markClientStale clientId) := by
  refine Program.safe_atomic fun s hs => ⟨trivial, ?_⟩
  rcases (run_markClientStale_registry clientId s).2 with h | ⟨lost, h⟩
  · exact fun row hrow => hs row (h ▸ hrow)
  · intro row hrow
    exact Table.forall_upsert hs (beatOk_staleBeat hs clientId lost) row (h ▸ hrow)

theorem beatsOk_rule : RequestRule (fun _ => True) (fun {_} p => Safe BeatsOk Any p) where
  done _ := trivial
  bind hp hk := Program.safe_bind hp hk
  query f := safe_query (fun _ => trivial) f
  registerClientManifest m := by
    refine safe_storeCall (Program.safe_bind (safe_execute fun s s' hs h => ?_) fun _ => trivial)
    split at h
    · cases h
      exact hs
    · cases h
  unregisterClientManifest id :=
    safe_storeCall (Program.safe_bind (safe_selectClientManifest _) fun _ =>
      Program.safe_bind (safe_execute fun s s' hs h => by
        cases h; exact Table.forall_keep hs) fun _ => trivial)
  recordClientHeartbeat b := by
    refine safe_storeCall (Program.safe_bind (safe_selectClientManifest _) fun _ =>
      Program.safe_bind (safe_execute fun s s' hs h => ?_) fun _ => trivial)
    cases h
    have hb := failedFields_eq_nil.mp b.2.2
    simp only [Model.checks, List.forall_mem_cons] at hb
    exact Table.forall_upsert hs ⟨hb.2.1, hb.2.2.1⟩
  markClientStale := beatsOk_markClientStale
  saveTaskLease l _ := safe_storeCall (Program.safe_bind (safe_selectClientManifest _) fun _ =>
    Program.safe_bind (safe_execute fun s s' hs h => by cases h; exact hs) fun _ => trivial)
  appendEvent fields _ := beatsOk_of_keepsClients (keepsClients_appendEvent fields)
  createWorkItem item caller summary now :=
    beatsOk_of_keepsClients (keepsClients_createWorkItem item caller summary now)
  transition id target caller change summary now :=
    beatsOk_of_keepsClients (keepsClients_transition id target caller change summary now)
  saveDiffProposal p hid _ := beatsOk_of_keepsClients (keepsClients_saveDiffProposal p hid)
  saveApprovalEvent e hid := beatsOk_of_keepsClients (keepsClients_saveApprovalEvent e hid)

theorem Reachable.beatsOk {s : Store} (h : Reachable s) : BeatsOk s := by
  obtain ⟨o, evidence, requests, schedule, rfl⟩ := h
  have hempty : BeatsOk { Store.empty with runEvidence := evidence } :=
    fun _ hrow => absurd hrow List.not_mem_nil
  refine Pool.exec_safe (R := Any) schedule _ hempty fun p hp => ?_
  obtain ⟨r, -, rfl⟩ := List.mem_map.mp hp
  exact beatsOk_rule.request (fun _ _ => trivial)
    (fun e id now _ => beatsOk_of_keepsClients (keepsClients_ingest e id now))
    (fun _ _ _ => trivial) o r.2

end Beats

/-! ## What a scan watches -/

/-- The heartbeat time by which a client is judged. -/
def watchedTime (row : Option HeartbeatRow) : Option DateTime :=
  row.bind fun r => if r.status = .disconnected then none else r.lastHeartbeatAt

theorem heartbeatAge_snapshotOf (reference : DateTime) (m : Checked ClientManifest)
    (row : Option HeartbeatRow) :
    heartbeatAge reference (snapshotOf m row) =
      match watchedTime row with
      | none => .ok none
      | some t => if reference.isAware then .ok (some (reference.instant - t.instant))
          else .error .typeError := by
  unfold heartbeatAge watchedTime
  cases row with
  | none => rfl
  | some r =>
    by_cases hst : r.status = .disconnected
    · simp [snapshotOf, hst]
    · simp only [snapshotOf, if_neg hst, Option.bind_some]
      cases r.lastHeartbeatAt <;> exact if_neg hst

/-- The same clients are registered, and judged by the same times. -/
structure SameWatch (s t : Store) : Prop where
  manifests : t.clientManifests = s.clientManifests
  times : ∀ id, watchedTime (t.clientHeartbeats.find? id) =
    watchedTime (s.clientHeartbeats.find? id)

section Watching

variable {s t : Store} {reference : DateTime} {seconds : Int}

theorem sameWatch_joined (h : SameWatch s t) :
    ∀ {rows : List ManifestRow} {snapshots : List ClientStatusSnapshot},
      joinedSnapshots s rows = .ok snapshots → ∃ again, joinedSnapshots t rows = .ok again ∧
        List.Forall₂ (fun x y => y.manifest = x.manifest ∧
          heartbeatAge reference y = heartbeatAge reference x) snapshots again := by
  intro rows
  induction rows with
  | nil => intro snapshots h; cases h; exact ⟨[], rfl, .nil⟩
  | cons row rows ih =>
    intro snapshots hjoined
    unfold joinedSnapshots at hjoined
    split at hjoined
    · cases hjoined
    rename_i m hbuild
    split at hjoined
    · cases hjoined
    rename_i rest hrest
    cases hjoined
    obtain ⟨again, hagain, hsame⟩ := ih hrest
    refine ⟨snapshotOf m (t.clientHeartbeats.find? row.clientId) :: again, ?_, .cons ⟨?_, ?_⟩ hsame⟩
    · unfold joinedSnapshots
      rw [hbuild, hagain]
    · cases t.clientHeartbeats.find? row.clientId <;>
        cases s.clientHeartbeats.find? row.clientId <;> rfl
    · rw [heartbeatAge_snapshotOf, heartbeatAge_snapshotOf, h.times]

theorem forall₂_staleSnapshots {snapshots again : List ClientStatusSnapshot}
    (h : List.Forall₂ (fun x y => y.manifest = x.manifest ∧
      heartbeatAge reference y = heartbeatAge reference x) snapshots again) :
    ∀ {stale : List (ClientStatusSnapshot × Int)},
      staleSnapshots reference seconds snapshots = .ok stale →
      ∃ stale', staleSnapshots reference seconds again = .ok stale' ∧
        List.Forall₂ (fun x y => y.1.manifest = x.1.manifest ∧ y.2 = x.2) stale stale' := by
  induction h with
  | nil => intro stale h; cases h; exact ⟨[], rfl, .nil⟩
  | cons hxy _ ih =>
    intro stale hstale
    unfold staleSnapshots at hstale ⊢
    rw [hxy.2]
    split at hstale
    · cases hstale
    rename_i age hage
    split at hstale
    · cases hstale
    rename_i found hfound
    obtain ⟨found', hfound', hsame⟩ := ih hfound
    rw [hfound']
    cases age with
    | none =>
      cases hstale
      exact ⟨found', rfl, hsame⟩
    | some a =>
      cases hstale
      dsimp only
      split
      · exact ⟨found', rfl, hsame⟩
      · exact ⟨_, rfl, .cons ⟨hxy.1, rfl⟩ hsame⟩

/-- A scan that watches the same selects the same clients with the same ages. -/
theorem scanned_again (h : SameWatch s t) {statuses : List ClientStatusSnapshot}
    {stale : List (ClientStatusSnapshot × Int)}
    (hstatuses : joinedSnapshots s (s.clientManifests.select (fun _ => true) manifestOrder) =
      .ok statuses)
    (hstale : staleSnapshots reference seconds statuses = .ok stale) :
    ∃ statuses' stale',
      joinedSnapshots t (t.clientManifests.select (fun _ => true) manifestOrder) = .ok statuses' ∧
      staleSnapshots reference seconds statuses' = .ok stale' ∧
      List.Forall₂ (fun x y => y.1.manifest = x.1.manifest ∧ y.2 = x.2) stale stale' := by
  rw [h.manifests]
  obtain ⟨again, hagain, hsame⟩ := sameWatch_joined h hstatuses
  obtain ⟨stale', hstale', hfound⟩ := forall₂_staleSnapshots hsame hstale
  exact ⟨again, stale', hagain, hstale', hfound⟩

/-- Every client that a scan selects has an age, above the threshold. -/
theorem age_of_staleSnapshots : ∀ {snapshots : List ClientStatusSnapshot}
    {stale : List (ClientStatusSnapshot × Int)},
    staleSnapshots reference seconds snapshots = .ok stale → ∀ x ∈ stale,
      heartbeatAge reference x.1 = .ok (some x.2) ∧ seconds * 1000000 < x.2 := by
  intro snapshots
  induction snapshots with
  | nil => intro stale h x hx; cases h; exact absurd hx List.not_mem_nil
  | cons snapshot rest ih =>
    intro stale h x hx
    unfold staleSnapshots at h
    split at h
    · cases h
    rename_i age hage
    split at h
    · cases h
    rename_i found hfound
    cases age with
    | none => cases h; exact ih hfound x hx
    | some a =>
      cases h
      split at hx
      · exact ih hfound x hx
      · rename_i hover
        rcases List.mem_cons.mp hx with rfl | hx
        · exact ⟨hage, not_le.mp hover⟩
        · exact ih hfound x hx

/-- A scan with an aware time does not stop at any client, and selects everyone who is overdue. -/
theorem selects_overdue (haware : reference.isAware = true) (seconds : Int) :
    ∀ (snapshots : List ClientStatusSnapshot), ∃ stale,
      staleSnapshots reference seconds snapshots = .ok stale ∧
      ∀ x ∈ snapshots, ∀ age, heartbeatAge reference x = .ok (some age) →
        seconds * 1000000 < age → (x, age) ∈ stale := by
  intro snapshots
  induction snapshots with
  | nil => exact ⟨[], rfl, fun x hx => absurd hx List.not_mem_nil⟩
  | cons snapshot rest ih =>
    obtain ⟨found, hfound, hselected⟩ := ih
    have hage : ∃ age, heartbeatAge reference snapshot = .ok age := by
      unfold heartbeatAge
      split
      · exact ⟨none, rfl⟩
      · split
        · exact ⟨none, rfl⟩
        · exact ⟨_, rfl⟩
    obtain ⟨age, hage⟩ := hage
    unfold staleSnapshots
    rw [hage, hfound]
    cases age with
    | none =>
      refine ⟨found, rfl, fun x hx a ha hover => ?_⟩
      rcases List.mem_cons.mp hx with rfl | hx
      · rw [hage] at ha
        cases ha
      · exact hselected x hx a ha hover
    | some b =>
      refine ⟨_, rfl, fun x hx a ha hover => ?_⟩
      rcases List.mem_cons.mp hx with rfl | hx
      · rw [hage] at ha
        cases ha
        rw [if_neg (not_le.mpr hover)]
        exact List.mem_cons_self ..
      · split
        · exact hselected x hx a ha hover
        · exact List.mem_cons_of_mem _ (hselected x hx a ha hover)

/-- Valid manifests are all listed. -/
theorem joins_all : ∀ {rows : List ManifestRow}, (∀ row ∈ rows, Model.Valid row.payload) →
    ∃ statuses, joinedSnapshots s rows = .ok statuses ∧ ∀ row ∈ rows,
      ∃ m : Checked ClientManifest, m.1 = row.payload ∧
        snapshotOf m (s.clientHeartbeats.find? row.clientId) ∈ statuses := by
  intro rows
  induction rows with
  | nil => exact fun _ => ⟨[], rfl, fun _ hrow => absurd hrow List.not_mem_nil⟩
  | cons row rows ih =>
    intro hvalid
    obtain ⟨rest, hrest, hall⟩ := ih fun r hr => hvalid r (List.mem_cons_of_mem row hr)
    have hbuild := Model.build_of_valid (hvalid row (List.mem_cons_self ..))
    unfold joinedSnapshots
    rw [hbuild, hrest]
    refine ⟨_, rfl, fun r hr => ?_⟩
    rcases List.mem_cons.mp hr with rfl | hr
    · exact ⟨_, rfl, List.mem_cons_self ..⟩
    · obtain ⟨m, hm, hin⟩ := hall r hr
      exact ⟨m, hm, List.mem_cons_of_mem _ hin⟩

/-- The registry lists, with every client in it. -/
theorem lists_all (hs : RowsOk (fun _ => True) s) : ∃ statuses,
    joinedSnapshots s (s.clientManifests.select (fun _ => true) manifestOrder) = .ok statuses ∧
      ∀ row ∈ s.clientManifests.rows, ∃ m : Checked ClientManifest, m.1 = row.payload ∧
        snapshotOf m (s.clientHeartbeats.find? row.clientId) ∈ statuses := by
  have hvalid : ∀ row ∈ s.clientManifests.select (fun _ => true) manifestOrder,
      Model.Valid row.payload :=
    fun row hrow => (hs.manifests row (Table.mem_select.mp hrow).1).2
  obtain ⟨statuses, hstatuses, hall⟩ := joins_all (s := s) hvalid
  exact ⟨statuses, hstatuses, fun row hrow => hall row (Table.mem_select.mpr ⟨hrow, rfl⟩)⟩

/-- A scan that selects clients knows the age of every one that it looks at. -/
theorem aged_of_staleSnapshots : ∀ {snapshots : List ClientStatusSnapshot}
    {stale : List (ClientStatusSnapshot × Int)},
    staleSnapshots reference seconds snapshots = .ok stale → ∀ x ∈ snapshots,
      ∃ age, heartbeatAge reference x = .ok age := by
  intro snapshots
  induction snapshots with
  | nil => exact fun _ x hx => absurd hx List.not_mem_nil
  | cons snapshot rest ih =>
    intro stale h x hx
    unfold staleSnapshots at h
    split at h
    · cases h
    rename_i age hage
    split at h
    · cases h
    rename_i found hfound
    rcases List.mem_cons.mp hx with rfl | hx
    · exact ⟨age, hage⟩
    · exact ih hfound x hx

/-- Whoever is overdue is selected. -/
theorem selected_of_overdue (hs : RowsOk (fun _ => True) s) {statuses : List ClientStatusSnapshot}
    {stale : List (ClientStatusSnapshot × Int)}
    (hstatuses : joinedSnapshots s (s.clientManifests.select (fun _ => true) manifestOrder) =
      .ok statuses)
    (hstale : staleSnapshots reference seconds statuses = .ok stale) {row : ManifestRow}
    (hrow : row ∈ s.clientManifests.rows) {time : DateTime}
    (hwatched : watchedTime (s.clientHeartbeats.find? row.clientId) = some time)
    (hover : seconds * 1000000 < reference.instant - time.instant) :
    ∃ x ∈ stale, x.1.manifest.1.clientId = row.clientId := by
  obtain ⟨all, hlisted, hall⟩ := lists_all hs
  rw [Except.ok.inj (hlisted.symm.trans hstatuses)] at hall
  obtain ⟨m, hm, hin⟩ := hall row hrow
  have hage := heartbeatAge_snapshotOf reference m (s.clientHeartbeats.find? row.clientId)
  rw [hwatched] at hage
  obtain ⟨age, hknown⟩ := aged_of_staleSnapshots hstale _ hin
  have haware : reference.isAware = true := by
    by_contra hnaive
    rw [hknown] at hage
    cases hage.trans (if_neg hnaive)
  obtain ⟨found, hfound, hselected⟩ := selects_overdue haware seconds statuses
  rw [Except.ok.inj (hfound.symm.trans hstale)] at hselected
  refine ⟨_, hselected _ hin _ (hage.trans (if_pos haware)) hover, ?_⟩
  have hid : (snapshotOf m (s.clientHeartbeats.find? row.clientId)).manifest = m := by
    cases s.clientHeartbeats.find? row.clientId <;> rfl
  rw [hid, hm, (hs.manifests row hrow).1]
  rfl

/-- The time by which a selected client was judged. -/
theorem watched_of_selected (hs : RowsOk (fun _ => True) s) {statuses : List ClientStatusSnapshot}
    {stale : List (ClientStatusSnapshot × Int)}
    (hstatuses : joinedSnapshots s (s.clientManifests.select (fun _ => true) manifestOrder) =
      .ok statuses)
    (hstale : staleSnapshots reference seconds statuses = .ok stale)
    {x : ClientStatusSnapshot × Int} (hx : x ∈ stale) :
    s.clientManifests.has x.1.manifest.1.clientId = true ∧ reference.isAware = true ∧
      ∃ time, watchedTime (s.clientHeartbeats.find? x.1.manifest.1.clientId) = some time ∧
        x.2 = reference.instant - time.instant := by
  have hmem : x.1 ∈ statuses :=
    (sublist_of_staleSnapshots hstale).subset (List.mem_map_of_mem hx)
  obtain ⟨row, hrow, hbuild, hsnapshot⟩ := snapshot_of_joined hstatuses hmem
  have hstored := (Table.mem_select.mp hrow).1
  have hid : x.1.manifest.1.clientId = row.clientId := by
    rw [Model.build_eq_ok hbuild, (hs.manifests row hstored).1]
    rfl
  have hage := (age_of_staleSnapshots hstale x hx).1
  rw [hsnapshot, heartbeatAge_snapshotOf, ← hid] at hage
  refine ⟨Table.has_iff.mpr ⟨row, hid ▸ Table.mem_rows_iff.mp hstored⟩, ?_⟩
  split at hage
  · cases hage
  · rename_i time htime
    split at hage
    · rename_i haware
      exact ⟨haware, time, htime, (Option.some.inj (Except.ok.inj hage)).symm⟩
    · cases hage

end Watching

/-! ## What a scan leaves of what it watches -/

section Kept

variable {s t : Store}

theorem SameClients.sameWatch {u : Store} (h : SameClients t u) (hs : SameWatch s t) :
    SameWatch s u :=
  ⟨h.manifests.trans hs.manifests, fun id => by rw [h.heartbeats]; exact hs.times id⟩

/-- Marking a client keeps its heartbeat time, if it was watched. -/
theorem sameWatch_markClientStale (h : SameWatch s t) {clientId : String} {time : DateTime}
    (hwatched : watchedTime (s.clientHeartbeats.find? clientId) = some time) :
    SameWatch s ((markClientStale clientId).run t).2 := by
  obtain ⟨hmanifests, hbeats⟩ := run_markClientStale_registry clientId t
  refine ⟨hmanifests.trans h.manifests, fun id => ?_⟩
  rcases hbeats with hbeats | ⟨lost, hbeats⟩
  · rw [hbeats]
    exact h.times id
  · rw [hbeats, Table.find?_upsert]
    by_cases hid : clientId = id
    · subst hid
      rw [show (staleBeat clientId (t.clientHeartbeats.find? clientId) lost).clientId = clientId
        from rfl, if_pos rfl, ← h.times clientId]
      have hnow := (h.times clientId).trans hwatched
      cases hrow : t.clientHeartbeats.find? clientId with
      | none =>
        rw [hrow] at hnow
        cases hnow
      | some row =>
        rw [hrow] at hnow
        have hconnected : row.status ≠ .disconnected := by
          intro hst
          simp [watchedTime, hst] at hnow
        show row.lastHeartbeatAt = watchedTime (some row)
        simp [watchedTime, hconnected]
    · rw [if_neg (show ¬ (staleBeat clientId _ lost).clientId = id from hid)]
      exact h.times id

/-- The rest of a scan, when all its clients are marked. -/
def finishScan (auto : Bool) (now : DateTime) (results : List ClientStaleRecoveryResult) :
    Db (List ClientStaleRecoveryResult) :=
  if auto then do
    let reassigned ← reassignRecovered now results
    pure (withReassigned results reassigned)
  else pure results

theorem WorkRule.finishScan {C : ∀ {α : Type}, Db α → Prop} (h : WorkRule C) (auto : Bool)
    (now : DateTime) (results : List ClientStaleRecoveryResult) :
    C (finishScan auto now results) := by
  cases auto with
  | false => exact h.pure _
  | true => exact h.map (h.reassignRecovered now results) _

/-- The rest of a scan, when its first client is marked and recorded. -/
def scanOn (auto : Bool) (now : DateTime) (rest : List (ClientStatusSnapshot × Int))
    (marked : ClientStatusSnapshot) (event : Checked ControlPlaneEvent) :
    Db (List ClientStaleRecoveryResult) := do
  let recovered ← recoverStaleWorkItems marked now
  let others ← Program.forEach rest (recoverStaleClient now)
  finishScan auto now ({
    snapshot := marked
    event := event
    recoveredWorkItems := recovered.1
    recoveryEvents := recovered.2
    reassignedWorkItems := [] } :: others)

theorem ScanRule.scanOn {C : ∀ {α : Type}, Db α → Prop} (h : ScanRule C) (auto : Bool)
    (now : DateTime) (rest : List (ClientStatusSnapshot × Int)) (marked : ClientStatusSnapshot)
    (event : Checked ControlPlaneEvent) : C (scanOn auto now rest marked event) :=
  h.bind (h.recoverStaleWorkItems marked now) fun _ =>
    h.bind (h.forEach (fun x => h.recoverStaleClient now x) _) fun _ => h.finishScan auto now _

variable {reference : DateTime} {seconds : Int} {statuses : List ClientStatusSnapshot}
  {stale rest : List (ClientStatusSnapshot × Int)} {x : ClientStatusSnapshot × Int}

/-- A scan once it has listed its clients. -/
theorem run_scan_listed
    (hstatuses : joinedSnapshots s (s.clientManifests.select (fun _ => true) manifestOrder) =
      .ok statuses) (auto : Bool) (now : DateTime) :
    (markStaleClientsWithRecovery reference seconds auto now).run s =
      (Program.done (staleSnapshots reference seconds statuses) >>= fun stale =>
        Program.forEach stale (recoverStaleClient now) >>= finishScan auto now).run s := by
  have hlist : listClientStatuses.run s = (.ok statuses, s) :=
    returns_listClientStatuses.mpr ⟨hstatuses, rfl⟩
  unfold markStaleClientsWithRecovery
  rw [run_bind, hlist]
  rfl

/-- A scan once it has selected its clients. -/
theorem run_scan
    (hstatuses : joinedSnapshots s (s.clientManifests.select (fun _ => true) manifestOrder) =
      .ok statuses)
    (hstale : staleSnapshots reference seconds statuses = .ok stale) (auto : Bool)
    (now : DateTime) :
    (markStaleClientsWithRecovery reference seconds auto now).run s =
      (Program.forEach stale (recoverStaleClient now) >>= finishScan auto now).run s := by
  rw [run_scan_listed hstatuses, hstale]
  rfl

/-- A scan that has selected a client marks it first. -/
theorem run_scan_cons
    (hstatuses : joinedSnapshots s (s.clientManifests.select (fun _ => true) manifestOrder) =
      .ok statuses)
    (hstale : staleSnapshots reference seconds statuses = .ok (x :: rest)) (auto : Bool)
    (now : DateTime) :
    (markStaleClientsWithRecovery reference seconds auto now).run s =
      (markClientStale x.1.manifest.1.clientId >>= fun marked =>
        appendStaleEvent marked x.2 now >>= scanOn auto now rest marked).run s := by
  rw [run_scan hstatuses hstale]
  show Program.run ((recoverStaleClient now x >>= fun r =>
    Program.forEach rest (recoverStaleClient now) >>= fun rs => pure (r :: rs)) >>= _) s = _
  unfold recoverStaleClient scanOn
  simp only [Program.bind_bind]
  rfl

/-- A scan keeps what it watches. -/
theorem sameWatch_scan (hs : RowsOk (fun _ => True) s)
    (hstatuses : joinedSnapshots s (s.clientManifests.select (fun _ => true) manifestOrder) =
      .ok statuses)
    (hstale : staleSnapshots reference seconds statuses = .ok stale) (auto : Bool)
    (now : DateTime) :
    SameWatch s ((markStaleClientsWithRecovery reference seconds auto now).run s).2 := by
  have hkeeps {α : Type} {p : Db α} (hp : KeepsClients p) : Preserves (SameWatch s) p :=
    preserves_of_keepsClients (fun _ _ hsame ht => hsame.sameWatch ht) hp
  rw [run_scan hstatuses hstale]
  refine Program.preserves_bind (Program.preserves_forEach fun x hx => ?_)
    (fun results => hkeeps (keepsClients_rule.finishScan auto now results)) s ⟨rfl, fun _ => rfl⟩
  obtain ⟨-, -, time, hwatched, -⟩ := watched_of_selected hs hstatuses hstale hx
  refine Program.preserves_bind (fun t ht => sameWatch_markClientStale ht hwatched) fun marked => ?_
  refine hkeeps (Program.safe_bind (keepsClients_appendEvent _) fun _ => ?_)
  exact keepsClients_rule.map (keepsClients_rule.recoverStaleWorkItems marked now) _

end Kept

/-! ## The stale event -/

/-- The times that a `datetime` can hold: the years 1 to 9999, an offset of less than a day. -/
def DateTime.Representable (t : DateTime) : Prop :=
  -62135596800000000 ≤ t.wall ∧ t.wall < 253402300800000000 ∧
    -86400 < t.offset.getD 0 ∧ t.offset.getD 0 < 86400

section StaleEvent

theorem length_toString_le {n : Int} {k : Nat} (hk : 0 < k) (h : n.natAbs < 10 ^ k) :
    (toString n).length ≤ k + 1 := by
  cases n with
  | ofNat m =>
    have hm : m.repr.length ≤ k := (Nat.length_repr_le_iff hk).mpr h
    show m.repr.length ≤ k + 1
    omega
  | negSucc m =>
    have hm : (m + 1).repr.length ≤ k := (Nat.length_repr_le_iff hk).mpr h
    show ("-" ++ (m + 1).repr).length ≤ k + 1
    rw [String.length_append]
    have hminus : "-".length = 1 := by decide
    omega

/-- The age of a heartbeat is written with few digits. -/
theorem length_ageText_le {reference time : DateTime} (href : reference.Representable)
    (htime : time.Representable) :
    (ageText (reference.instant - time.instant)).length ≤ 20 := by
  obtain ⟨h1, h2, h3, h4⟩ := href
  obtain ⟨h5, h6, h7, h8⟩ := htime
  refine length_toString_le (k := 19) (by decide) ?_
  unfold DateTime.instant
  have hbound : (reference.wall - reference.offset.getD 0 * 1000000 -
      (time.wall - time.offset.getD 0 * 1000000)).natAbs < 10 ^ 19 := by omega
  refine lt_of_le_of_lt ?_ hbound
  rw [Int.natAbs_tdiv]
  exact Nat.div_le_self _ _

/-- The event in which a client without leases is marked passes its checks. -/
theorem staleEvent_ok {snapshot : ClientStatusSnapshot}
    (hrun : optionally (safeIdentifier 0 160) snapshot.lastRunId = true)
    (htask : optionally (safeIdentifier 0 160) snapshot.lastTaskId = true)
    (hlost : snapshot.lostTaskLeases = []) {age : Int} (hage : (ageText age).length ≤ 20)
    (now : DateTime) (n : Nat) :
    (clientEvent snapshot.manifest.1 .heartbeat .stale snapshot.lastRunId snapshot.lastTaskId none
      ("Client " ++ snapshot.manifest.1.displayName ++ " marked stale after " ++ ageText age ++
        " seconds; task leases released: " ++ toString snapshot.lostTaskLeases.length ++ ".")
      now n).ok = true := by
  have hm := failedFields_eq_nil.mp snapshot.manifest.2.2
  simp only [Model.checks, List.forall_mem_cons] at hm
  obtain ⟨hid, hname, -⟩ := hm
  have hlabel : lengthWithin 0 160 snapshot.manifest.1.displayName = true := by
    simp only [safeText, lengthWithin, Bool.and_eq_true, decide_eq_true_eq] at hname ⊢
    omega
  have hrole : safeIdentifier 1 80 snapshot.manifest.1.trustState.value = true := by
    cases snapshot.manifest.1.trustState <;> decide
  have hsummary : lengthWithin 1 500 ("Client " ++ snapshot.manifest.1.displayName ++
      " marked stale after " ++ ageText age ++ " seconds; task leases released: " ++
      toString snapshot.lostTaskLeases.length ++ ".") = true := by
    have hwords : "Client ".length = 7 ∧ " marked stale after ".length = 20 ∧
        " seconds; task leases released: ".length = 32 ∧ (toString (0 : Nat)).length = 1 ∧
        ".".length = 1 := by decide
    rw [hlost, List.length_nil]
    simp only [lengthWithin, String.length_append, hwords, Bool.and_eq_true,
      decide_eq_true_eq] at hlabel ⊢
    omega
  unfold EventFields.ok
  rw [decide_eq_true_eq, failedFields_eq_nil]
  simp only [EventFields.checks, List.forall_mem_cons]
  exact ⟨hid, hlabel, hrun, htask, hid, hrole, rfl, hsummary,
    fun _ hx => absurd hx List.not_mem_nil⟩

end StaleEvent

/-! ## The second scan -/

/-- Registry, leases, work items and event ledger are the same. -/
structure SameTables (s s' : Store) : Prop where
  manifests : s'.clientManifests = s.clientManifests
  heartbeats : s'.clientHeartbeats = s.clientHeartbeats
  leases : s'.taskLeases = s.taskLeases
  items : s'.workItems = s.workItems
  ledger : s'.ledger = s.ledger

/-- No registered client that is not disconnected was heard of longer ago than the threshold.  A
    naive time judges nobody: the scan raises at the first heartbeat that it looks at. -/
def NobodyOverdue (s : Store) (reference : DateTime) (seconds : Int) : Prop :=
  reference.isAware = true → ∀ row ∈ s.clientManifests.rows, ∀ time,
    watchedTime (s.clientHeartbeats.find? row.clientId) = some time →
      reference.instant - time.instant ≤ seconds * 1000000

/-- The client holds no active lease. -/
def HoldsNone (clientId : String) (s : Store) : Prop :=
  ∀ l ∈ s.taskLeases.rows, l.clientId = clientId → l.status ≠ .active

section Second

variable {s s' : Store} {reference : DateTime} {seconds : Int}

/-- What a scan does after it marked a client gives the client no lease. -/
theorem HoldsNone.afterScan {clientId : String} (h : HoldsNone clientId s)
    (hscan : ∀ taskId, ScanEnds taskId s s') : HoldsNone clientId s' := by
  intro l hl hclient hactive
  have hfind := Table.mem_rows_iff.mp hl
  rcases hscan l.taskId with hsame | ⟨ended, -, -, hended⟩
  · have hbefore : s.taskLeases.find? l.taskId = some l := Eq.trans (Eq.symm hsame) hfind
    exact h l (Table.mem_rows_iff.mpr hbefore) hclient hactive
  · rw [hfind] at hended
    cases hended
    cases hactive

/-- Nobody is overdue: the scan finds nobody, or raises before it marks anyone. -/
theorem scan_idle (hs : RowsOk (fun _ => True) s) (h : NobodyOverdue s reference seconds)
    (auto : Bool) (now : DateTime) :
    ((markStaleClientsWithRecovery reference seconds auto now).run s).2 = s := by
  obtain ⟨statuses, hstatuses, -⟩ := lists_all hs
  cases hstale : staleSnapshots reference seconds statuses with
  | error e =>
    have hlist : listClientStatuses.run s = (.ok statuses, s) :=
      returns_listClientStatuses.mpr ⟨hstatuses, rfl⟩
    unfold markStaleClientsWithRecovery
    rw [run_bind, hlist]
    show (Program.run (Program.done (staleSnapshots reference seconds statuses) >>= _) s).2 = s
    rw [hstale]
    rfl
  | ok stale =>
    have hnone : stale = [] := by
      refine List.eq_nil_iff_forall_not_mem.mpr fun x hx => ?_
      have hover := (age_of_staleSnapshots hstale x hx).2
      obtain ⟨hclient, haware, time, hwatched, hage⟩ := watched_of_selected hs hstatuses hstale hx
      obtain ⟨row, hrow⟩ := Table.has_iff.mp hclient
      have hid := Table.key_of_find? hrow
      have hin := h haware row (Table.mem_of_find? hrow) time (by rw [hid]; exact hwatched)
      omega
    subst hnone
    rw [run_scan hstatuses hstale]
    cases auto <;> rfl

/-- The scan selects somebody when somebody is overdue. -/
theorem exists_selected (hs : RowsOk (fun _ => True) s) (h : ¬ NobodyOverdue s reference seconds) :
    ∃ statuses x rest,
      joinedSnapshots s (s.clientManifests.select (fun _ => true) manifestOrder) = .ok statuses ∧
      staleSnapshots reference seconds statuses = .ok (x :: rest) := by
  unfold NobodyOverdue at h
  push Not at h
  obtain ⟨haware, row, hrow, time, hwatched, hover⟩ := h
  obtain ⟨statuses, hstatuses, hall⟩ := lists_all hs
  obtain ⟨m, -, hm⟩ := hall row hrow
  obtain ⟨stale, hstale, hselected⟩ := selects_overdue haware seconds statuses
  have hage := heartbeatAge_snapshotOf reference m (s.clientHeartbeats.find? row.clientId)
  rw [hwatched] at hage
  have hin := hselected _ hm _ (hage.trans (if_pos haware)) hover
  obtain ⟨x, rest, rfl⟩ := List.exists_cons_of_ne_nil (List.ne_nil_of_mem hin)
  exact ⟨statuses, x, rest, hstatuses, hstale⟩

/-- The client that a scan marks first holds no active lease when the scan has ended. -/
theorem holdsNone_afterScan (hs : RowsOk (fun _ => True) s) {statuses : List ClientStatusSnapshot}
    {x : ClientStatusSnapshot × Int} {rest : List (ClientStatusSnapshot × Int)}
    (hstatuses : joinedSnapshots s (s.clientManifests.select (fun _ => true) manifestOrder) =
      .ok statuses)
    (hstale : staleSnapshots reference seconds statuses = .ok (x :: rest)) (auto : Bool)
    (now : DateTime) : HoldsNone x.1.manifest.1.clientId
      ((markStaleClientsWithRecovery reference seconds auto now).run s).2 := by
  have hclient := (watched_of_selected hs hstatuses hstale (List.mem_cons_self ..)).1
  obtain ⟨marked, t, hmark, -⟩ := exists_markClientStale hs hclient
  have hnone : HoldsNone x.1.manifest.1.clientId t := (returns_markClientStale hs hmark).noActive
  have ht : RowsOk (fun _ => True) t := by
    have := (safe_markClientStale (fun _ _ => trivial) x.1.manifest.1.clientId).run_keeps hs
    rwa [show (markClientStale x.1.manifest.1.clientId).run s = (.ok marked, t) from hmark] at this
  rw [run_scan_cons hstatuses hstale, run_bind,
    show (markClientStale x.1.manifest.1.clientId).run s = (.ok marked, t) from hmark]
  refine hnone.afterScan fun taskId => ?_
  -- the event, the recovered items and the other clients leave the lease alone or end it
  have hrest : Safe (RowsOk fun _ => True) (ScanEnds taskId)
      (appendStaleEvent marked x.2 now >>= scanOn auto now rest marked) :=
    scanEnds_rule.bind (scanEnds_rule.appendEvent _ (.stale ..)) fun event =>
      scanEnds_rule.scanOn auto now rest marked event
  exact hrest.run_within ScanEnds.refl (fun hab hbc => hab.trans hbc) ht

/-- A scan whose first client holds no active lease appends an event to the ledger. -/
theorem scan_appends (hs : RowsOk (fun _ => True) s) (hbeats : BeatsOk s)
    {statuses : List ClientStatusSnapshot} {x : ClientStatusSnapshot × Int}
    {rest : List (ClientStatusSnapshot × Int)}
    (hstatuses : joinedSnapshots s (s.clientManifests.select (fun _ => true) manifestOrder) =
      .ok statuses)
    (hstale : staleSnapshots reference seconds statuses = .ok (x :: rest))
    (hnone : HoldsNone x.1.manifest.1.clientId s) (hage : (ageText x.2).length ≤ 20) (auto : Bool)
    (now : DateTime) : s.eventCount <
      ((markStaleClientsWithRecovery reference seconds auto now).run s).2.eventCount := by
  obtain ⟨hclient, -, time, hwatched, -⟩ :=
    watched_of_selected hs hstatuses hstale (List.mem_cons_self ..)
  obtain ⟨marked, t, hmark, hrun, htask⟩ := exists_markClientStale hs hclient
  have hmarked := returns_markClientStale hs hmark
  have hlost : marked.lostTaskLeases = [] := by
    refine List.eq_nil_iff_forall_not_mem.mpr fun taskId htaskId => ?_
    obtain ⟨l, hl, -, hholder, hactive⟩ := (hmarked.lost.2 taskId).mp htaskId
    exact hnone l hl hholder hactive
  have hbeat : BeatOk (staleBeat x.1.manifest.1.clientId
      (s.clientHeartbeats.find? x.1.manifest.1.clientId) []) := beatOk_staleBeat hbeats _ _
  have hrunning : (markClientStale x.1.manifest.1.clientId).run s = (.ok marked, t) := hmark
  have ht : RowsOk (fun _ => True) t := by
    have := (safe_markClientStale (fun _ _ => trivial) x.1.manifest.1.clientId).run_keeps hs
    rwa [hrunning] at this
  have hledger : t.ledger = s.ledger := by
    have := Safe.run_within (R := LedgerKept) (fun _ => rfl) LedgerKept.trans
      (ledgerKept_offClients.markClientStale x.1.manifest.1.clientId) (s := s) trivial
    rwa [hrunning] at this
  have hok := staleEvent_ok (hrun ▸ hbeat.1) (htask ▸ hbeat.2) hlost hage now (t.eventCount + 1)
  obtain ⟨event, t', happend, hcount⟩ : ∃ event t',
      (appendStaleEvent marked x.2 now).run t = (.ok event, t') ∧
        t'.eventCount = t.eventCount + 1 := by
    obtain ⟨event, hevent⟩ := exists_appendEvent ht.ledgerLists hok
    exact ⟨event, _, hevent, eventCount_putEvent _⟩
  have hgrows := (Safe.run_within LedgerGrows.refl LedgerGrows.trans
    (grows_rule.scanOn auto now rest marked event) (s := t') trivial).eventCount_le
  rw [run_scan_cons hstatuses hstale, run_bind, hrunning]
  show s.eventCount < ((appendStaleEvent marked x.2 now >>= scanOn auto now rest marked).run
    t).2.eventCount
  rw [run_bind, happend]
  have hsame : t.eventCount = s.eventCount := congrArg List.length hledger
  show s.eventCount < ((scanOn auto now rest marked event).run t').2.eventCount
  omega

/-- The task leases that the registry says a client has lost. -/
def Store.lostBy (s : Store) (clientId : String) : List String :=
  ((s.clientHeartbeats.find? clientId).map HeartbeatRow.lostTaskLeases).getD []

end Second

end Vad
