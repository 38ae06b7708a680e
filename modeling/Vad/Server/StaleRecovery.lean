/-
  The stale scan, run alone.

  The scan marks clients, requeues their work and may schedule it again, and each of its loops
  sees what the earlier ones did.  Three invariants carry the result, one a loop:

  1. `ItemsRecovered` — over the items of one client: those done are no longer recoverable work of
     that client, and those requeued have neither owner nor lease;
  2. `ClientsMarked` — over the clients: those done are stale, hold no active lease and own no
     recoverable work, and what belongs to none of them is as it was before the scan;
  3. `ItemsReassigned` — over the recovered items: each still waits without an owner, or is
     assigned to an active client, which no marked one is any more.

  `stale_recovery` puts them together.
-/
import Vad.Server.ReadBack

namespace Vad

open Keyed (Table)
open Atomic (Program)
open Atomic.Program (Safe Returns returns_bind returns_pure)

/-! ## What the scan promises -/

/-- The registry status of a client. -/
def Store.runtimeStatus (s : Store) (clientId : String) : Option ClientRuntimeStatus :=
  (s.clientHeartbeats.find? clientId).map HeartbeatRow.status

/-- The id of the client that a result is about. -/
def ClientStaleRecoveryResult.clientId (r : ClientStaleRecoveryResult) : String :=
  r.snapshot.manifest.1.clientId

/-- The stored item waits, with no owner and no lease. -/
def Unowned (s : Store) (id : String) : Prop :=
  ∃ item, s.workItems.find? id = some (workItemRow item) ∧ item.status = .requeued ∧
    item.assignedClientId = none ∧ item.leaseId = none

/-- The stored item is assigned to a client that is active, trusted and able to do it. -/
def Reassigned (s : Store) (id clientId : String) : Prop :=
  ∃ item m, s.workItems.find? id = some (workItemRow item) ∧ item.status = .assigned ∧
    item.assignedClientId = some clientId ∧ s.runtimeStatus clientId = some .active ∧
    s.clientManifests.find? clientId = some (manifestRow m) ∧ m.trustState = .trusted ∧
    item.requestedCapability.all (m.supportedCapabilities.contains ·) = true

/-- What a scan owes of the clients it marked, and of the others. -/
structure StaleRecovery (s s' : Store) (autoReassign : Bool)
    (results : List ClientStaleRecoveryResult) : Prop where
  stale : ∀ r ∈ results, s'.runtimeStatus r.clientId = some .stale
  noActiveLease : ∀ r ∈ results, ∀ l ∈ s'.taskLeases.rows, l.clientId = r.clientId →
    l.status ≠ .active
  lostLeases : ∀ r ∈ results, r.snapshot.lostTaskLeases.Nodup ∧
    ∀ taskId, taskId ∈ r.snapshot.lostTaskLeases ↔ ∃ l ∈ s.taskLeases.rows,
      l.taskId = taskId ∧ l.clientId = r.clientId ∧ l.status = .active
  noAbandonedWork : ∀ r ∈ results, ∀ row ∈ s'.workItems.rows,
    row.assignedClientId = some r.clientId → row.status ∉ recoverableStaleWorkStatuses
  recovered : ∀ r ∈ results, ∀ t ∈ r.recoveredWorkItems,
    Unowned s' t.workItem.1.workItemId ∨ autoReassign = true ∧
      ∃ clientId, clientId ≠ r.clientId ∧ Reassigned s' t.workItem.1.workItemId clientId
  otherLeases : ∀ l ∈ s.taskLeases.rows, (∀ r ∈ results, l.clientId ≠ r.clientId) →
    l ∈ s'.taskLeases.rows
  otherItems : ∀ row ∈ s.workItems.rows,
    (∀ r ∈ results, row.assignedClientId ≠ some r.clientId) → row ∈ s'.workItems.rows

/-! ## Marking a client -/

section Marking

variable {s s' : Store}

/-- Expired, for the reason the scan gives. -/
def staleLease (l : TaskLease) : TaskLease := l.expiredWith "client marked stale"

/-- What `mark_client_stale` did. -/
structure MarkedBy (s s' : Store) (clientId : String) (snapshot : ClientStatusSnapshot) : Prop where
  client : snapshot.manifest.1.clientId = clientId
  manifests : s'.clientManifests = s.clientManifests
  items : s'.workItems = s.workItems
  status : ∀ k, s'.runtimeStatus k = if k = clientId then some .stale else s.runtimeStatus k
  noActive : ∀ l ∈ s'.taskLeases.rows, l.clientId = clientId → l.status ≠ .active
  otherLeases : ∀ l : LeaseRow, l.clientId ≠ clientId →
    (l ∈ s'.taskLeases.rows ↔ l ∈ s.taskLeases.rows)
  lost : snapshot.lostTaskLeases.Nodup ∧ ∀ taskId, taskId ∈ snapshot.lostTaskLeases ↔
    ∃ l ∈ s.taskLeases.rows, l.taskId = taskId ∧ l.clientId = clientId ∧ l.status = .active

/-- The active leases of a client, listed: their ids are distinct, and they are the payloads of
    its active rows. -/
theorem activeLeases (hs : RowsOk (fun _ => True) s) {clientId : String}
    {leases : List (Checked TaskLease)}
    (h : fetchedAll LeaseRow.payload (s.taskLeases.select
      (leaseMatches (some clientId) (some .active)) leaseOrder) = .ok leases) :
    (leases.map fun l => l.1.taskId).Nodup ∧ ∀ row : LeaseRow,
      (row ∈ s.taskLeases.rows ∧ row.clientId = clientId ∧ row.status = .active) ↔
        ∃ l ∈ leases, row = leaseRow l.1 := by
  have hvals := vals_of_fetchedAll (fun _ => rfl) h
  have hrow (row : LeaseRow) (hmem : row ∈ s.taskLeases.rows) : row = leaseRow row.payload :=
    (hs.leases row hmem).1
  have hselect (row : LeaseRow) : row ∈ s.taskLeases.select
      (leaseMatches (some clientId) (some .active)) leaseOrder ↔
      row ∈ s.taskLeases.rows ∧ row.clientId = clientId ∧ row.status = .active := by
    rw [Table.mem_select]
    simp [leaseMatches]
  constructor
  · have hids : leases.map (fun l => l.1.taskId) = (s.taskLeases.select
        (leaseMatches (some clientId) (some .active)) leaseOrder).map LeaseRow.taskId := by
      calc leases.map (fun l => l.1.taskId)
          = (leases.map Subtype.val).map TaskLease.taskId := by rw [List.map_map]; rfl
        _ = _ := by
          rw [hvals, List.map_map]
          refine List.map_congr_left fun row hmem => ?_
          exact (congrArg LeaseRow.taskId (hrow row ((hselect row).mp hmem).1)).symm
    rw [hids]
    exact Table.select_keys_nodup ..
  · intro row
    rw [← hselect]
    constructor
    · intro hmem
      have hin : row.payload ∈ leases.map Subtype.val := by
        rw [hvals]
        exact List.mem_map_of_mem hmem
      obtain ⟨l, hl, heq⟩ := List.mem_map.mp hin
      exact ⟨l, hl, by rw [heq]; exact hrow row ((hselect row).mp hmem).1⟩
    · rintro ⟨l, hl, rfl⟩
      have hin : l.1 ∈ leases.map Subtype.val := List.mem_map_of_mem hl
      rw [hvals] at hin
      obtain ⟨row, hmem, heq⟩ := List.mem_map.mp hin
      rw [← heq, ← hrow row ((hselect row).mp hmem).1]
      exact hmem

/-- What expiring a list of leases with distinct ids does. -/
theorem returns_expireLeases {leases : List (Checked TaskLease)} {expired : List TaskLease}
    (hnodup : (leases.map fun l => l.1.taskId).Nodup)
    (h : Returns (Program.forEach leases fun l => upsertTaskLease (staleLease l.1)) s expired s') :
    expired = leases.map (fun l => staleLease l.1) ∧ s'.clientManifests = s.clientManifests ∧
      s'.clientHeartbeats = s.clientHeartbeats ∧ s'.workItems = s.workItems ∧
      (∀ l ∈ leases, s'.taskLeases.find? l.1.taskId = some (leaseRow (staleLease l.1))) ∧
      ∀ k, (∀ l ∈ leases, l.1.taskId ≠ k) → s'.taskLeases.find? k = s.taskLeases.find? k := by
  refine Program.returns_forEach (J := fun ran expired t =>
    expired = ran.map (fun l => staleLease l.1) ∧ t.clientManifests = s.clientManifests ∧
      t.clientHeartbeats = s.clientHeartbeats ∧ t.workItems = s.workItems ∧
      (∀ l ∈ ran, t.taskLeases.find? l.1.taskId = some (leaseRow (staleLease l.1))) ∧
      ∀ k, (∀ l ∈ ran, l.1.taskId ≠ k) → t.taskLeases.find? k = s.taskLeases.find? k)
    (fun ran l rest expired l' t t' hsplit hJ hret => ?_)
    ⟨rfl, rfl, rfl, rfl, fun l hl => (List.not_mem_nil hl).elim, fun _ _ => rfl⟩ h
  obtain ⟨hexpired, hmanifests, hbeats, hitems, hran, hothers⟩ := hJ
  obtain ⟨-, rfl, rfl⟩ := returns_upsertTaskLease.mp hret
  have hnew : ∀ x ∈ ran, x.1.taskId ≠ l.1.taskId := by
    intro x hx heq
    rw [hsplit, List.map_append, List.nodup_append] at hnodup
    exact hnodup.2.2 _ (List.mem_map_of_mem hx) _ (List.mem_cons_self ..) heq
  refine ⟨by simp [hexpired], hmanifests, hbeats, hitems, fun x hx => ?_, fun k hk => ?_⟩
  · rw [Store.putLease_taskLeases, Table.find?_upsert]
    rcases List.mem_append.mp hx with hx | hx
    · rw [if_neg fun heq => hnew x hx heq.symm]
      exact hran x hx
    · rw [List.mem_singleton.mp hx]
      exact if_pos rfl
  · rw [Store.putLease_taskLeases, Table.find?_upsert]
    exact (if_neg (hk l (List.mem_append_right _ (List.mem_singleton.mpr rfl)))).trans
      (hothers k fun x hx => hk x (List.mem_append_left _ hx))

theorem returns_markClientStale (hs : RowsOk (fun _ => True) s) {clientId : String}
    {snapshot : ClientStatusSnapshot} (h : Returns (markClientStale clientId) s snapshot s') :
    MarkedBy s s' clientId snapshot := by
  obtain ⟨m, s₁, hm, htail⟩ := returns_bind.mp (returns_storeCall.mp h)
  obtain ⟨⟨row, hrow, hbuild⟩, hs₁⟩ := returns_selectClientManifest.mp hm
  subst hs₁
  obtain ⟨expired, s₂, hexpire, htail₂⟩ := returns_bind.mp htail
  obtain ⟨beat, s₃, hread, htail₃⟩ := returns_bind.mp htail₂
  obtain ⟨-, hs₃⟩ := returns_query.mp hread
  subst hs₃
  obtain ⟨_, s₄, hwrite, hpure⟩ := returns_bind.mp htail₃
  obtain ⟨hsnapshot, hs₄⟩ := returns_pure.mp hpure
  subst hs₄ hsnapshot
  obtain ⟨leases, s₅, hlist, hloop⟩ := returns_bind.mp hexpire
  obtain ⟨hleases, hs₅⟩ := returns_selectTaskLeases.mp hlist
  subst hs₅
  obtain ⟨hnodup, hactive⟩ := activeLeases hs hleases
  obtain ⟨hexpired, hmanifests, hbeats, hitems, hdone, hothers⟩ := returns_expireLeases hnodup hloop
  subst hexpired
  cases returns_execute.mp hwrite
  have hids : (leases.map fun l => staleLease l.1).map TaskLease.taskId =
      leases.map fun l => l.1.taskId := by rw [List.map_map]; rfl
  -- a row that was not written is the row of before
  have hkept (l : LeaseRow) (hl : ∀ x ∈ leases, x.1.taskId ≠ l.taskId) :
      l ∈ s₃.taskLeases.rows ↔ l ∈ s₅.taskLeases.rows := by
    rw [Table.mem_rows_iff, Table.mem_rows_iff, hothers l.taskId hl]
  have hmember (x : Checked TaskLease) (hx : x ∈ leases) :
      leaseRow x.1 ∈ s₅.taskLeases.rows ∧ x.1.clientId = clientId ∧ x.1.status = .active :=
    (hactive (leaseRow x.1)).mpr ⟨x, hx, rfl⟩
  refine ⟨?_, hmanifests, hitems, fun k => ?_, fun l hl hclient hst => ?_, fun l hne => ?_, ?_, ?_⟩
  · show m.1.clientId = clientId
    rw [Model.build_eq_ok hbuild]
    show row.payload.clientId = clientId
    rw [← Table.key_of_find? hrow, (hs.manifests row (Table.mem_of_find? hrow)).1]
    rfl
  · show ((s₃.clientHeartbeats.upsert _).find? k).map _ = _
    rw [Table.find?_upsert, hbeats]
    by_cases hk : clientId = k
    · rw [if_pos hk, if_pos hk.symm]; rfl
    · rw [if_neg hk, if_neg fun h => hk h.symm]; rfl
  · change l ∈ s₃.taskLeases.rows at hl
    by_cases hx : ∃ x ∈ leases, x.1.taskId = l.taskId
    · obtain ⟨x, hx, heq⟩ := hx
      have hfind := hdone x hx
      rw [heq, Table.mem_rows_iff.mp hl] at hfind
      rw [Option.some.inj hfind] at hst
      cases hst
    · have hno : ∀ x ∈ leases, x.1.taskId ≠ l.taskId := fun x hx' heq => hx ⟨x, hx', heq⟩
      obtain ⟨x, hx', heq⟩ := (hactive l).mp ⟨(hkept l hno).mp hl, hclient, hst⟩
      exact hno x hx' (heq ▸ rfl)
  · show l ∈ s₃.taskLeases.rows ↔ _
    by_cases hx : ∃ x ∈ leases, x.1.taskId = l.taskId
    · obtain ⟨x, hx, heq⟩ := hx
      have hclient := (hmember x hx).2.1
      constructor
      · intro hl
        have hfind := hdone x hx
        rw [heq, Table.mem_rows_iff.mp hl] at hfind
        exact absurd (by rw [Option.some.inj hfind]; exact hclient) hne
      · intro hl
        have hfind := Table.mem_rows_iff.mp (hmember x hx).1
        rw [show LeaseRow.taskId (leaseRow x.1) = l.taskId from heq,
          Table.mem_rows_iff.mp hl] at hfind
        exact absurd (by rw [Option.some.inj hfind]; exact hclient) hne
    · exact hkept l fun x hx' heq => hx ⟨x, hx', heq⟩
  · show ((leases.map fun l => staleLease l.1).map TaskLease.taskId).Nodup
    rw [hids]
    exact hnodup
  · intro taskId
    show taskId ∈ (leases.map fun l => staleLease l.1).map TaskLease.taskId ↔ _
    rw [hids, List.mem_map]
    constructor
    · rintro ⟨x, hx, rfl⟩
      exact ⟨leaseRow x.1, (hmember x hx).1, rfl, (hmember x hx).2⟩
    · rintro ⟨l, hl, rfl, hclient, hst⟩
      obtain ⟨x, hx, rfl⟩ := (hactive l).mp ⟨hl, hclient, hst⟩
      exact ⟨x, hx, rfl⟩

end Marking

/-! ## Requeueing the work of a client -/

/-- The row is not recoverable work of the client. -/
def Settled (clientId : String) (row : WorkItemRow) : Prop :=
  row.assignedClientId = some clientId → row.status ∉ recoverableStaleWorkStatuses

/-- The tables that requeueing leaves alone. -/
structure OnlyItems (s s' : Store) : Prop where
  manifests : s'.clientManifests = s.clientManifests
  heartbeats : s'.clientHeartbeats = s.clientHeartbeats
  leases : s'.taskLeases = s.taskLeases

theorem OnlyItems.trans {a b c : Store} (hab : OnlyItems a b) (hbc : OnlyItems b c) :
    OnlyItems a c :=
  ⟨hbc.1.trans hab.1, hbc.2.trans hab.2, hbc.3.trans hab.3⟩

/-- Every recoverable status has an edge to `requeued`. -/
theorem recoverable_requeues {status : WorkItemStatus}
    (h : status ∈ recoverableStaleWorkStatuses) :
    WorkItemStatus.requeued ∈ allowedWorkItemTransitions status := by
  cases status <;> revert h <;> decide

section Requeueing

variable {s s' : Store}

/-- The item is moved, and the other rows stay. -/
structure ItemMoved (s s' : Store) (item : WorkItem) : Prop where
  tables : OnlyItems s s'
  find? : ∀ k, s'.workItems.find? k =
    if item.workItemId = k then some (workItemRow item) else s.workItems.find? k

theorem itemMoved_of_recorded {item : WorkItem} {e : EventFields}
    (hfound : ∃ row, s.workItems.find? item.workItemId = some row) (h : s' = s.moved item e) :
    ItemMoved s s' item := by
  subst h
  refine ⟨⟨rfl, rfl, rfl⟩, fun k => ?_⟩
  obtain ⟨row, hrow⟩ := hfound
  rw [Store.moved_workItems, Table.find?_replace]
  show (if item.workItemId = k then _ else _) = _
  by_cases hk : item.workItemId = k
  · subst hk
    rw [if_pos rfl, if_pos rfl, hrow]
    rfl
  · rw [if_neg hk, if_neg hk]

/-- One turn of `_recover_stale_work_items`: nothing that is stored changes but the ledger, and the
    item is settled; or the item is requeued and reported. -/
theorem returns_recoverStaleWorkItem (hs : RowsOk (fun _ => True) s)
    {snapshot : ClientStatusSnapshot} {now : DateTime} {item : Checked WorkItem}
    {result : Option (WorkItemTransitionResult × Checked ControlPlaneEvent)}
    (h : Returns (recoverStaleWorkItem snapshot now item) s result s') :
    (result = none ∧ OnlyItems s s' ∧ s'.workItems = s.workItems ∧
      (item.1.status ∉ recoverableStaleWorkStatuses ∨
        ∀ row, s.workItems.find? item.1.workItemId = some row →
          row.status ∉ recoverableStaleWorkStatuses)) ∨
      ∃ t e, result = some (t, e) ∧ t.workItem.1.workItemId = item.1.workItemId ∧
        t.workItem.1.status = .requeued ∧ t.workItem.1.assignedClientId = none ∧
        t.workItem.1.leaseId = none ∧ ItemMoved s s' t.workItem.1 := by
  unfold recoverStaleWorkItem at h
  split at h
  · rename_i hno
    obtain ⟨hresult, hs'⟩ := returns_pure.mp h
    subst hs' hresult
    exact Or.inl ⟨rfl, ⟨rfl, rfl, rfl⟩, rfl, Or.inl hno⟩
  split at h
  · rename_i hin hrequeued
    rw [hrequeued] at hin
    exact absurd hin (by decide)
  obtain ⟨t, s₁, htransition, htail⟩ := returns_bind.mp h
  obtain ⟨current, hload, hdenied | hmoved⟩ := transition_cases htransition
  · rw [if_pos (by rw [hdenied.code]; decide)] at htail
    obtain ⟨hresult, hs'⟩ := returns_pure.mp htail
    obtain ⟨summary, hrec⟩ := hdenied.recorded
    subst hs' hresult hrec
    refine Or.inl ⟨rfl, ⟨rfl, rfl, rfl⟩, rfl, Or.inr fun row hrow hin => ?_⟩
    obtain ⟨row', hrow', hbuild⟩ := hload
    cases hrow.symm.trans hrow'
    rw [(hs.items row (Table.mem_of_find? hrow)).status, ← build_val (fun _ => rfl) hbuild] at hin
    exact hdenied.forbidden (recoverable_requeues hin)
  · rw [if_neg (by rw [hmoved.code]; exact fun h => h rfl)] at htail
    obtain ⟨e, s₂, hevent, hpure⟩ := returns_bind.mp htail
    obtain ⟨hresult, hs'⟩ := returns_pure.mp hpure
    obtain ⟨-, -, -, hs₂⟩ := returns_appendEvent.mp hevent
    have hspec := transitionedItem_spec hmoved.item
    have hid := hspec.2.1.trans (Loaded.itemAt hs hload).2
    obtain ⟨hassigned, hlease⟩ := hspec.2.2.2.2.1 rfl
    have hitem := itemMoved_of_recorded hmoved.found hmoved.recorded
    refine Or.inr ⟨t, e, hresult, hid, hspec.1, hassigned, hlease, ?_⟩
    subst hs' hs₂
    exact ⟨⟨hitem.tables.1, hitem.tables.2, hitem.tables.3⟩, hitem.find?⟩

/-- The invariant of the loop over the items of a client: `ran` are done, with these results. -/
structure ItemsRecovered (s s' : Store) (clientId : String) (ran : List (Checked WorkItem))
    (results : List (Option (WorkItemTransitionResult × Checked ControlPlaneEvent))) : Prop where
  rows : RowsOk (fun _ => True) s'
  tables : OnlyItems s s'
  others : ∀ k, (∀ x ∈ ran, x.1.workItemId ≠ k) → s'.workItems.find? k = s.workItems.find? k
  settled : ∀ x ∈ ran, ∀ row, s'.workItems.find? x.1.workItemId = some row → Settled clientId row
  changed : ∀ k, s'.workItems.find? k = s.workItems.find? k ∨ Unowned s' k
  reported : ∀ p, some p ∈ results → Unowned s' p.1.workItem.1.workItemId ∧
    ∃ x ∈ ran, x.1.workItemId = p.1.workItem.1.workItemId

theorem settled_of_unowned {clientId : String} {item : WorkItem}
    (h : item.assignedClientId = none) : Settled clientId (workItemRow item) := by
  intro hrow
  cases h.symm.trans hrow

/-- A row at a place without an owner is settled, whoever the client is. -/
theorem Unowned.settled {id clientId : String} {row : WorkItemRow} (h : Unowned s id)
    (hrow : s.workItems.find? id = some row) : Settled clientId row := by
  obtain ⟨item, hfind, -, hassigned, -⟩ := h
  cases hrow.symm.trans hfind
  exact settled_of_unowned hassigned

theorem Unowned.of_find? {t : Store} {id : String} (h : Unowned s id)
    (heq : t.workItems.find? id = s.workItems.find? id) : Unowned t id := by
  obtain ⟨item, hfind, hrest⟩ := h
  exact ⟨item, heq.trans hfind, hrest⟩

theorem ItemMoved.unowned {item : WorkItem} (h : ItemMoved s s' item)
    (hstatus : item.status = .requeued) (hassigned : item.assignedClientId = none)
    (hlease : item.leaseId = none) : Unowned s' item.workItemId :=
  ⟨item, by rw [h.find?, if_pos rfl], hstatus, hassigned, hlease⟩

/-- The loop over the items keeps its invariant. -/
theorem itemsRecovered_step {t : Store} {snapshot : ClientStatusSnapshot} {now : DateTime}
    {clientId : String} {ran : List (Checked WorkItem)} {item : Checked WorkItem}
    {results : List (Option (WorkItemTransitionResult × Checked ControlPlaneEvent))}
    {result : Option (WorkItemTransitionResult × Checked ControlPlaneEvent)}
    (hlisted : ∀ row, s.workItems.find? item.1.workItemId = some row → row.payload = item.1 ∧
      row.status = item.1.status)
    (hran : ItemsRecovered s t clientId ran results)
    (hrow : RowsOk (fun _ => True) s')
    (h : Returns (recoverStaleWorkItem snapshot now item) t result s') :
    ItemsRecovered s s' clientId (ran ++ [item]) (results ++ [result]) := by
  rcases returns_recoverStaleWorkItem hran.rows h with
    ⟨hnone, htables, hitems, hskip⟩ | ⟨r, e, hresult, hid, hstatus, hassigned, hlease, hmoved⟩
  · refine ⟨hrow, hran.tables.trans htables, fun k hk => ?_, fun x hx row hfind => ?_, fun k => ?_,
      fun p hp => ?_⟩
    · rw [hitems]
      exact hran.others k fun x hx => hk x (List.mem_append_left _ hx)
    · rw [hitems] at hfind
      rcases List.mem_append.mp hx with hx | hx
      · exact hran.settled x hx row hfind
      · rw [List.mem_singleton.mp hx] at hfind
        rcases hran.changed item.1.workItemId with hsame | hunowned
        · intro _
          rcases hskip with hno | hno
          · rw [(hlisted row (hsame.symm.trans hfind)).2]
            exact hno
          · exact hno row hfind
        · exact hunowned.settled hfind
    · rw [hitems]
      rcases hran.changed k with hsame | hunowned
      · exact Or.inl hsame
      · exact Or.inr (hunowned.of_find? (by rw [hitems]))
    · rcases List.mem_append.mp hp with hp | hp
      · obtain ⟨hunowned, x, hx, hid⟩ := hran.reported p hp
        exact ⟨hunowned.of_find? (by rw [hitems]), x, List.mem_append_left _ hx, hid⟩
      · rw [hnone] at hp
        cases List.mem_singleton.mp hp
  · have hnew : Unowned s' r.workItem.1.workItemId := hmoved.unowned hstatus hassigned hlease
    have hother (k : String) (hk : r.workItem.1.workItemId ≠ k) :
        s'.workItems.find? k = t.workItems.find? k := by rw [hmoved.find?, if_neg hk]
    have hstill (k : String) (hunowned : Unowned t k) : Unowned s' k := by
      by_cases hk : r.workItem.1.workItemId = k
      · exact hk ▸ hnew
      · exact hunowned.of_find? (hother k hk)
    have hitem : item ∈ ran ++ [item] := List.mem_append_right _ (List.mem_singleton.mpr rfl)
    refine ⟨hrow, hran.tables.trans hmoved.tables, fun k hk => ?_, fun x hx row hfind => ?_,
      fun k => ?_, fun p hp => ?_⟩
    · rw [hother k (hid ▸ hk item hitem)]
      exact hran.others k fun x hx => hk x (List.mem_append_left _ hx)
    · by_cases hk : r.workItem.1.workItemId = x.1.workItemId
      · exact Unowned.settled (hk ▸ hnew) hfind
      · rcases List.mem_append.mp hx with hx | hx
        · exact hran.settled x hx row ((hother _ hk).symm.trans hfind)
        · rw [List.mem_singleton.mp hx] at hk
          exact absurd hid hk
    · by_cases hk : r.workItem.1.workItemId = k
      · exact Or.inr (hk ▸ hnew)
      · rcases hran.changed k with hsame | hunowned
        · exact Or.inl ((hother k hk).trans hsame)
        · exact Or.inr (hstill k hunowned)
    · rcases List.mem_append.mp hp with hp | hp
      · obtain ⟨hunowned, x, hx, hxid⟩ := hran.reported p hp
        exact ⟨hstill _ hunowned, x, List.mem_append_left _ hx, hxid⟩
      · rw [hresult] at hp
        cases List.mem_singleton.mp hp
        exact ⟨hnew, item, hitem, hid.symm⟩

/-- What `_recover_stale_work_items` did for a client. -/
structure WorkRecovered (s s' : Store) (clientId : String)
    (transitions : List WorkItemTransitionResult) : Prop where
  rows : RowsOk (fun _ => True) s'
  settled : ∀ row ∈ s'.workItems.rows, Settled clientId row
  changed : ∀ k, s'.workItems.find? k = s.workItems.find? k ∨ Unowned s' k
  otherItems : ∀ row ∈ s.workItems.rows, row.assignedClientId ≠ some clientId →
    row ∈ s'.workItems.rows
  reported : ∀ t ∈ transitions, Unowned s' t.workItem.1.workItemId ∧
    ∃ row, s.workItems.find? t.workItem.1.workItemId = some row ∧
      row.assignedClientId = some clientId

/-- A request that keeps the rows keeps them when it runs alone and returns. -/
theorem rowsOk_of_returns {α : Type} {p : Db α} {a : α} (hp : Safe (RowsOk fun _ => True) Any p)
    (hs : RowsOk (fun _ => True) s) (h : Returns p s a s') : RowsOk (fun _ => True) s' :=
  hp.solo.keeps s a s' hs h

/-- Every request keeps the rows, whatever reasons leases are released with. -/
theorem anyRowsOk : RequestRule (fun _ => True) (fun {_} p => Safe (RowsOk fun _ => True) Any p) :=
  rowsOk_rule fun _ _ => trivial

/-- The items listed for a client are those whose column names it. -/
theorem itemsOfClient (hs : RowsOk (fun _ => True) s) {clientId : String}
    {items : List (Checked WorkItem)}
    (h : fetchedAll WorkItemRow.payload (s.workItems.select
      (workItemMatches none none (some clientId)) workItemOrder) = .ok items) :
    (∀ item ∈ items, ∃ row, s.workItems.find? item.1.workItemId = some row ∧
      row.assignedClientId = some clientId ∧ row.payload = item.1 ∧ row.status = item.1.status) ∧
    ∀ row ∈ s.workItems.rows, row.assignedClientId = some clientId →
      ∃ item ∈ items, item.1.workItemId = row.workItemId := by
  have hselect (row : WorkItemRow) : row ∈ s.workItems.select
      (workItemMatches none none (some clientId)) workItemOrder ↔
      row ∈ s.workItems.rows ∧ row.assignedClientId = some clientId := by
    rw [Table.mem_select]
    simp [workItemMatches]
  constructor
  · intro item hitem
    obtain ⟨row, hrow, hbuild⟩ := row_of_built h hitem
    obtain ⟨hmem, hassigned⟩ := (hselect row).mp hrow
    have hok := hs.items row hmem
    have hval := build_val (fun _ => rfl) hbuild
    refine ⟨row, ?_, hassigned, hval.symm, hval ▸ hok.status⟩
    rw [hval, hok.id]
    exact Table.mem_rows_iff.mp hmem
  · intro row hmem hassigned
    obtain ⟨item, hitem, hbuild⟩ := built_of_mem h ((hselect row).mpr ⟨hmem, hassigned⟩)
    exact ⟨item, hitem, by rw [build_val (fun _ => rfl) hbuild, (hs.items row hmem).id]⟩

theorem returns_recoverStaleWorkItems (hs : RowsOk (fun _ => True) s)
    {snapshot : ClientStatusSnapshot} {now : DateTime}
    {result : List WorkItemTransitionResult × List (Checked ControlPlaneEvent)}
    (h : Returns (recoverStaleWorkItems snapshot now) s result s') :
    OnlyItems s s' ∧ WorkRecovered s s' snapshot.manifest.1.clientId result.1 := by
  obtain ⟨items, s₁, hlist, htail⟩ := returns_bind.mp h
  obtain ⟨hitems, hs₁⟩ := returns_listWorkItems.mp hlist
  subst hs₁
  obtain ⟨results, s₂, hloop, hpure⟩ := returns_bind.mp htail
  obtain ⟨hresult, hs₂⟩ := returns_pure.mp hpure
  subst hresult hs₂
  obtain ⟨hlisted, hlists⟩ := itemsOfClient hs hitems
  have hdone : ItemsRecovered s₁ s' snapshot.manifest.1.clientId items results := by
    refine Program.returns_forEach
      (J := fun ran results t => ItemsRecovered s₁ t snapshot.manifest.1.clientId ran results)
      (fun ran item rest results result t t' hsplit hJ hstep => ?_)
      ⟨hs, ⟨rfl, rfl, rfl⟩, fun _ _ => rfl, fun x hx => (List.not_mem_nil hx).elim,
        fun _ => Or.inl rfl, fun p hp => (List.not_mem_nil hp).elim⟩ hloop
    refine itemsRecovered_step (fun row hrow => ?_) hJ
      (rowsOk_of_returns (anyRowsOk.recoverStaleWorkItem snapshot now item) hJ.rows hstep) hstep
    obtain ⟨row', hrow', -, hsame⟩ := hlisted item (by rw [hsplit]; simp)
    cases hrow.symm.trans hrow'
    exact hsame
  refine ⟨hdone.tables, hdone.rows, fun row hrow hassigned => ?_, hdone.changed,
    fun row hrow hne => ?_, fun t ht => ?_⟩
  · by_cases hitem : ∃ x ∈ items, x.1.workItemId = row.workItemId
    · obtain ⟨x, hx, hid⟩ := hitem
      exact hdone.settled x hx row (by rw [hid]; exact Table.mem_rows_iff.mp hrow) hassigned
    · have hkept := hdone.others row.workItemId fun x hx hid => hitem ⟨x, hx, hid⟩
      rw [Table.mem_rows_iff, hkept] at hrow
      exact absurd (hlists row (Table.mem_rows_iff.mpr hrow) hassigned) hitem
  · rw [Table.mem_rows_iff, hdone.others row.workItemId fun x hx hid => ?_]
    · exact Table.mem_rows_iff.mp hrow
    · obtain ⟨row', hrow', hassigned, -⟩ := hlisted x hx
      rw [hid, Table.mem_rows_iff.mp hrow] at hrow'
      exact hne (Option.some.inj hrow' ▸ hassigned)
  · obtain ⟨p, hp, rfl⟩ := List.mem_map.mp ht
    obtain ⟨o, ho, hsome⟩ := List.mem_filterMap.mp hp
    obtain ⟨hunowned, x, hx, hid⟩ := hdone.reported p (hsome ▸ ho)
    obtain ⟨row, hrow, hassigned, -⟩ := hlisted x hx
    exact ⟨hunowned, row, hid ▸ hrow, hassigned⟩

end Requeueing

/-! ## The loop over the clients -/

section Scanning

variable {s s' : Store}

/-- The invariant of the loop over the stale clients, whose results so far are these. -/
structure ClientsMarked (s s' : Store) (results : List ClientStaleRecoveryResult) : Prop where
  rows : RowsOk (fun _ => True) s'
  manifests : s'.clientManifests = s.clientManifests
  stale : ∀ r ∈ results, s'.runtimeStatus r.clientId = some .stale
  noActiveLease : ∀ r ∈ results, ∀ l ∈ s'.taskLeases.rows, l.clientId = r.clientId →
    l.status ≠ .active
  lostLeases : ∀ r ∈ results, r.snapshot.lostTaskLeases.Nodup ∧
    ∀ taskId, taskId ∈ r.snapshot.lostTaskLeases ↔ ∃ l ∈ s.taskLeases.rows,
      l.taskId = taskId ∧ l.clientId = r.clientId ∧ l.status = .active
  settled : ∀ r ∈ results, ∀ row ∈ s'.workItems.rows, Settled r.clientId row
  changed : ∀ k, s'.workItems.find? k = s.workItems.find? k ∨ Unowned s' k
  reported : ∀ r ∈ results, ∀ t ∈ r.recoveredWorkItems, Unowned s' t.workItem.1.workItemId ∧
    ∃ row, s.workItems.find? t.workItem.1.workItemId = some row ∧
      row.assignedClientId = some r.clientId
  otherLeases : ∀ l : LeaseRow, (∀ r ∈ results, l.clientId ≠ r.clientId) →
    (l ∈ s'.taskLeases.rows ↔ l ∈ s.taskLeases.rows)
  otherItems : ∀ row ∈ s.workItems.rows,
    (∀ r ∈ results, row.assignedClientId ≠ some r.clientId) → row ∈ s'.workItems.rows

/-- What one turn of the loop over the stale clients did. -/
structure ClientRecovered (s s' : Store) (clientId : String) (r : ClientStaleRecoveryResult) :
    Prop where
  marked : ∃ t, MarkedBy s t clientId r.snapshot ∧
    s'.clientHeartbeats = t.clientHeartbeats ∧ s'.taskLeases = t.taskLeases
  manifests : s'.clientManifests = s.clientManifests
  work : WorkRecovered s s' clientId r.recoveredWorkItems

theorem returns_recoverStaleClient (hs : RowsOk (fun _ => True) s) {now : DateTime}
    {stale : ClientStatusSnapshot × Int} {r : ClientStaleRecoveryResult}
    (h : Returns (recoverStaleClient now stale) s r s') :
    r.reassignedWorkItems = [] ∧ ClientRecovered s s' stale.1.manifest.1.clientId r := by
  obtain ⟨marked, s₁, hmark, htail⟩ := returns_bind.mp h
  obtain ⟨event, s₂, hevent, htail₂⟩ := returns_bind.mp htail
  obtain ⟨recovered, s₃, hrecover, hpure⟩ := returns_bind.mp htail₂
  obtain ⟨hr, hs₃⟩ := returns_pure.mp hpure
  obtain ⟨-, -, -, hs₂⟩ := returns_appendEvent.mp hevent
  have hmarked := returns_markClientStale hs hmark
  have hrows : RowsOk (fun _ => True) s₂ := rowsOk_of_returns (anyRowsOk.appendEvent _ (.stale ..))
    (rowsOk_of_returns (anyRowsOk.markClientStale _) hs hmark) hevent
  obtain ⟨htables, hwork⟩ := returns_recoverStaleWorkItems hrows hrecover
  have hitems : s₂.workItems = s.workItems := by rw [hs₂]; exact hmarked.items
  rw [hmarked.client] at hwork
  subst hr hs₃
  refine ⟨rfl, ⟨s₁, hmarked, ?_, ?_⟩, ?_, hwork.rows, hwork.settled, ?_, ?_, ?_⟩
  · rw [htables.heartbeats, hs₂]; rfl
  · rw [htables.leases, hs₂]; rfl
  · rw [htables.manifests, hs₂]; exact hmarked.manifests
  · rw [← hitems]; exact hwork.changed
  · rw [← hitems]; exact hwork.otherItems
  · rw [← hitems]; exact hwork.reported

theorem ClientRecovered.status {clientId : String} {r : ClientStaleRecoveryResult}
    (h : ClientRecovered s s' clientId r) (k : String) :
    s'.runtimeStatus k = if k = clientId then some .stale else s.runtimeStatus k := by
  obtain ⟨t, hmarked, hbeats, -⟩ := h.marked
  rw [← hmarked.status k, Store.runtimeStatus, Store.runtimeStatus, hbeats]

/-- The loop over the clients keeps its invariant, each client being a new one. -/
theorem clientsMarked_step {t : Store} {clientId : String} {r : ClientStaleRecoveryResult}
    {results : List ClientStaleRecoveryResult} (hran : ClientsMarked s t results)
    (hnew : ∀ x ∈ results, x.clientId ≠ clientId) (h : ClientRecovered t s' clientId r) :
    ClientsMarked s s' (results ++ [r]) := by
  obtain ⟨u, hmarked, hbeats, hleases⟩ := h.marked
  have hid : r.clientId = clientId := hmarked.client
  have hcases {x : ClientStaleRecoveryResult} (hx : x ∈ results ++ [r]) : x ∈ results ∨ x = r :=
    (List.mem_append.mp hx).imp_right List.mem_singleton.mp
  have hlast : r ∈ results ++ [r] := List.mem_append_right _ (List.mem_singleton.mpr rfl)
  have hstill (k : String) (hunowned : Unowned t k) : Unowned s' k := by
    rcases h.work.changed k with hsame | hnow
    · exact hunowned.of_find? hsame
    · exact hnow
  -- the leases of the new client were not touched before
  have hbefore (l : LeaseRow) (hl : l.clientId = clientId) :
      l ∈ t.taskLeases.rows ↔ l ∈ s.taskLeases.rows :=
    hran.otherLeases l fun x hx => by rw [hl]; exact (hnew x hx).symm
  constructor
  case rows => exact h.work.rows
  case manifests => exact h.manifests.trans hran.manifests
  case stale =>
    intro x hx
    rw [h.status]
    rcases hcases hx with hx | rfl
    · rw [if_neg (hnew x hx)]
      exact hran.stale x hx
    · exact if_pos hid
  case noActiveLease =>
    intro x hx l hl hclient
    rw [hleases] at hl
    rcases hcases hx with hx | rfl
    · have hne : l.clientId ≠ clientId := by rw [hclient]; exact hnew x hx
      exact hran.noActiveLease x hx l ((hmarked.otherLeases l hne).mp hl) hclient
    · exact hmarked.noActive l hl (hclient.trans hid)
  case lostLeases =>
    intro x hx
    rcases hcases hx with hx | rfl
    · exact hran.lostLeases x hx
    · refine ⟨hmarked.lost.1, fun taskId => (hmarked.lost.2 taskId).trans ?_⟩
      rw [hid]
      exact exists_congr fun l => ⟨fun hl => ⟨(hbefore l hl.2.2.1).mp hl.1, hl.2⟩,
        fun hl => ⟨(hbefore l hl.2.2.1).mpr hl.1, hl.2⟩⟩
  case settled =>
    intro x hx row hrow
    rcases hcases hx with hx | rfl
    · rcases h.work.changed row.workItemId with hsame | hnow
      · rw [Table.mem_rows_iff, hsame, ← Table.mem_rows_iff] at hrow
        exact hran.settled x hx row hrow
      · exact hnow.settled (Table.mem_rows_iff.mp hrow)
    · rw [hid]
      exact h.work.settled row hrow
  case changed =>
    intro k
    rcases h.work.changed k with hsame | hnow
    · rcases hran.changed k with hfirst | hunowned
      · exact Or.inl (hsame.trans hfirst)
      · exact Or.inr (hstill k hunowned)
    · exact Or.inr hnow
  case reported =>
    intro x hx p hp
    rcases hcases hx with hx | rfl
    · obtain ⟨hunowned, hrow⟩ := hran.reported x hx p hp
      exact ⟨hstill _ hunowned, hrow⟩
    · obtain ⟨hunowned, row, hrow, hassigned⟩ := h.work.reported p hp
      refine ⟨hunowned, row, ?_, hid ▸ hassigned⟩
      -- what names the client was not changed for another one, since that left no owner
      rcases hran.changed p.workItem.1.workItemId with hsame | ⟨item, hfind, -, hnone, -⟩
      · rw [← hsame]; exact hrow
      · cases hrow.symm.trans hfind
        cases hnone.symm.trans hassigned
  case otherLeases =>
    intro l hl
    rw [hleases, hmarked.otherLeases l (by rw [← hid]; exact hl r hlast)]
    exact hran.otherLeases l fun x hx => hl x (List.mem_append_left _ hx)
  case otherItems =>
    intro row hrow hne
    refine h.work.otherItems row (hran.otherItems row hrow fun x hx => ?_) (by
      rw [← hid]; exact hne r hlast)
    exact hne x (List.mem_append_left _ hx)

/-! ### The clients listed -/

theorem ids_of_joinedSnapshots (hs : RowsOk (fun _ => True) s) :
    ∀ {rows : List ManifestRow} {snapshots : List ClientStatusSnapshot},
      (∀ row ∈ rows, row ∈ s.clientManifests.rows) → joinedSnapshots s rows = .ok snapshots →
      snapshots.map (fun x => x.manifest.1.clientId) = rows.map ManifestRow.clientId := by
  intro rows
  induction rows with
  | nil => intro snapshots _ h; cases h; rfl
  | cons row rows ih =>
    intro snapshots hmem h
    unfold joinedSnapshots at h
    split at h
    · cases h
    rename_i m hbuild
    split at h
    · cases h
    rename_i rest hrest
    cases h
    have hid : m.1.clientId = row.clientId := by
      rw [Model.build_eq_ok hbuild, (hs.manifests row (hmem row (List.mem_cons_self ..))).1]
      rfl
    rw [List.map_cons, List.map_cons, ih (fun x hx => hmem x (List.mem_cons_of_mem _ hx)) hrest]
    cases s.clientHeartbeats.find? row.clientId <;> exact congrArg (· :: _) hid

theorem sublist_of_staleSnapshots {reference : DateTime} {seconds : Int} :
    ∀ {snapshots : List ClientStatusSnapshot} {stale : List (ClientStatusSnapshot × Int)},
      staleSnapshots reference seconds snapshots = .ok stale →
      (stale.map Prod.fst).Sublist snapshots := by
  intro snapshots
  induction snapshots with
  | nil => intro stale h; cases h; exact List.Sublist.refl _
  | cons snapshot rest ih =>
    intro stale h
    unfold staleSnapshots at h
    split at h
    · cases h
    split at h
    · cases h
    rename_i found hfound
    have hrest := ih hfound
    split at h
    · cases h
      split
      · exact hrest.cons _
      · exact hrest.cons_cons _
    · cases h
      exact hrest.cons _

/-- The clients that a scan marks are distinct. -/
theorem staleClients_nodup (hs : RowsOk (fun _ => True) s) {reference : DateTime} {seconds : Int}
    {statuses : List ClientStatusSnapshot} {stale : List (ClientStatusSnapshot × Int)}
    (hstatuses : joinedSnapshots s (s.clientManifests.select (fun _ => true) manifestOrder) =
      .ok statuses)
    (hstale : staleSnapshots reference seconds statuses = .ok stale) :
    (stale.map fun x => x.1.manifest.1.clientId).Nodup := by
  have hids := ids_of_joinedSnapshots hs (fun row hrow => (Table.mem_select.mp hrow).1) hstatuses
  have hsub := (sublist_of_staleSnapshots hstale).map (fun x => x.manifest.1.clientId)
  rw [hids, List.map_map] at hsub
  exact hsub.nodup (Table.select_keys_nodup ..)

/-- The second loop of the scan. -/
theorem returns_markClients (hs : RowsOk (fun _ => True) s) {now : DateTime}
    {stale : List (ClientStatusSnapshot × Int)} {results : List ClientStaleRecoveryResult}
    (hnodup : (stale.map fun x => x.1.manifest.1.clientId).Nodup)
    (h : Returns (Program.forEach stale (recoverStaleClient now)) s results s') :
    ClientsMarked s s' results := by
  suffices hdone : results.map ClientStaleRecoveryResult.clientId =
      stale.map (fun x => x.1.manifest.1.clientId) ∧ ClientsMarked s s' results from hdone.2
  refine Program.returns_forEach (J := fun ran results t =>
    results.map ClientStaleRecoveryResult.clientId = ran.map (fun x => x.1.manifest.1.clientId) ∧
      ClientsMarked s t results) (fun ran x rest results r t t' hsplit hJ hstep => ?_) ⟨rfl, ?_⟩ h
  · obtain ⟨hids, hran⟩ := hJ
    obtain ⟨-, hrecovered⟩ := returns_recoverStaleClient hran.rows hstep
    obtain ⟨u, hmarked, -⟩ := hrecovered.marked
    refine ⟨?_, clientsMarked_step hran (fun y hy heq => ?_) hrecovered⟩
    · rw [List.map_append, List.map_append, hids]
      exact congrArg (_ ++ [·]) hmarked.client
    · have hin : x.1.manifest.1.clientId ∈ ran.map (fun x => x.1.manifest.1.clientId) := by
        rw [← hids, ← heq]
        exact List.mem_map_of_mem hy
      rw [hsplit, List.map_append, List.nodup_append] at hnodup
      exact hnodup.2.2 _ hin _ (List.mem_cons_self ..) rfl
  · constructor
    case rows => exact hs
    case manifests => rfl
    case changed => exact fun _ => Or.inl rfl
    case otherLeases => exact fun _ _ => Iff.rfl
    case otherItems => exact fun _ hrow _ => hrow
    all_goals exact fun r hr => (List.not_mem_nil hr).elim

end Scanning

/-! ## Scheduling recovered work again -/

section Reassigning

variable {s s' : Store}

theorem snapshot_of_joined {rows : List ManifestRow} {snapshots : List ClientStatusSnapshot}
    (h : joinedSnapshots s rows = .ok snapshots) {x : ClientStatusSnapshot} (hx : x ∈ snapshots) :
    ∃ row ∈ rows, Model.build row.payload = .ok x.manifest ∧
      x = snapshotOf x.manifest (s.clientHeartbeats.find? row.clientId) := by
  induction rows generalizing snapshots with
  | nil => cases h; exact absurd hx List.not_mem_nil
  | cons row rows ih =>
    unfold joinedSnapshots at h
    split at h
    · cases h
    rename_i m hbuild
    split at h
    · cases h
    rename_i rest hrest
    cases h
    rcases List.mem_cons.mp hx with rfl | hx
    · refine ⟨row, List.mem_cons_self .., ?_⟩
      cases s.clientHeartbeats.find? row.clientId <;> exact ⟨hbuild, rfl⟩
    · obtain ⟨r, hr, hrow⟩ := ih hrest hx
      exact ⟨r, List.mem_cons_of_mem _ hr, hrow⟩

/-- A client that the scheduler may select is registered, active, trusted and able. -/
theorem selectable (hs : RowsOk (fun _ => True) s) {item : WorkItem}
    {statuses : List ClientStatusSnapshot} {x : ClientStatusSnapshot}
    (h : joinedSnapshots s (s.clientManifests.select (fun _ => true) manifestOrder) = .ok statuses)
    (hx : x ∈ statuses) (heligible : eligible item x = true) :
    s.clientManifests.find? x.manifest.1.clientId = some (manifestRow x.manifest.1) ∧
      s.runtimeStatus x.manifest.1.clientId = some .active ∧
      x.manifest.1.trustState = .trusted ∧
      item.requestedCapability.all (x.manifest.1.supportedCapabilities.contains ·) = true := by
  obtain ⟨row, hrow, hbuild, hsnapshot⟩ := snapshot_of_joined h hx
  have hmem := (Table.mem_select.mp hrow).1
  obtain ⟨hcolumns, hvalid⟩ := hs.manifests row hmem
  have hpayload : x.manifest.1 = row.payload := by
    rw [Model.build_of_valid hvalid] at hbuild
    exact congrArg Subtype.val (Except.ok.inj hbuild).symm
  have hid : x.manifest.1.clientId = row.clientId := by rw [hpayload, hcolumns]; rfl
  simp only [eligible, Bool.and_eq_true, decide_eq_true_eq] at heligible
  obtain ⟨⟨hstatus, htrust⟩, hable⟩ := heligible
  refine ⟨?_, ?_, htrust, hable⟩
  · rw [hid, hpayload, ← hcolumns]
    exact Table.mem_rows_iff.mp hmem
  · rw [hid, Store.runtimeStatus]
    rw [hsnapshot] at hstatus
    cases hbeat : s.clientHeartbeats.find? row.clientId with
    | none => rw [hbeat] at hstatus; cases hstatus
    | some beat => rw [hbeat] at hstatus; exact congrArg some hstatus

/-- One turn of the third loop: the items stay, or the recovered one has a new owner. -/
theorem returns_reassign (hs : RowsOk (fun _ => True) s) {now : DateTime}
    {t : WorkItemTransitionResult} {result : Option SchedulerDecisionResult}
    (h : Returns (reassign now t) s result s') :
    OnlyItems s s' ∧ (s'.workItems = s.workItems ∨ ∃ item clientId, ItemMoved s s' item ∧
      item.workItemId = t.workItem.1.workItemId ∧ Reassigned s' item.workItemId clientId) := by
  unfold reassign at h
  split at h
  · obtain ⟨-, hs'⟩ := returns_pure.mp h
    subst hs'
    exact ⟨⟨rfl, rfl, rfl⟩, Or.inl rfl⟩
  obtain ⟨decision, s₁, hschedule, hpure⟩ := returns_bind.mp h
  obtain ⟨-, hs₁⟩ := returns_pure.mp hpure
  subst hs₁
  obtain ⟨item, hload, hdenied | ⟨selected, assignment, hsched⟩⟩ := schedule_cases hschedule
  · obtain ⟨summary, hrec⟩ := hdenied.recorded
    subst hrec
    exact ⟨⟨rfl, rfl, rfl⟩, Or.inl rfl⟩
  have hid := (Loaded.itemAt hs hload).2
  obtain ⟨statuses, hstatuses, hin⟩ := hsched.selectable
  obtain ⟨hfind, hactive, htrust, hable⟩ := selectable hs hstatuses hin hsched.eligible
  obtain ⟨summary, hassign⟩ := hsched.assigned
  obtain ⟨current, hcurrent, hdenied | hmoved⟩ := transition_cases hassign
  · obtain ⟨summary, hrec⟩ := hdenied.recorded
    subst hrec
    exact ⟨⟨rfl, rfl, rfl⟩, Or.inl rfl⟩
  have hitem := itemMoved_of_recorded hmoved.found hmoved.recorded
  have hspec := transitionedItem_spec hmoved.item
  obtain ⟨hat, hcid⟩ := Loaded.itemAt hs hcurrent
  have hsame : current.1 = item.1 := by
    have hfirst := (Loaded.itemAt hs hload).1
    rw [← hid, hat] at hfirst
    exact Option.some.inj hfirst
  refine ⟨hitem.tables, Or.inr ⟨assignment.workItem.1, selected.manifest.1.clientId, hitem, ?_,
    assignment.workItem.1, selected.manifest.1, ?_, hspec.1, ?_, ?_, ?_, htrust, ?_⟩⟩
  · rw [hspec.2.1, hcid, hid]
  · rw [hitem.find?, if_pos rfl]
  · exact hspec.2.2.2.2.2 (by decide)
  · rw [Store.runtimeStatus, hitem.tables.heartbeats]
    exact hactive
  · rw [hitem.tables.manifests]
    exact hfind
  · rw [hspec.2.2.2.1, hsame]
    exact hable

theorem Reassigned.of_kept {t : Store} {id clientId : String} (h : Reassigned s id clientId)
    (htables : OnlyItems s t) (heq : t.workItems.find? id = s.workItems.find? id) :
    Reassigned t id clientId := by
  obtain ⟨item, m, hfind, hstatus, hassigned, hactive, hmanifest, hrest⟩ := h
  refine ⟨item, m, heq.trans hfind, hstatus, hassigned, ?_, ?_, hrest⟩
  · rw [Store.runtimeStatus, htables.heartbeats]
    exact hactive
  · rw [htables.manifests]
    exact hmanifest

/-- The invariant of the loop over the recovered items, of which `ran` are done. -/
structure ItemsReassigned (s s' : Store) (ran : List WorkItemTransitionResult) : Prop where
  rows : RowsOk (fun _ => True) s'
  tables : OnlyItems s s'
  changed : ∀ k, s'.workItems.find? k = s.workItems.find? k ∨
    (∃ t ∈ ran, t.workItem.1.workItemId = k) ∧ ∃ clientId, Reassigned s' k clientId

theorem itemsReassigned_step {u : Store} {now : DateTime} {ran : List WorkItemTransitionResult}
    {t : WorkItemTransitionResult} {result : Option SchedulerDecisionResult}
    (hran : ItemsReassigned s u ran) (hrows : RowsOk (fun _ => True) s')
    (h : Returns (reassign now t) u result s') : ItemsReassigned s s' (ran ++ [t]) := by
  obtain ⟨htables, hchange⟩ := returns_reassign hran.rows h
  -- what was done before stands where the item now moved is another one
  have hstill (k : String) (hk : s'.workItems.find? k = u.workItems.find? k) :
      s'.workItems.find? k = s.workItems.find? k ∨
        (∃ x ∈ ran ++ [t], x.workItem.1.workItemId = k) ∧ ∃ clientId, Reassigned s' k clientId := by
    rcases hran.changed k with hsame | ⟨⟨x, hx, hid⟩, clientId, hre⟩
    · exact Or.inl (hk.trans hsame)
    · exact Or.inr ⟨⟨x, List.mem_append_left _ hx, hid⟩, clientId, hre.of_kept htables hk⟩
  refine ⟨hrows, hran.tables.trans htables, fun k => ?_⟩
  rcases hchange with hkept | ⟨item, clientId, hmoved, hid, hre⟩
  · exact hstill k (by rw [hkept])
  · by_cases hk : item.workItemId = k
    · exact Or.inr ⟨⟨t, List.mem_append_right _ (List.mem_singleton.mpr rfl), hid.symm.trans hk⟩,
        clientId, hk ▸ hre⟩
    · exact hstill k (by rw [hmoved.find?, if_neg hk])

theorem mem_recoveredByWorkItem {t : WorkItemTransitionResult} :
    ∀ {transitions kept : List WorkItemTransitionResult},
      t ∈ transitions.foldl (fun kept t => kept.filter (fun u => u.workItem.1.workItemId ≠
        t.workItem.1.workItemId) ++ [t]) kept → t ∈ kept ∨ t ∈ transitions := by
  intro transitions
  induction transitions with
  | nil => exact fun h => Or.inl h
  | cons x rest ih =>
    intro kept h
    rcases ih h with h | h
    · rcases List.mem_append.mp h with h | h
      · exact Or.inl (List.mem_filter.mp h).1
      · exact Or.inr (List.mem_cons.mpr (Or.inl (List.mem_singleton.mp h)))
    · exact Or.inr (List.mem_cons_of_mem _ h)

/-- The third loop of the scan. -/
theorem returns_reassignRecovered (hs : RowsOk (fun _ => True) s) {now : DateTime}
    {results : List ClientStaleRecoveryResult} {decisions : List SchedulerDecisionResult}
    (h : Returns (reassignRecovered now results) s decisions s') :
    OnlyItems s s' ∧ ∀ k, s'.workItems.find? k = s.workItems.find? k ∨
      (∃ r ∈ results, ∃ t ∈ r.recoveredWorkItems, t.workItem.1.workItemId = k) ∧
        ∃ clientId, Reassigned s' k clientId := by
  obtain ⟨made, s₁, hloop, hpure⟩ := returns_bind.mp h
  obtain ⟨-, hs₁⟩ := returns_pure.mp hpure
  subst hs₁
  have hdone := Program.returns_forEach (J := fun ran _ u => ItemsReassigned s u ran)
    (fun ran t rest made result u u' _ hJ hstep => itemsReassigned_step hJ
      (rowsOk_of_returns (anyRowsOk.scheduling.reassign now t) hJ.rows hstep) hstep)
    ⟨hs, ⟨rfl, rfl, rfl⟩, fun _ => Or.inl rfl⟩ hloop
  refine ⟨hdone.tables, fun k => (hdone.changed k).imp_right fun ⟨⟨t, ht, hid⟩, hre⟩ => ⟨?_, hre⟩⟩
  rcases mem_recoveredByWorkItem ((List.mem_insertionSort _).mp ht) with hnone | ht
  · exact absurd hnone List.not_mem_nil
  · obtain ⟨r, hr, ht⟩ := List.mem_flatMap.mp ht
    exact ⟨r, hr, t, ht, hid⟩

end Reassigning

/-! ## The scan -/

section Scan

variable {s s' : Store}

/-- The reassignments of the last phase change no other field of a result. -/
theorem mem_withReassigned {results : List ClientStaleRecoveryResult}
    {reassigned : List SchedulerDecisionResult} {r : ClientStaleRecoveryResult}
    (h : r ∈ withReassigned results reassigned) : ∃ x ∈ results,
      r.snapshot = x.snapshot ∧ r.recoveredWorkItems = x.recoveredWorkItems := by
  unfold withReassigned at h
  split at h
  · rename_i first rest
    rcases List.mem_cons.mp h with rfl | h
    · exact ⟨first, List.mem_cons_self .., rfl, rfl⟩
    · exact ⟨r, List.mem_cons_of_mem _ h, rfl, rfl⟩
  · exact ⟨r, h, rfl, rfl⟩

/-- The other way round: every result is among those that are returned. -/
theorem exists_withReassigned {results : List ClientStaleRecoveryResult}
    (reassigned : List SchedulerDecisionResult) {x : ClientStaleRecoveryResult} (h : x ∈ results) :
    ∃ r ∈ withReassigned results reassigned, r.clientId = x.clientId := by
  unfold withReassigned
  split
  · rename_i first rest
    rcases List.mem_cons.mp h with rfl | h
    · exact ⟨_, List.mem_cons_self .., rfl⟩
    · exact ⟨x, List.mem_cons_of_mem _ h, rfl⟩
  · exact ⟨x, h, rfl⟩

theorem ClientsMarked.staleRecovery {results : List ClientStaleRecoveryResult} (auto : Bool)
    (h : ClientsMarked s s' results) : StaleRecovery s s' auto results where
  stale := h.stale
  noActiveLease := h.noActiveLease
  lostLeases := h.lostLeases
  noAbandonedWork := h.settled
  recovered r hr t ht := Or.inl (h.reported r hr t ht).1
  otherLeases l hl hne := (h.otherLeases l hne).mpr hl
  otherItems := h.otherItems

/-- The third loop undoes nothing of what the second one did. -/
theorem ClientsMarked.reassigned {t : Store} {results : List ClientStaleRecoveryResult}
    {reassigned : List SchedulerDecisionResult} (h : ClientsMarked s t results)
    (htables : OnlyItems t s') (hchanged : ∀ k, s'.workItems.find? k = t.workItems.find? k ∨
      (∃ r ∈ results, ∃ x ∈ r.recoveredWorkItems, x.workItem.1.workItemId = k) ∧
        ∃ clientId, Reassigned s' k clientId) :
    StaleRecovery s s' true (withReassigned results reassigned) := by
  have hstale (x : ClientStaleRecoveryResult) (hx : x ∈ results) :
      s'.runtimeStatus x.clientId = some .stale := by
    rw [Store.runtimeStatus, htables.heartbeats]
    exact h.stale x hx
  -- a marked client is not active, so it is nobody's new owner
  have howner (x : ClientStaleRecoveryResult) (hx : x ∈ results) {id clientId : String}
      (hre : Reassigned s' id clientId) : clientId ≠ x.clientId := by
    rintro rfl
    obtain ⟨item, m, -, -, -, hactive, -⟩ := hre
    cases (hstale x hx).symm.trans hactive
  constructor
  case stale =>
    intro r hr
    obtain ⟨x, hx, hsnapshot, -⟩ := mem_withReassigned hr
    rw [ClientStaleRecoveryResult.clientId, hsnapshot]
    exact hstale x hx
  case noActiveLease =>
    intro r hr l hl hclient
    obtain ⟨x, hx, hsnapshot, -⟩ := mem_withReassigned hr
    rw [htables.leases] at hl
    rw [ClientStaleRecoveryResult.clientId, hsnapshot] at hclient
    exact h.noActiveLease x hx l hl hclient
  case lostLeases =>
    intro r hr
    obtain ⟨x, hx, hsnapshot, -⟩ := mem_withReassigned hr
    rw [ClientStaleRecoveryResult.clientId, hsnapshot]
    exact h.lostLeases x hx
  case noAbandonedWork =>
    intro r hr row hrow hassigned
    obtain ⟨x, hx, hsnapshot, -⟩ := mem_withReassigned hr
    rw [ClientStaleRecoveryResult.clientId, hsnapshot] at hassigned
    rcases hchanged row.workItemId with hsame | ⟨-, clientId, hre⟩
    · rw [Table.mem_rows_iff, hsame, ← Table.mem_rows_iff] at hrow
      exact h.settled x hx row hrow hassigned
    · obtain ⟨item, m, hfind, -, howned, -⟩ := id hre
      rw [Table.mem_rows_iff, hfind] at hrow
      cases hrow
      exact absurd (Option.some.inj (howned.symm.trans hassigned)) (howner x hx hre)
  case recovered =>
    intro r hr t ht
    obtain ⟨x, hx, hsnapshot, hrecovered⟩ := mem_withReassigned hr
    rw [hrecovered] at ht
    rcases hchanged t.workItem.1.workItemId with hsame | ⟨-, clientId, hre⟩
    · exact Or.inl ((h.reported x hx t ht).1.of_find? hsame)
    · refine Or.inr ⟨rfl, clientId, ?_, hre⟩
      rw [ClientStaleRecoveryResult.clientId, hsnapshot]
      exact howner x hx hre
  case otherLeases =>
    intro l hl hne
    rw [htables.leases]
    refine (h.otherLeases l fun x hx => ?_).mpr hl
    obtain ⟨r, hr, hid⟩ := exists_withReassigned reassigned hx
    exact hid ▸ hne r hr
  case otherItems =>
    intro row hrow hne
    have hmarked : ∀ x ∈ results, row.assignedClientId ≠ some x.clientId := fun x hx => by
      obtain ⟨r, hr, hid⟩ := exists_withReassigned reassigned hx
      exact hid ▸ hne r hr
    have ht := h.otherItems row hrow hmarked
    rcases hchanged row.workItemId with hsame | ⟨⟨x, hx, p, hp, hid⟩, -⟩
    · rw [Table.mem_rows_iff, hsame]
      exact Table.mem_rows_iff.mp ht
    · obtain ⟨-, row', hrow', hassigned⟩ := h.reported x hx p hp
      rw [hid, Table.mem_rows_iff.mp hrow] at hrow'
      exact absurd hassigned (Option.some.inj hrow' ▸ hmarked x hx)

/-- A stale scan that returns leaves nothing behind of the clients it marked, and touches nothing
    of the others; whatever the reference time and the threshold were. -/
theorem stale_recovery {reference : DateTime} {seconds : Int} {auto : Bool} {now : DateTime}
    {results : List ClientStaleRecoveryResult} (hs : Reachable s)
    (h : Returns (markStaleClientsWithRecovery reference seconds auto now) s results s') :
    StaleRecovery s s' auto results := by
  have hrows := hs.rowsOk
  obtain ⟨statuses, s₁, hlist, htail⟩ := returns_bind.mp h
  obtain ⟨hstatuses, hs₁⟩ := returns_listClientStatuses.mp hlist
  obtain ⟨stale, s₂, hpick, htail₂⟩ := returns_bind.mp htail
  obtain ⟨hstale, hs₂⟩ := returns_done.mp hpick
  subst hs₁ hs₂
  obtain ⟨marked, s₃, hmark, htail₃⟩ := returns_bind.mp htail₂
  have hmarked := returns_markClients hrows (staleClients_nodup hrows hstatuses hstale) hmark
  cases auto with
  | false =>
    obtain ⟨hresults, hs₃⟩ := returns_pure.mp htail₃
    subst hresults hs₃
    exact hmarked.staleRecovery false
  | true =>
    obtain ⟨reassigned, s₄, hreassign, hpure⟩ := returns_bind.mp htail₃
    obtain ⟨hresults, hs₄⟩ := returns_pure.mp hpure
    obtain ⟨htables, hchanged⟩ := returns_reassignRecovered hmarked.rows hreassign
    subst hresults hs₄
    exact hmarked.reassigned htables hchanged

end Scan

/-! ## A small scan -/

/-- Two minutes after the epoch. -/
def twoMinutes : DateTime := ⟨120000000, some 0⟩

def sampleHeartbeat : Checked ClientHeartbeat :=
  ⟨{ clientId := "c1", actor := "ann", role := "builder", observedAt := epoch }, rfl, by decide⟩

/-- A client reports once, takes a lease, and is assigned a work item. -/
def silentClient : List (Request × DateTime) := [
  (.register ⟨sampleManifest, sampleManifest_valid⟩, epoch),
  (.heartbeat sampleHeartbeat, epoch),
  (.acquire sampleAcquire, epoch),
  (.createWorkItem ⟨sampleItem, sampleItem_valid⟩ sampleCaller none, epoch),
  (.transition (.assign "w1" sampleCaller "c1" none none), epoch)]

/-- The store that these requests leave when each runs to its end. -/
def silentStore : Store :=
  ((poolOf sampleOutside Store.empty silentClient).exec
    ((List.range 5).flatMap (List.replicate 6))).state

theorem silentStore_reachable : Reachable silentStore :=
  ⟨sampleOutside, Table.empty, silentClient, _, rfl⟩

/-- The silent client is the one that the scan marks. -/
theorem stale_recovery_silent : ∃ results s',
    Returns (markStaleClientsWithRecovery twoMinutes 60 true twoMinutes) silentStore results s' ∧
      StaleRecovery silentStore s' true results ∧
      results.map ClientStaleRecoveryResult.clientId = ["c1"] := by
  have hmarked : ((markStaleClientsWithRecovery twoMinutes 60 true twoMinutes).run
      silentStore).1.toOption.map (List.map ClientStaleRecoveryResult.clientId) = some ["c1"] := by
    decide +kernel
  rcases hrun : (markStaleClientsWithRecovery twoMinutes 60 true twoMinutes).run silentStore
    with ⟨e | results, s'⟩
  · rw [hrun] at hmarked
    cases hmarked
  · rw [hrun] at hmarked
    exact ⟨results, s', hrun, stale_recovery silentStore_reachable hrun, Option.some.inj hmarked⟩

end Vad
