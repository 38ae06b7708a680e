/-
  Leases on the task board.

  A task with a lease and no work item has a card.  If the rows of the dashboard have one for the
  task, the card has the status of that row, for every status of an event stands for a column and
  the lease's is only a fallback.

  1. **Rows** (`lastRow_of_snapshot`) — the row of a task is that of its last event in the ledger;
     without any event about a task the rows are those of the activity, and without a ledger those
     of the stored activity (`Store.shownStatus`).

  2. **The result** (`leasesShown_iff`) — so the board shows the leases as they are exactly where
     these agree with them.  A denied acquire appends an event that does not (`denied_shows_blocked`),
     and a stale scan ends leases without one.
-/
import Vad.ControlPlane.ProjectionOrder
import Vad.Server.TaskBoard

namespace Vad

open Keyed (Table)
open Atomic (Program)
open Atomic.Program (Returns run_bind run_map returns_bind returns_pure)

/-! ## The row of a task -/

section Rows

variable {rows : List DashboardRow} {taskId : String}

/-- The only row with the key is the last one. -/
theorem lastRow_eq_some {row : DashboardRow} (hrow : row ∈ rows) (hkey : row.key = taskId)
    (hone : ∀ other ∈ rows, other.key = taskId → other = row) : lastRow rows taskId = some row := by
  cases hlast : lastRow rows taskId with
  | none =>
    have hin : row ∈ rows.filter fun row => row.key = taskId :=
      List.mem_filter.mpr ⟨hrow, by simpa using hkey⟩
    rw [List.getLast?_eq_none_iff.mp hlast] at hin
    exact absurd hin List.not_mem_nil
  | some last =>
    obtain ⟨hin, hlastKey⟩ := List.mem_filter.mp (List.mem_of_getLast? hlast)
    rw [hone last hin (by simpa using hlastKey)]

theorem lastRow_eq_none (h : ∀ row ∈ rows, row.key ≠ taskId) : lastRow rows taskId = none := by
  refine List.getLast?_eq_none_iff.mpr (List.filter_eq_nil_iff.mpr fun row hrow => ?_)
  simpa using h row hrow

/-- Rows of other tasks that follow change nothing. -/
theorem lastRow_append {more : List DashboardRow} (h : ∀ row ∈ more, row.key ≠ taskId) :
    lastRow (rows ++ more) taskId = lastRow rows taskId := by
  have hnone : more.filter (fun row => row.key = taskId) = [] :=
    List.filter_eq_nil_iff.mpr fun row hrow => by simpa using h row hrow
  unfold lastRow
  rw [List.filter_append, hnone, List.append_nil]

end Rows

/-! ## What the ledger says of a task -/

/-- The stored activity in the order in which it is listed. -/
def Store.activityRows (s : Store) : List DashboardRow :=
  (s.dashboardActivity.select (fun _ => true) streamOrder).map fun r => r.payload.row

/-- Is the event about a task? -/
def ControlPlaneEvent.hasTask (e : ControlPlaneEvent) : Bool := orDefault e.taskId "" ≠ ""

/-- The status that the ledger gave the task last: in an event about it; if no event is about any
    task, in an event whose id is that of the task; and without a ledger, in the stored activity. -/
def Store.shownStatus (s : Store) (taskId : String) : Option String :=
  let ordered := orderedEvents s.listedEvents
  if ordered = [] then (lastRow s.activityRows taskId).map fun row => row.status.getD "active"
  else if ordered.any ControlPlaneEvent.hasTask then
    (lastEvent ordered taskId).map fun e => e.status.value
  else ((ordered.filter fun e => eventIdText e = taskId).getLast?).map fun e => e.status.value

section Snapshot

variable {events : List ControlPlaneEvent} {now : DateTime} {taskId : String}

/-- The row of an event in the activity is filed under the id of the event if it has no task. -/
theorem key_activityEntry {e : ControlPlaneEvent} (h : e.hasTask = false) :
    (activityEntry e).row.key = eventIdText e := by
  have hempty : orDefault e.taskId "" = "" := by
    unfold ControlPlaneEvent.hasTask at h
    simpa using h
  unfold DashboardRow.key textOr
  show orDefault (if orDefault e.taskId "" = "" then some (eventIdText e) else e.taskId) "" = _
  rw [if_pos hempty]
  show (if eventIdText e = "" then "" else eventIdText e) = eventIdText e
  split
  · rename_i hnone
    exact hnone.symm
  · rfl

/-- The board has rows exactly if some event is about a task. -/
theorem taskBoard_eq_nil_iff : (buildDashboardProjection events now 120).taskBoard = [] ↔
    (orderedEvents events).any ControlPlaneEvent.hasTask = false := by
  have h := projection_showsAll events now 120
  rw [List.any_eq_false]
  constructor
  · intro hnil e he hhas
    -- such an event's task has a last event, and that a row
    obtain ⟨taskId, htask, hne⟩ : ∃ taskId, e.taskId = some taskId ∧ taskId ≠ "" := by
      unfold ControlPlaneEvent.hasTask at hhas
      cases htask : e.taskId with
      | none => rw [htask] at hhas; exact absurd hhas (by decide)
      | some taskId =>
        rw [htask] at hhas
        refine ⟨taskId, rfl, fun hempty => ?_⟩
        rw [hempty] at hhas
        exact absurd hhas (by decide)
    have hin : e ∈ (orderedEvents events).filter fun e => e.taskId = some taskId :=
      List.mem_filter.mpr ⟨he, by simpa using htask⟩
    cases hlast : lastEvent (orderedEvents events) taskId with
    | none =>
      rw [List.getLast?_eq_none_iff.mp hlast] at hin
      exact absurd hin List.not_mem_nil
    | some last =>
      have hrow := (h.board (taskBoardEntry taskId last)).mpr ⟨hne, last, hlast, rfl⟩
      rw [hnil] at hrow
      exact absurd hrow List.not_mem_nil
  · intro hnone
    refine List.eq_nil_iff_forall_not_mem.mpr fun row hrow => ?_
    obtain ⟨hne, e, hlast, -⟩ := (h.board row).mp hrow
    obtain ⟨hin, htask⟩ := List.mem_filter.mp (List.mem_of_getLast? hlast)
    have htask : e.taskId = some row.taskId := by simpa using htask
    refine hnone e hin ?_
    unfold ControlPlaneEvent.hasTask
    rw [htask]
    show decide ((if row.taskId = "" then "" else row.taskId) ≠ "") = true
    rw [if_neg hne]
    exact decide_eq_true hne

/-- The row of a task on the board is that of its last event. -/
theorem lastRow_taskBoard (hne : taskId ≠ "") :
    lastRow ((buildDashboardProjection events now 120).taskBoard.map TaskBoardEntry.row) taskId =
      (lastEvent (orderedEvents events) taskId).map fun e => (taskBoardEntry taskId e).row := by
  have h := projection_showsAll events now 120
  have hkeyed : ∀ entry ∈ (buildDashboardProjection events now 120).taskBoard,
      entry.row.key = taskId → ∃ e, lastEvent (orderedEvents events) taskId = some e ∧
        entry = taskBoardEntry taskId e := by
    intro entry hentry hkey
    obtain ⟨hentryNe, e, hlast, heq⟩ := (h.board entry).mp hentry
    have htask : entry.taskId = taskId := (key_of_taskId rfl hentryNe).symm.trans hkey
    rw [htask] at hlast heq
    exact ⟨e, hlast, heq⟩
  cases hlast : lastEvent (orderedEvents events) taskId with
  | none =>
    refine lastRow_eq_none fun row hrow hkey => ?_
    obtain ⟨entry, hentry, rfl⟩ := List.mem_map.mp hrow
    obtain ⟨e, he, -⟩ := hkeyed entry hentry hkey
    rw [hlast] at he
    cases he
  | some e =>
    refine lastRow_eq_some ?_ (key_of_taskId rfl hne) fun row hrow hkey => ?_
    · exact List.mem_map_of_mem ((h.board (taskBoardEntry taskId e)).mpr ⟨hne, e, hlast, rfl⟩)
    · obtain ⟨entry, hentry, rfl⟩ := List.mem_map.mp hrow
      obtain ⟨e', he', rfl⟩ := hkeyed entry hentry hkey
      rw [hlast] at he'
      cases he'
      rfl

/-- The row of a task in the snapshot of a ledger. -/
theorem lastRow_of_projection (hne : taskId ≠ "") (runs : List RunSummary) :
    (lastRow ((buildDashboardProjection events now 120).payload runs).taskRows taskId).map
      (fun row => row.status.getD "active") =
      if (orderedEvents events).any ControlPlaneEvent.hasTask then
        (lastEvent (orderedEvents events) taskId).map fun e => e.status.value
      else ((orderedEvents events).filter fun e => eventIdText e = taskId).getLast?.map
        fun e => e.status.value := by
  unfold DashboardPayload.taskRows
  show (lastRow (if (buildDashboardProjection events now 120).taskBoard.map TaskBoardEntry.row = []
    then (buildDashboardProjection events now 120).activity.map ActivityEntry.row
    else (buildDashboardProjection events now 120).taskBoard.map TaskBoardEntry.row) taskId).map _ = _
  have hempty : (buildDashboardProjection events now 120).taskBoard.map TaskBoardEntry.row = [] ↔
      (orderedEvents events).any ControlPlaneEvent.hasTask = false :=
    List.map_eq_nil_iff.trans taskBoard_eq_nil_iff
  cases hany : (orderedEvents events).any ControlPlaneEvent.hasTask with
  | true =>
    rw [if_neg (fun hnil => by rw [hempty.mp hnil] at hany; cases hany), if_pos rfl,
      lastRow_taskBoard hne, Option.map_map]
    rfl
  | false =>
    rw [if_pos (hempty.mpr hany), if_neg (by simp),
      (projection_showsAll events now 120).activity, List.map_map]
    unfold lastRow
    rw [List.filter_map, List.getLast?_map, Option.map_map]
    have hfilter : (orderedEvents events).filter
        ((fun row : DashboardRow => decide (row.key = taskId)) ∘
          (ActivityEntry.row ∘ activityEntry)) =
        (orderedEvents events).filter fun e => eventIdText e = taskId := by
      refine List.filter_congr fun e he => ?_
      have hnone : e.hasTask = false := by
        simpa using (List.any_eq_false.mp hany) e he
      show decide ((activityEntry e).row.key = taskId) = _
      rw [key_activityEntry hnone]
    rw [hfilter]
    rfl

end Snapshot

/-! ## The rows of the dashboard -/

section Response

variable {s s' : Store} {taskId : String} {computeHash : RunEvidence → String} {now : DateTime}

/-- No row of a projection or of the activity names a lease. -/
def NoLeaseNamed (rows : List DashboardRow) : Prop := ∀ row ∈ rows, row.leaseId = none

theorem noLeaseNamed_projection (p : DashboardProjection) (runs : List RunSummary) :
    NoLeaseNamed (p.payload runs).taskRows := by
  intro row hrow
  unfold DashboardPayload.taskRows at hrow
  split at hrow
  · obtain ⟨entry, -, rfl⟩ := List.mem_map.mp hrow
    rfl
  · obtain ⟨entry, -, rfl⟩ := List.mem_map.mp hrow
    rfl

/-- The rows of tasks that the dashboard starts from. -/
theorem lastRow_of_snapshot {p : DashboardPayload} (hne : taskId ≠ "")
    (h : Returns (dashboardPayload computeHash now) s p s') :
    ((lastRow p.taskRows taskId).map fun row => row.status.getD "active") = s.shownStatus taskId ∧
      NoLeaseNamed p.taskRows ∧ s' = s := by
  obtain ⟨hasEvents, t, hhas, hsnapshot⟩ := returns_bind.mp h
  obtain ⟨hhas, rfl⟩ := returns_query.mp (returns_storeCall.mp hhas)
  have hhas : hasEvents = !t.controlPlaneEvents.rows.isEmpty := (Except.ok.inj hhas).symm
  have hlength : (orderedEvents t.listedEvents).length = t.controlPlaneEvents.rows.length := by
    rw [(orderedEvents_perm t.listedEvents).length_eq]
    unfold Store.listedEvents
    rw [List.length_map, (Table.select_perm _ _ _).length_eq, List.filter_eq_self.mpr fun _ _ => rfl]
    rfl
  cases hasEvents with
  | true =>
    obtain ⟨events, u, hevents, hrest⟩ := returns_bind.mp hsnapshot
    obtain ⟨hfetched, rfl⟩ := returns_listControlPlaneEvents.mp hevents
    obtain ⟨runs, v, hruns, hpayload⟩ := returns_bind.mp hrest
    obtain rfl := unchanged_of_listRunEvidence hruns
    obtain ⟨rfl, rfl⟩ := returns_pure.mp hpayload
    have hvals : events.map Subtype.val = s'.listedEvents := vals_of_fetchedAll (fun _ => rfl) hfetched
    have hsome : orderedEvents s'.listedEvents ≠ [] := by
      intro hnil
      rw [hnil] at hlength
      rw [List.eq_nil_of_length_eq_zero hlength.symm] at hhas
      cases hhas
    refine ⟨?_, noLeaseNamed_projection _ _, rfl⟩
    rw [hvals, lastRow_of_projection hne]
    unfold Store.shownStatus
    simp only
    rw [if_neg hsome]
  | false =>
    obtain ⟨runs, u, hruns, hrest⟩ := returns_bind.mp hsnapshot
    obtain rfl := unchanged_of_listRunEvidence hruns
    obtain ⟨activities, v, hactivities, hpayload⟩ := returns_bind.mp hrest
    obtain ⟨hfetched, rfl⟩ := returns_query.mp (returns_storeCall.mp hactivities)
    obtain ⟨rfl, rfl⟩ := returns_pure.mp hpayload
    have hvals := vals_of_fetchedAll (fun _ => rfl) hfetched
    have hrows : activities.map (fun a => a.1.row) = s'.activityRows := by
      calc activities.map (fun a => a.1.row)
          = (activities.map Subtype.val).map DashboardActivity.row := by rw [List.map_map]; rfl
        _ = s'.activityRows := by
          rw [hvals, List.map_map]
          rfl
    have hempty : orderedEvents s'.listedEvents = [] := by
      have hnil : s'.controlPlaneEvents.rows.isEmpty = true := by
        cases hrows : s'.controlPlaneEvents.rows.isEmpty with
        | true => rfl
        | false =>
          rw [hrows] at hhas
          cases hhas
      refine List.eq_nil_of_length_eq_zero (hlength.trans ?_)
      rw [List.isEmpty_iff.mp hnil]
      rfl
    refine ⟨?_, fun row hrow => ?_, rfl⟩
    · show (lastRow (activities.map fun a => a.1.row) taskId).map _ = _
      rw [hrows]
      unfold Store.shownStatus
      simp only
      rw [if_pos hempty]
    · obtain ⟨a, -, rfl⟩ := List.mem_map.mp hrow
      rfl

/-! ## The card of a lease -/

/-- Where the board shows the leases of tasks without a work item. -/
def LeasesShown (s : Store) (columns : BoardColumn → List BoardCard) : Prop :=
  ∀ taskId lease, s.leaseOf taskId = some lease → s.workItems.has taskId = false →
    InColumn columns (leaseBoardStatus lease.status.value) taskId

/-- What the ledger says of such a task last, if anything, stands for the column of the lease. -/
def LedgerShowsLeases (s : Store) : Prop :=
  ∀ taskId lease, s.leaseOf taskId = some lease → s.workItems.has taskId = false →
    ∀ status, s.shownStatus taskId = some status →
      boardStatus (some status) (leaseBoardStatus lease.status.value) =
        leaseBoardStatus lease.status.value

/-- The lease found for a task. -/
theorem get_leasesByTask (hs : RowsOk (fun _ => True) s) {lease : TaskLease}
    (h : s.leaseOf taskId = some lease) :
    Dict.get (leasesByTask s.leasePayloads) taskId = some (leasePayload lease) := by
  obtain ⟨hfind, htask, -⟩ := find?_of_leaseOf hs h
  have hmem : leasePayload lease ∈ s.leasePayloads :=
    List.mem_map.mpr ⟨leaseRow lease, Table.mem_select.mpr ⟨Table.mem_of_find? hfind, rfl⟩, rfl⟩
  have hsome : (Dict.get (leasesByTask s.leasePayloads) taskId).isSome = true := by
    rw [← htask]
    exact @Dict.isSome_get_ofValues _ LeasePayload.taskId _ _ hmem
  obtain ⟨found, hfound⟩ := Option.isSome_iff_exists.mp hsome
  obtain ⟨hin, hkey⟩ := Dict.of_get_ofValues hfound
  obtain ⟨r, hr, rfl⟩ := List.mem_map.mp hin
  have hr := (Table.mem_select.mp hr).1
  have hid : r.taskId = taskId := by
    rw [(hs.leases r hr).1]
    exact hkey
  have hsame : s.taskLeases.find? taskId = some r := by
    rw [← hid]
    exact Table.mem_rows_iff.mp hr
  rw [hfind] at hsame
  rw [hfound, ← Option.some.inj hsame]
  rfl

/-- The status of the card of such a task. -/
theorem status_of_leaseCard (hs : RowsOk (fun _ => True) s) {rows : List DashboardRow}
    {lease : TaskLease} (h : s.leaseOf taskId = some lease) :
    ∃ card, cardOf s.leasePayloads rows taskId = some card ∧
      card.status = some (match (lastRow rows taskId).map
          fun row : DashboardRow => row.status.getD "active" with
        | none => leaseBoardStatus lease.status.value
        | some status => boardStatus (some status) (leaseBoardStatus lease.status.value)).value ∧
      (NoLeaseNamed rows → card.leaseId = none) := by
  unfold cardOf
  rw [get_leasesByTask hs h]
  refine ⟨_, rfl, ?_, fun hrows => ?_⟩
  · cases lastRow rows taskId with
    | none => exact congrArg some (congrArg BoardColumn.value (boardStatus_value _ _))
    | some row => rfl
  · cases hlast : lastRow rows taskId with
    | none => rfl
    | some row =>
      exact hrows row (List.mem_filter.mp (List.mem_of_getLast? hlast)).1

theorem taskId_ne {lease : TaskLease} (h : GoodLease (fun _ => True) lease) : lease.taskId ≠ "" := by
  have hid := failedFields_eq_nil.mp h.1.2 ("task_id", safeIdentifier 1 160 lease.taskId)
    (by simp [Model.checks])
  intro hempty
  rw [hempty] at hid
  revert hid
  decide

/-- Whenever the dashboard of a reachable store is returned: every lease without a work item is in
    its column exactly where the ledger agrees with it. -/
theorem leasesShown_iff {s : Store} (hs : Reachable s) {d : Dashboard} {s' : Store}
    (h : Returns (dashboardResponse computeHash now) s d s') :
    LeasesShown s d.taskBoardColumns ↔ LedgerShowsLeases s := by
  obtain ⟨payload, t, hpayload, hdecorated⟩ := returns_bind.mp h
  have hkept : t = s := (lastRow_of_snapshot (show "task" ≠ "" by decide) hpayload).2.2
  rw [hkept] at hpayload hdecorated
  obtain ⟨-, hcolumns, hvalid, -⟩ := board_of_decorated hdecorated
  rw [hcolumns]
  refine forall_congr' fun taskId => forall_congr' fun lease => forall_congr' fun hlease =>
    forall_congr' fun hnone => ?_
  obtain ⟨hfind, htask, hgood⟩ := find?_of_leaseOf hs.rowsOk hlease
  have hne : taskId ≠ "" := htask ▸ taskId_ne hgood
  obtain ⟨hshown, hunnamed, -⟩ := lastRow_of_snapshot hne hpayload
  -- no work item's row is in the way
  have hitems : ∀ row ∈ s.workItemRows, row.key ≠ taskId := by
    intro row hrow hkey
    obtain ⟨r, hr, rfl⟩ := List.mem_map.mp hrow
    have hr := (Table.mem_select.mp hr).1
    have hid : r.workItemId = taskId := by
      rw [← (hs.rowsOk.items r hr).id, ← hkey]
      exact (key_of_taskId rfl (workItemId_ne (hvalid r hr))).symm
    have hhas : s.workItems.has taskId = true := Table.has_iff.mpr ⟨r, hid ▸ Table.mem_rows_iff.mp hr⟩
    rw [hnone] at hhas
    cases hhas
  obtain ⟨card, hcard, hstatus, hfree⟩ := @status_of_leaseCard _ _ hs.rowsOk
    (payload.taskRows ++ s.workItemRows) _ hlease
  obtain ⟨hmem, hid⟩ := mem_boardCards hne hcard
  rw [lastRow_append hitems, hshown] at hstatus
  have hcolumn := inColumn_iff hmem (leaseBoardStatus lease.status.value)
  rw [heldBy_taskId, hid, status_heldBy hstatus, boardStatus_value] at hcolumn
  rw [hcolumn]
  cases s.shownStatus taskId with
  | none => simp
  | some status => simp

end Response

/-! ## A denied acquire -/

/-- A client acquires a task, and asks for it once more. -/
def acquiring : List (Request × DateTime) := [
  (.register ⟨sampleManifest, sampleManifest_valid⟩, epoch),
  (.acquire sampleAcquire, epoch),
  (.acquire sampleAcquire, epoch)]

/-- The store that the first of these requests leave when each runs to its end. -/
def acquiringStore (n : Nat) : Store :=
  ((poolOf sampleOutside Store.empty (acquiring.take n)).exec
    ((List.range n).flatMap (List.replicate 6))).state

theorem acquiringStore_reachable (n : Nat) : Reachable (acquiringStore n) :=
  ⟨sampleOutside, Table.empty, acquiring.take n, _, rfl⟩

/-- The dashboard of such a store is returned. -/
theorem exists_dashboard {n : Nat} (h : ((dashboardResponse (fun _ => "") epoch).run
      (acquiringStore n)).1.toOption.isSome = true) : ∃ d s',
    Returns (dashboardResponse (fun _ => "") epoch) (acquiringStore n) d s' := by
  generalize hrun : (dashboardResponse (fun _ => "") epoch).run (acquiringStore n) = out at h
  obtain ⟨result, s'⟩ := out
  cases result with
  | error e => cases h
  | ok d => exact ⟨d, s', hrun⟩

/-- After the denial, the task with the active lease is shown as blocked. -/
theorem denied_shows_blocked : Reachable (acquiringStore 3) ∧ ∃ d s',
    Returns (dashboardResponse (fun _ => "") epoch) (acquiringStore 3) d s' ∧
      ¬ LeasesShown (acquiringStore 3) d.taskBoardColumns := by
  refine ⟨acquiringStore_reachable 3, ?_⟩
  have hactive : ((acquiringStore 3).leaseOf "t1").map TaskLease.status = some .active := by
    decide
  have hnone : (acquiringStore 3).workItems.has "t1" = false := by decide
  have hcolumn : ((dashboardResponse (fun _ => "") epoch).run (acquiringStore 3)).1.toOption.map
      (fun d => (d.taskBoardColumns .active).any fun card => card.taskId = "t1") = some false := by
    decide
  obtain ⟨d, s', hret⟩ := exists_dashboard (n := 3) (by decide)
  refine ⟨d, s', hret, fun h => ?_⟩
  obtain ⟨lease, hlease, hstatus⟩ := Option.map_eq_some_iff.mp hactive
  obtain ⟨card, hcard, htask⟩ := h "t1" lease hlease hnone
  rw [hstatus] at hcard
  rw [show (dashboardResponse (fun _ => "") epoch).run (acquiringStore 3) = (.ok d, s') from hret]
    at hcolumn
  have hany : (d.taskBoardColumns .active).any (fun card => card.taskId = "t1") = false :=
    Option.some.inj hcolumn
  exact List.any_eq_false.mp hany card hcard (by simpa using htask)

/-- Before it, the lease is shown. -/
theorem leasesShown_iff_acquired : ∃ d s',
    Returns (dashboardResponse (fun _ => "") epoch) (acquiringStore 2) d s' ∧
      LeasesShown (acquiringStore 2) d.taskBoardColumns := by
  obtain ⟨d, s', hret⟩ := exists_dashboard (n := 2) (by decide)
  refine ⟨d, s', hret, (leasesShown_iff (acquiringStore_reachable 2) hret).mpr ?_⟩
  intro taskId lease hlease _ status hstatus
  have hleases : (acquiringStore 2).taskLeases.rows.all (fun r =>
      r.taskId = "t1" && r.payload.status = .active) = true := by decide
  have hshown : (acquiringStore 2).shownStatus "t1" = some "active" := by decide
  obtain ⟨row, hrow, rfl⟩ := Option.map_eq_some_iff.mp hlease
  have hin := List.all_eq_true.mp hleases row (Table.mem_of_find? hrow)
  rw [Bool.and_eq_true, decide_eq_true_eq, decide_eq_true_eq] at hin
  rw [← Table.key_of_find? hrow, hin.1, hshown] at hstatus
  rw [hin.2, ← Option.some.inj hstatus]
  rfl

end Vad
