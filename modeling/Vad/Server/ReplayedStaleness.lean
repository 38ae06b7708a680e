/-
  Stale clients, in the registry and in the replay of the ledger.

  The registry keeps one row for each client: the status and the time of its last heartbeat, or
  that a scan has marked it since.  The replay sees the events of the client: each heartbeat as an
  active event with the time of the heartbeat, and each mark of a scan as a stale event.

  1. **Invariant** (`Replayed`) — over registrations, heartbeats and scans, raising or not: every
     row has the event of its last heartbeat in the ledger; a row that says stale has a stale event,
     or its client's last heartbeat said so; and events are labelled with the names of the clients.
  2. **Scan** (`replayed_scan`) — after a scan whoever was overdue has a stale event.  The watched
     times are those of before, so whoever is overdue after the scan was overdue in it.
  3. **Result** (`replay_staleness`) — after a scan the replay lists a client when some scan has
     marked it, or when it is disconnected and its events are old.  A heartbeat does not undo a
     mark: a client that has come back is listed still (`recovered_still_listed`).
-/
import Vad.ControlPlane.Projection
import Vad.Server.RepeatedScan
import Vad.Server.Runs

namespace Vad

open Keyed (Table)
open Atomic (Program)
open Atomic.Program (Returns run_bind run_map returns_bind returns_pure)

/-! ## The ledger and the rows -/

/-- The events of the ledger, in the order in which they were appended. -/
def Store.ledgerEvents (s : Store) : List ControlPlaneEvent := s.ledger.map EventRow.payload

/-- The ledger has a stale event of the client. -/
def SaidStale (s : Store) (clientId : String) : Prop :=
  ∃ e ∈ s.ledgerEvents, e.clientId = clientId ∧ e.status = .stale

/-- A heartbeat row of a registered client, as the ledger knows it; `report` is the status that the
    client's last heartbeat reported. -/
structure BeatReplayed (s : Store) (report : Option ClientRuntimeStatus) (beat : HeartbeatRow) :
    Prop where
  registered : ∃ m, s.clientManifests.find? beat.clientId = some m
  time : ∃ t, beat.lastHeartbeatAt = some t ∧ t.Representable ∧
    ∃ e ∈ s.ledgerEvents, e.clientId = beat.clientId ∧ e.createdAt = t
  stale : beat.status = .stale → SaidStale s beat.clientId ∨ report = some .stale

/-- What registrations, heartbeats and scans keep. -/
structure Replayed (report : String → Option ClientRuntimeStatus) (s : Store) : Prop where
  rows : RowsOk (fun _ => True) s
  beats : BeatsOk s
  noItems : s.workItems.rows = []
  noLeases : s.taskLeases.rows = []
  beat : ∀ beat ∈ s.clientHeartbeats.rows, BeatReplayed s (report beat.clientId) beat
  label : ∀ e ∈ s.ledgerEvents, ∃ m, s.clientManifests.find? e.clientId = some m ∧
    e.clientLabel = some m.payload.displayName

/-- The heartbeat row written. -/
def Store.putBeat (s : Store) (beat : HeartbeatRow) : Store :=
  { s with clientHeartbeats := s.clientHeartbeats.upsert beat }

section Steps

variable {s : Store} {report report' : String → Option ClientRuntimeStatus}

@[simp] theorem ledgerEvents_putEvent (s : Store) (e : EventFields) :
    (s.putEvent e).ledgerEvents = s.ledgerEvents ++
      [⟨e, .generated s.controlPlaneEvents.drawn⟩] := by
  unfold Store.ledgerEvents Store.ledger
  rw [Store.putEvent_rows, List.map_append]
  rfl

theorem SaidStale.putEvent {clientId : String} (h : SaidStale s clientId) (e : EventFields) :
    SaidStale (s.putEvent e) clientId := by
  obtain ⟨x, hx, hx'⟩ := h
  exact ⟨x, by rw [ledgerEvents_putEvent]; exact List.mem_append_left _ hx, hx'⟩

theorem mem_ledgerEvents_putEvent (s : Store) (e : EventFields) :
    (⟨e, .generated s.controlPlaneEvents.drawn⟩ : ControlPlaneEvent) ∈
      (s.putEvent e).ledgerEvents := by
  rw [ledgerEvents_putEvent]
  exact List.mem_append_right _ (List.mem_singleton.mpr rfl)

/-- An event of a registered client is written. -/
theorem Replayed.putEvent (h : Replayed report s) {e : EventFields} {m : ManifestRow}
    (hm : s.clientManifests.find? e.clientId = some m)
    (hlabel : e.clientLabel = some m.payload.displayName) (hok : e.ok = true) :
    Replayed report (s.putEvent e) where
  rows := h.rows.putEvent hok
  beats := h.beats
  noItems := h.noItems
  noLeases := h.noLeases
  beat row hrow := by
    have hold := h.beat row hrow
    obtain ⟨t, ht, htime, x, hx, hx'⟩ := hold.time
    refine ⟨hold.registered, ⟨t, ht, htime, x, ?_, hx'⟩, fun hst => ?_⟩
    · rw [ledgerEvents_putEvent]
      exact List.mem_append_left _ hx
    · exact (hold.stale hst).imp_left fun hsaid => hsaid.putEvent e
  label x hx := by
    rw [ledgerEvents_putEvent, List.mem_append, List.mem_singleton] at hx
    rcases hx with hx | rfl
    · exact h.label x hx
    · exact ⟨m, hm, hlabel⟩

/-- The row of a client is written that the ledger knows about. -/
theorem Replayed.putBeat (h : Replayed report s) {beat : HeartbeatRow} (hbeat : BeatOk beat)
    (hknown : BeatReplayed s (report' beat.clientId) beat)
    (hreport : ∀ id, id ≠ beat.clientId → report' id = report id) :
    Replayed report' (s.putBeat beat) where
  rows := { h.rows with }
  beats := Table.forall_upsert h.beats hbeat
  noItems := h.noItems
  noLeases := h.noLeases
  beat row hrow := by
    have hfind : (s.clientHeartbeats.upsert beat).find? row.clientId = some row :=
      Table.mem_rows_iff.mp hrow
    rw [Table.find?_upsert] at hfind
    split at hfind
    · cases hfind
      exact { hknown with }
    · rename_i hother
      have hold := h.beat row (Table.mem_of_find? hfind)
      rw [hreport _ fun heq => hother heq.symm]
      exact { hold with }
  label := h.label

/-- A client is registered. -/
theorem Replayed.register (h : Replayed report s) {m : Checked ClientManifest}
    {t : Table ManifestRow.clientId} (ht : s.clientManifests.insert (manifestRow m.1) = some t)
    (written : List Written) :
    Replayed report { s with clientManifests := t, written := written } where
  rows := { h.rows with
    manifests := Table.forall_insert ht h.rows.manifests ⟨rfl, m.2⟩ }
  beats := h.beats
  noItems := h.noItems
  noLeases := h.noLeases
  beat row hrow := by
    have hold := h.beat row hrow
    obtain ⟨old, hfound⟩ := hold.registered
    exact ⟨⟨old, Table.find?_of_insert ht hfound⟩, hold.time, hold.stale⟩
  label e he := by
    obtain ⟨old, hfound, hlabel⟩ := h.label e he
    exact ⟨old, Table.find?_of_insert ht hfound, hlabel⟩

end Steps

/-! ## Registrations and heartbeats -/

/-- What the last heartbeat of each client reported, after one more request. -/
def reportAfter (report : String → Option ClientRuntimeStatus) (r : Request × DateTime) :
    String → Option ClientRuntimeStatus :=
  match r.1 with
  | .heartbeat h => fun id => if h.1.clientId = id then some h.1.status else report id
  | _ => report

/-- The row that a heartbeat writes. -/
def sentBeat (h : ClientHeartbeat) (lost : List String) : HeartbeatRow where
  clientId := h.clientId
  status := h.status
  lastHeartbeatAt := some h.observedAt
  lastRunId := h.runId
  lastTaskId := h.taskId
  lostTaskLeases := lost

section Requests

variable {s : Store} {report : String → Option ClientRuntimeStatus}

/-- The event of a heartbeat passes its checks. -/
theorem heartbeatEvent_ok (h : Checked ClientHeartbeat) {m : ClientManifest} (hm : Model.Valid m)
    (n : Nat) : (heartbeatEvent h.1 m n).ok = true := by
  have hbeat := failedFields_eq_nil.mp h.2.2
  simp only [Model.checks, List.forall_mem_cons] at hbeat
  obtain ⟨hid, hrun, htask, hactor, hrole, htext, -⟩ := hbeat
  have hmanifest := failedFields_eq_nil.mp hm.2
  simp only [Model.checks, List.forall_mem_cons] at hmanifest
  obtain ⟨-, hname, -⟩ := hmanifest
  have hlabel : lengthWithin 0 160 m.displayName = true := by
    simp only [safeText, lengthWithin, Bool.and_eq_true, decide_eq_true_eq] at hname ⊢
    omega
  have hsummary : lengthWithin 1 500 h.1.summary = true := by
    simp only [safeText, lengthWithin, Bool.and_eq_true, decide_eq_true_eq] at htext ⊢
    omega
  unfold EventFields.ok
  rw [decide_eq_true_eq, failedFields_eq_nil]
  simp only [EventFields.checks, List.forall_mem_cons]
  exact ⟨hid, hlabel, hrun, htask, hactor, hrole, rfl, hsummary,
    fun _ hx => absurd hx List.not_mem_nil⟩

/-- The heartbeat of a registered client writes its row and its event. -/
theorem exists_heartbeat (hs : RowsOk (fun _ => True) s) (h : Checked ClientHeartbeat)
    {m : ManifestRow} (hm : s.clientManifests.find? h.1.clientId = some m) :
    ∃ r lost, Returns (heartbeat h) s r ((s.putBeat (sentBeat h.1 lost)).putEvent
      (heartbeatEvent h.1 m.payload (s.eventCount + 1))) := by
  have hvalid := (hs.manifests m (Table.mem_of_find? hm)).2
  have hbuild := Model.build_of_valid hvalid
  obtain ⟨lost, hsaved⟩ : ∃ lost,
      Returns (recordClientHeartbeat h) s h (s.putBeat (sentBeat h.1 lost)) :=
    ⟨_, returns_storeCall.mpr (returns_bind.mpr ⟨_, s,
      returns_selectClientManifest.mpr ⟨⟨m, hm, hbuild⟩, rfl⟩,
      returns_bind.mpr ⟨(), _, returns_execute.mpr rfl, returns_pure.mpr ⟨rfl, rfl⟩⟩⟩)⟩
  obtain ⟨event, hevent⟩ : ∃ event, Returns (appendEvent (heartbeatEvent h.1 m.payload))
      (s.putBeat (sentBeat h.1 lost)) event ((s.putBeat (sentBeat h.1 lost)).putEvent
        (heartbeatEvent h.1 m.payload (s.eventCount + 1))) :=
    exists_appendEvent hs.ledgerLists (heartbeatEvent_ok h hvalid _)
  exact ⟨_, lost, returns_bind.mpr ⟨h, _, hsaved, returns_bind.mpr ⟨_, _,
    returns_loadClientManifest.mpr ⟨⟨m, hm, hbuild⟩, rfl⟩,
    returns_bind.mpr ⟨event, _, hevent, returns_pure.mpr ⟨rfl, rfl⟩⟩⟩⟩⟩

/-- A heartbeat of nobody known changes nothing. -/
theorem heartbeat_unknown (h : Checked ClientHeartbeat)
    (hnone : s.clientManifests.find? h.1.clientId = none) :
    ((heartbeat h).run s).2 = s := by
  have hrun : (recordClientHeartbeat h).run s = (.error (.keyError h.1.clientId), s) := by
    unfold recordClientHeartbeat
    rw [run_storeCall, run_bind, selectClientManifest, run_query, hnone]
    rfl
  unfold heartbeat
  rw [run_bind, hrun]

theorem replayed_heartbeat (hs : Replayed report s) (h : Checked ClientHeartbeat)
    (htime : h.1.observedAt.Representable) :
    Replayed (fun id => if h.1.clientId = id then some h.1.status else report id)
      ((heartbeat h).run s).2 := by
  cases hm : s.clientManifests.find? h.1.clientId with
  | none =>
    rw [heartbeat_unknown h hm]
    -- nobody else reported anything, and the unknown client has no row
    refine { hs with beat := fun beat hbeat => ?_ }
    have hold := hs.beat beat hbeat
    refine { hold with stale := fun hst => ?_ }
    by_cases hid : h.1.clientId = beat.clientId
    · obtain ⟨m, hm'⟩ := hold.registered
      rw [← hid, hm] at hm'
      cases hm'
    · rw [if_neg hid]
      exact hold.stale hst
  | some m =>
    obtain ⟨r, lost, hret⟩ := exists_heartbeat hs.rows h hm
    have hvalid := (hs.rows.manifests m (Table.mem_of_find? hm)).2
    have hbeat := failedFields_eq_nil.mp h.2.2
    simp only [Model.checks, List.forall_mem_cons] at hbeat
    rw [show (heartbeat h).run s = (.ok r, _) from hret]
    have hevent : Replayed report (s.putEvent (heartbeatEvent h.1 m.payload (s.eventCount + 1))) :=
      hs.putEvent hm rfl (heartbeatEvent_ok h hvalid _)
    have hseen := mem_ledgerEvents_putEvent s (heartbeatEvent h.1 m.payload (s.eventCount + 1))
    have hsent : BeatOk (sentBeat h.1 lost) := ⟨hbeat.2.1, hbeat.2.2.1⟩
    refine hevent.putBeat hsent
      ⟨⟨m, hm⟩, ⟨_, rfl, htime, _, hseen, rfl, rfl⟩, fun hst => Or.inr ?_⟩ fun id hid => ?_
    · exact (if_pos rfl).trans (congrArg some hst)
    · exact if_neg fun heq => hid heq.symm

theorem replayed_register (hs : Replayed report s) (m : Checked ClientManifest) (now : DateTime) :
    Replayed report ((register m now).run s).2 := by
  cases ht : s.clientManifests.insert (manifestRow m.1) with
  | none =>
    have hrun : (registerClientManifest m).run s = (.error .integrityError, s) := by
      unfold registerClientManifest
      rw [run_storeCall, run_bind, run_execute, ht]
    unfold register
    rw [run_bind, hrun]
    exact hs
  | some t =>
    obtain ⟨s₁, hrun, hadded, hfind⟩ : ∃ s₁, (registerClientManifest m).run s = (.ok m, s₁) ∧
        Replayed report s₁ ∧ s₁.clientManifests.find? m.1.clientId = some (manifestRow m.1) := by
      refine ⟨_, ?_, hs.register ht (.manifest m.1 :: s.written), (Table.find?_insert ht _).trans (if_pos rfl)⟩
      unfold registerClientManifest
      rw [run_storeCall, run_bind, run_execute, ht]
      rfl
    unfold register
    rw [run_bind, hrun]
    show Replayed report ((appendRegistryEvent m.1 "registered" now >>= fun event => pure
      { manifest := m, event := event : ClientRegistrationResult }).run s₁).2
    rw [run_bind]
    rcases hevent : (appendRegistryEvent m.1 "registered" now).run s₁ with ⟨e | event, s₂⟩
    · have hsame : s₂ = s₁ := by
        have := run_appendEvent_error (congrArg Prod.fst hevent)
        rwa [show (appendEvent _).run s₁ = _ from hevent] at this
      rw [hsame]
      exact hadded
    · obtain ⟨-, hok, -, hs₂⟩ := returns_appendEvent.mp hevent
      rw [hs₂]
      exact hadded.putEvent hfind rfl hok

end Requests

/-! ## Scans -/

section Scans

variable {s : Store} {report : String → Option ClientRuntimeStatus} {reference : DateTime}
  {seconds : Int}

/-- Marking a client when there are no leases. -/
theorem exists_markIdle (hs : Replayed report s) {clientId : String} {m : ManifestRow}
    (hm : s.clientManifests.find? clientId = some m) : ∃ marked,
      Returns (markClientStale clientId) s marked
        (s.putBeat (staleBeat clientId (s.clientHeartbeats.find? clientId) [])) ∧
      marked.manifest.1 = m.payload ∧ marked.lostTaskLeases = [] ∧
      marked.lastRunId = (s.clientHeartbeats.find? clientId).bind HeartbeatRow.lastRunId ∧
      marked.lastTaskId = (s.clientHeartbeats.find? clientId).bind HeartbeatRow.lastTaskId := by
  have hvalid := (hs.rows.manifests m (Table.mem_of_find? hm)).2
  have hnone : s.taskLeases.select (leaseMatches (some clientId) (some .active)) leaseOrder =
      [] := by
    refine List.eq_nil_iff_forall_not_mem.mpr fun l hl => ?_
    have hmem := (Table.mem_select.mp hl).1
    rw [hs.noLeases] at hmem
    exact absurd hmem List.not_mem_nil
  have hlist : Returns (selectTaskLeases (some clientId) (some .active)) s [] s :=
    returns_selectTaskLeases.mpr ⟨by rw [hnone]; rfl, rfl⟩
  have hexpire : Returns (expireLeasesOf clientId) s [] s :=
    returns_bind.mpr ⟨[], s, hlist, returns_pure.mpr ⟨rfl, rfl⟩⟩
  exact ⟨_, returns_storeCall.mpr (returns_bind.mpr ⟨_, s,
    returns_selectClientManifest.mpr ⟨⟨m, hm, Model.build_of_valid hvalid⟩, rfl⟩,
    returns_bind.mpr ⟨[], s, hexpire, returns_bind.mpr ⟨_, s, returns_query.mpr ⟨rfl, rfl⟩,
      returns_bind.mpr ⟨(), _, returns_execute.mpr rfl, returns_pure.mpr ⟨rfl, rfl⟩⟩⟩⟩⟩),
    rfl, rfl, rfl, rfl⟩

/-- Without items there is nothing to recover. -/
theorem returns_recoverNothing (hs : Replayed report s) (marked : ClientStatusSnapshot)
    (now : DateTime) : Returns (recoverStaleWorkItems marked now) s ([], []) s := by
  have hnone : s.workItems.select (workItemMatches none none (some marked.manifest.1.clientId))
      workItemOrder = [] := by
    refine List.eq_nil_iff_forall_not_mem.mpr fun row hrow => ?_
    have hmem := (Table.mem_select.mp hrow).1
    rw [hs.noItems] at hmem
    exact absurd hmem List.not_mem_nil
  have hlist : Returns (listWorkItems none none (some marked.manifest.1.clientId)) s [] s :=
    returns_storeCall.mpr (returns_query.mpr ⟨by rw [hnone]; rfl, rfl⟩)
  exact returns_bind.mpr ⟨[], s, hlist, returns_bind.mpr ⟨[], s, returns_pure.mpr ⟨rfl, rfl⟩,
    returns_pure.mpr ⟨rfl, rfl⟩⟩⟩

/-- One turn of the scan: the client has a stale event, and is watched as before. -/
theorem replayed_mark (hs : Replayed report s) (href : reference.Representable) {now : DateTime}
    {x : ClientStatusSnapshot × Int} {time : DateTime}
    (hwatched : watchedTime (s.clientHeartbeats.find? x.1.manifest.1.clientId) = some time)
    (hage : x.2 = reference.instant - time.instant) :
    ∃ r s', Returns (recoverStaleClient now x) s r s' ∧ r.recoveredWorkItems = [] ∧
      Replayed report s' ∧ SaidStale s' x.1.manifest.1.clientId ∧ SameWatch s s' ∧
      ∀ id, SaidStale s id → SaidStale s' id := by
  obtain ⟨beat, hbeat, hlast⟩ := Option.bind_eq_some_iff.mp hwatched
  have htime : beat.lastHeartbeatAt = some time := by
    split at hlast
    · cases hlast
    · exact hlast
  have hid := Table.key_of_find? hbeat
  have hknown := hs.beat beat (Table.mem_of_find? hbeat)
  obtain ⟨m, hm⟩ := hknown.registered
  rw [hid] at hm
  obtain ⟨t, ht, hrepresentable, seen, hseen, hseenId, hseenAt⟩ := hknown.time
  rw [htime] at ht
  cases ht
  obtain ⟨marked, hmark, hmanifest, hlost, hrun, htask⟩ := exists_markIdle hs hm
  have hmid : m.payload.clientId = x.1.manifest.1.clientId := by
    rw [← Table.key_of_find? hm, (hs.rows.manifests m (Table.mem_of_find? hm)).1]
    rfl
  have hbeatOk : BeatOk (staleBeat x.1.manifest.1.clientId
      (s.clientHeartbeats.find? x.1.manifest.1.clientId) []) := beatOk_staleBeat hs.beats _ _
  -- the stale event passes its checks
  have hshort : (ageText x.2).length ≤ 20 := by
    rw [hage]
    exact length_ageText_le href hrepresentable
  have hok := staleEvent_ok (hrun ▸ hbeatOk.1) (htask ▸ hbeatOk.2) hlost hshort now
    (s.eventCount + 1)
  generalize hfields : clientEvent marked.manifest.1 .heartbeat .stale marked.lastRunId
    marked.lastTaskId none _ now (s.eventCount + 1) = e at hok
  obtain ⟨event, happend⟩ : ∃ event, Returns (appendStaleEvent marked x.2 now)
      (s.putBeat (staleBeat x.1.manifest.1.clientId
        (s.clientHeartbeats.find? x.1.manifest.1.clientId) [])) event
      ((s.putEvent e).putBeat (staleBeat x.1.manifest.1.clientId
        (s.clientHeartbeats.find? x.1.manifest.1.clientId) [])) := by
    subst hfields
    exact exists_appendEvent hs.rows.ledgerLists hok
  have hevent : Replayed report (s.putEvent e) := by
    refine hs.putEvent (m := m) ?_ ?_ hok
    · rw [← hfields]
      show s.clientManifests.find? marked.manifest.1.clientId = some m
      rw [hmanifest, hmid]
      exact hm
    · rw [← hfields]
      exact congrArg (fun c : ClientManifest => some c.displayName) hmanifest
  have hsaid : SaidStale (s.putEvent e) x.1.manifest.1.clientId := by
    refine ⟨_, mem_ledgerEvents_putEvent s e, ?_, ?_⟩
    · rw [← hfields]
      show marked.manifest.1.clientId = _
      rw [hmanifest, hmid]
    · rw [← hfields]
      rfl
  have hmarked : Replayed report ((s.putEvent e).putBeat (staleBeat x.1.manifest.1.clientId
      (s.clientHeartbeats.find? x.1.manifest.1.clientId) [])) := by
    refine hevent.putBeat hbeatOk ⟨⟨m, hm⟩, ⟨time, ?_, hrepresentable, seen, ?_, ?_, hseenAt⟩,
      fun _ => Or.inl hsaid⟩ fun _ _ => rfl
    · show (s.clientHeartbeats.find? _).bind HeartbeatRow.lastHeartbeatAt = some time
      rw [hbeat]
      exact htime
    · rw [ledgerEvents_putEvent]
      exact List.mem_append_left _ hseen
    · exact hseenId.trans hid
  have hwatch := sameWatch_markClientStale (t := s) ⟨rfl, fun _ => rfl⟩ hwatched
  rw [show (markClientStale x.1.manifest.1.clientId).run s = (.ok marked, _) from hmark] at hwatch
  have hsame : SameClients (s.putBeat (staleBeat x.1.manifest.1.clientId
      (s.clientHeartbeats.find? x.1.manifest.1.clientId) []))
      ((s.putEvent e).putBeat (staleBeat x.1.manifest.1.clientId
        (s.clientHeartbeats.find? x.1.manifest.1.clientId) [])) := ⟨rfl, rfl, rfl⟩
  refine ⟨_, _, returns_bind.mpr ⟨marked, _, hmark, returns_bind.mpr ⟨event, _, happend,
    returns_bind.mpr ⟨([], []), _, returns_recoverNothing hmarked marked now,
      returns_pure.mpr ⟨rfl, rfl⟩⟩⟩⟩, rfl, hmarked, hsaid, hsame.sameWatch hwatch,
    fun id hold => ?_⟩
  exact hold.putEvent e

/-- The turns of the scan, one after the other. -/
theorem replayed_marks (href : reference.Representable) (now : DateTime) :
    ∀ (stale : List (ClientStatusSnapshot × Int)) {s : Store}, Replayed report s →
      (∀ x ∈ stale, ∃ time,
        watchedTime (s.clientHeartbeats.find? x.1.manifest.1.clientId) = some time ∧
          x.2 = reference.instant - time.instant) →
      ∃ results s', Returns (Program.forEach stale (recoverStaleClient now)) s results s' ∧
        (∀ r ∈ results, r.recoveredWorkItems = []) ∧ Replayed report s' ∧
        (∀ x ∈ stale, SaidStale s' x.1.manifest.1.clientId) ∧ SameWatch s s' ∧
        ∀ id, SaidStale s id → SaidStale s' id := by
  intro stale
  induction stale with
  | nil =>
    intro s hs _
    exact ⟨[], s, returns_pure.mpr ⟨rfl, rfl⟩, fun r hr => absurd hr List.not_mem_nil, hs,
      fun x hx => absurd hx List.not_mem_nil, ⟨rfl, fun _ => rfl⟩, fun _ h => h⟩
  | cons x rest ih =>
    intro s hs hwatched
    obtain ⟨time, htime, hage⟩ := hwatched x (List.mem_cons_self ..)
    obtain ⟨r, s₁, hfirst, hnothing, hs₁, hsaid, hwatch₁, hkept₁⟩ :=
      replayed_mark hs href htime hage
    obtain ⟨results, s₂, hrest, hnone, hs₂, hall, hwatch₂, hkept₂⟩ := ih hs₁ fun y hy => by
      obtain ⟨time, htime, hage⟩ := hwatched y (List.mem_cons_of_mem x hy)
      exact ⟨time, (hwatch₁.times _).trans htime, hage⟩
    refine ⟨r :: results, s₂, returns_bind.mpr ⟨r, s₁, hfirst,
      returns_bind.mpr ⟨results, s₂, hrest, returns_pure.mpr ⟨rfl, rfl⟩⟩⟩, ?_, hs₂, ?_,
      ⟨hwatch₂.manifests.trans hwatch₁.manifests, fun id =>
        (hwatch₂.times id).trans (hwatch₁.times id)⟩, fun id h => hkept₂ id (hkept₁ id h)⟩
    · intro y hy
      rcases List.mem_cons.mp hy with rfl | hy
      · exact hnothing
      · exact hnone y hy
    · intro y hy
      rcases List.mem_cons.mp hy with rfl | hy
      · exact hkept₂ _ hsaid
      · exact hall y hy

/-- Where nothing was recovered, nothing is scheduled again. -/
theorem returns_finishNothing {results : List ClientStaleRecoveryResult}
    (hnone : ∀ r ∈ results, r.recoveredWorkItems = []) (auto : Bool) (now : DateTime) :
    ∃ results', Returns (finishScan auto now results) s results' s := by
  cases auto with
  | false => exact ⟨_, returns_pure.mpr ⟨rfl, rfl⟩⟩
  | true =>
    have htransitions : results.flatMap ClientStaleRecoveryResult.recoveredWorkItems = [] :=
      List.flatMap_eq_nil_iff.mpr hnone
    have hreassign : Returns (reassignRecovered now results) s [] s := by
      unfold reassignRecovered
      rw [htransitions]
      exact returns_bind.mpr ⟨[], s, returns_pure.mpr ⟨rfl, rfl⟩, returns_pure.mpr ⟨rfl, rfl⟩⟩
    exact ⟨_, returns_bind.mpr ⟨[], s, hreassign, returns_pure.mpr ⟨rfl, rfl⟩⟩⟩

/-- A scan raises before it has done anything, or marks everyone it selects. -/
theorem replayed_scan (hs : Replayed report s) (href : reference.Representable) (seconds : Int)
    (auto : Bool) (now : DateTime) :
    (∃ e, (markStaleClientsWithRecovery reference seconds auto now).run s = (.error e, s)) ∨
      ∃ statuses stale results s',
        joinedSnapshots s (s.clientManifests.select (fun _ => true) manifestOrder) = .ok statuses ∧
        staleSnapshots reference seconds statuses = .ok stale ∧
        Returns (markStaleClientsWithRecovery reference seconds auto now) s results s' ∧
        Replayed report s' ∧ (∀ x ∈ stale, SaidStale s' x.1.manifest.1.clientId) ∧
        SameWatch s s' := by
  obtain ⟨statuses, hstatuses, -⟩ := lists_all hs.rows
  cases hstale : staleSnapshots reference seconds statuses with
  | error e =>
    refine Or.inl ⟨e, ?_⟩
    rw [run_scan_listed hstatuses, hstale]
    rfl
  | ok stale =>
    obtain ⟨results, s', hmarks, hnone, hs', hall, hwatch, -⟩ :=
      replayed_marks href now stale hs fun x hx => by
        obtain ⟨-, -, time, hwatched, hage⟩ := watched_of_selected hs.rows hstatuses hstale hx
        exact ⟨time, hwatched, hage⟩
    obtain ⟨results', hfinish⟩ := returns_finishNothing (s := s') hnone auto now
    refine Or.inr ⟨statuses, stale, results', s', hstatuses, hstale, ?_, hs', hall, hwatch⟩
    have hscan : Returns (Program.forEach stale (recoverStaleClient now) >>= finishScan auto now)
        s results' s' := returns_bind.mpr ⟨results, s', hmarks, hfinish⟩
    exact (run_scan hstatuses hstale auto now).trans hscan

end Scans

/-! ## Runs -/

/-- The calls of such a run. -/
def RegistryCall : Request → Prop
  | .register _ => True
  | .heartbeat h => h.1.observedAt.Representable
  | .staleScan reference _ _ => reference.Representable
  | _ => False

/-- What the last heartbeat of each client reported. -/
def lastReports (requests : List (Request × DateTime)) : String → Option ClientRuntimeStatus :=
  requests.foldl reportAfter fun _ => none

/-- Two registered clients have different display names. -/
def DistinctNames (s : Store) : Prop := ∀ a ∈ s.clientManifests.rows, ∀ b ∈ s.clientManifests.rows,
  a.payload.displayName = b.payload.displayName → a.clientId = b.clientId

/-- Every event of the client is older than the threshold. -/
def LongSilent (s : Store) (clientId : String) (reference : DateTime) (seconds : Int) : Prop :=
  ∀ e ∈ s.ledgerEvents, e.clientId = clientId →
    seconds * 1000000 < reference.instant - e.createdAt.instant

section Runs

variable {s s' : Store} {report : String → Option ClientRuntimeStatus} {reference : DateTime}
  {seconds : Int}

theorem replayed_empty (evidence : Table RunEvidenceRow.runId) :
    Replayed (fun _ => none) { Store.empty with runEvidence := evidence } where
  rows := rowsOk_empty _ evidence
  beats _ hrow := absurd hrow List.not_mem_nil
  noItems := rfl
  noLeases := rfl
  beat _ hrow := absurd hrow List.not_mem_nil
  label _ he := absurd he List.not_mem_nil

theorem replayed_request (o : Outside) (hs : Replayed report s) {r : Request × DateTime}
    (hr : RegistryCall r.1) : Replayed (reportAfter report r) (afterRequest o s r) := by
  obtain ⟨request, now⟩ := r
  cases request with
  | register m =>
    show Replayed report ((register m now >>= fun a => pure (Response.client a)).run s).2
    rw [run_map]
    exact replayed_register hs m now
  | heartbeat h =>
    show Replayed _ ((heartbeat h >>= fun a => pure (Response.heartbeat a)).run s).2
    rw [run_map]
    exact replayed_heartbeat hs h hr
  | staleScan reference seconds auto =>
    show Replayed report ((markStaleClientsWithRecovery reference seconds auto now >>=
      fun a => pure (Response.staleScan a)).run s).2
    rw [run_map]
    rcases replayed_scan hs hr seconds auto now with ⟨e, h⟩ | ⟨_, _, results, s', -, -, h, hs', -⟩
    · rw [h]
      exact hs
    · rw [show (markStaleClientsWithRecovery reference seconds auto now).run s = (.ok results, s')
        from h]
      exact hs'
  | _ => exact hr.elim

/-- The invariant holds along a run. -/
theorem replayed_requests (o : Outside) : ∀ (requests : List (Request × DateTime)) {s : Store}
    {report : String → Option ClientRuntimeStatus}, (∀ r ∈ requests, RegistryCall r.1) →
    Replayed report s →
      Replayed (requests.foldl reportAfter report) (afterRequests o s requests) := by
  intro requests
  induction requests with
  | nil => exact fun _ hs => hs
  | cons r rest ih =>
    intro s report hcalls hs
    exact ih (fun x hx => hcalls x (List.mem_cons_of_mem r hx))
      (replayed_request o hs (hcalls r (List.mem_cons_self ..)))

/-- The events that the ledger lists are those that it holds. -/
theorem mem_listed {events : List (Checked ControlPlaneEvent)}
    (h : Returns (listControlPlaneEvents none none) s events s') (e : ControlPlaneEvent) :
    e ∈ events.map Subtype.val ↔ e ∈ s.ledgerEvents := by
  have hvals := vals_of_fetchedAll (fun _ => rfl) (returns_listControlPlaneEvents.mp h).1
  rw [hvals, Store.ledgerEvents, List.mem_map, List.mem_map]
  refine exists_congr fun row => and_congr_left fun _ => ?_
  rw [Table.mem_select]
  exact ⟨fun hin => hin.1, fun hin => ⟨hin, rfl⟩⟩

/-- An event counts for the client whose name it bears. -/
theorem client_eq_iff (hs : Replayed report s) (hnames : DistinctNames s) {m : ManifestRow}
    (hm : m ∈ s.clientManifests.rows) {e : ControlPlaneEvent} (he : e ∈ s.ledgerEvents) :
    e.client = m.payload.displayName ↔ e.clientId = m.clientId := by
  obtain ⟨owner, howner, hlabel⟩ := hs.label e he
  have hmem := Table.mem_of_find? howner
  have hname : owner.payload.displayName ≠ "" := by
    have hchecks := failedFields_eq_nil.mp (hs.rows.manifests owner hmem).2.2
    simp only [Model.checks, List.forall_mem_cons] at hchecks
    intro hempty
    rw [hempty] at hchecks
    exact absurd hchecks.2.1 (by decide)
  have hclient : e.client = owner.payload.displayName := by
    unfold ControlPlaneEvent.client
    rw [hlabel]
    exact if_neg hname
  rw [hclient, ← Table.key_of_find? howner]
  constructor
  · exact hnames owner hmem m hm
  · intro hid
    have hsame : some owner = some m := by
      rw [← Table.mem_rows_iff.mp hmem, ← Table.mem_rows_iff.mp hm, hid]
    rw [Option.some.inj hsame]

/-- After a scan, whoever is connected and was not heard of for longer has a stale event. -/
theorem saidStale_of_silent (hs : Replayed report s) (hs' : Replayed report s')
    {statuses : List ClientStatusSnapshot} {stale : List (ClientStatusSnapshot × Int)}
    (hstatuses : joinedSnapshots s (s.clientManifests.select (fun _ => true) manifestOrder) =
      .ok statuses)
    (hstale : staleSnapshots reference seconds statuses = .ok stale)
    (hsaid : ∀ x ∈ stale, SaidStale s' x.1.manifest.1.clientId) (hwatch : SameWatch s s')
    {m : ManifestRow} (hm : m ∈ s'.clientManifests.rows) {beat : HeartbeatRow}
    (hbeat : s'.clientHeartbeats.find? m.clientId = some beat)
    (hsilent : LongSilent s' m.clientId reference seconds) (hconnected : beat.status ≠ .disconnected) :
    SaidStale s' m.clientId := by
  have hid : beat.clientId = m.clientId := Table.key_of_find? hbeat
  obtain ⟨t, ht, -, e, he, heId, heAt⟩ := (hs'.beat beat (Table.mem_of_find? hbeat)).time
  have hover := hsilent e he (heId.trans hid)
  rw [heAt] at hover
  -- the scan judged the client by this heartbeat
  have hwatched : watchedTime (s.clientHeartbeats.find? m.clientId) = some t := by
    rw [← hwatch.times, hbeat]
    exact (if_neg hconnected).trans ht
  have hstored : m ∈ s.clientManifests.rows := hwatch.manifests ▸ hm
  obtain ⟨x, hx, hxid⟩ := selected_of_overdue hs.rows hstatuses hstale hstored hwatched hover
  rw [← hxid]
  exact hsaid x hx

end Runs

/-! ## A client that comes back -/

/-- A client reports, is marked two minutes later, and reports again. -/
def returningClient : List (Request × DateTime) := [
  (.register ⟨sampleManifest, sampleManifest_valid⟩, epoch),
  (.heartbeat sampleHeartbeat, epoch),
  (.staleScan twoMinutes 60 false, twoMinutes),
  (.heartbeat ⟨{ sampleHeartbeat.1 with observedAt := twoMinutes }, rfl, by decide⟩, twoMinutes)]

/-- The store that these calls leave. -/
def returnedStore : Store :=
  afterRequests sampleOutside { Store.empty with runEvidence := Table.empty } returningClient

/-- A scan, and the events that the ledger lists after it. -/
def scanAndList (reference : DateTime) (seconds : Int) : Db (List (Checked ControlPlaneEvent)) := do
  let _ ← markStaleClientsWithRecovery reference seconds false reference
  listControlPlaneEvents none none

theorem twoMinutes_representable : twoMinutes.Representable :=
  ⟨by decide, by decide, by decide, by decide⟩

theorem returningClient_calls : ∀ r ∈ returningClient, RegistryCall r.1 := by
  intro r hr
  simp only [returningClient, List.mem_cons, List.not_mem_nil, or_false] at hr
  rcases hr with rfl | rfl | rfl | rfl
  · trivial
  · exact ⟨by decide, by decide, by decide, by decide⟩
  · exact twoMinutes_representable
  · exact twoMinutes_representable

/-- After one more scan the client is active in the registry, and stale in the replay. -/
theorem returned_scanned : ∃ results s' events,
    Returns (markStaleClientsWithRecovery twoMinutes 60 false twoMinutes) returnedStore results s' ∧
      Returns (listControlPlaneEvents none none) s' events s' ∧
      s'.runtimeStatus "c1" = some .active ∧
      s'.clientManifests.rows.map (fun m => (m.clientId, m.payload.displayName)) =
        [("c1", "client")] ∧
      (buildDashboardProjection (events.map Subtype.val) twoMinutes 60).staleClients =
        ["client"] := by
  have hlisted : ((scanAndList twoMinutes 60).run returnedStore).1.toOption.map (fun events =>
      (buildDashboardProjection (events.map Subtype.val) twoMinutes 60).staleClients) =
      some ["client"] := by decide
  have hactive : ((scanAndList twoMinutes 60).run returnedStore).2.runtimeStatus "c1" =
      some .active := by decide
  have hone : ((scanAndList twoMinutes 60).run returnedStore).2.clientManifests.rows.map
      (fun m => (m.clientId, m.payload.displayName)) = [("c1", "client")] := by decide
  rcases hrun : (scanAndList twoMinutes 60).run returnedStore with ⟨e | events, s'⟩
  · rw [hrun] at hlisted
    cases hlisted
  · rw [hrun] at hlisted hactive hone
    obtain ⟨results, t, hscan, hlist⟩ := returns_bind.mp hrun
    have hsame : s' = t := (returns_listControlPlaneEvents.mp hlist).2
    rw [← hsame] at hscan hlist
    exact ⟨results, s', events, hscan, hlist, hactive, hone, Option.some.inj hlisted⟩

/-- There is one client, so names are distinct. -/
theorem distinctNames_of_one {s : Store}
    (h : s.clientManifests.rows.map (fun m => (m.clientId, m.payload.displayName)) =
      [("c1", "client")]) : DistinctNames s ∧
      ∃ m ∈ s.clientManifests.rows, m.clientId = "c1" ∧ m.payload.displayName = "client" := by
  obtain ⟨m, hrows, hm⟩ := List.map_eq_singleton_iff.mp h
  rw [Prod.mk.injEq] at hm
  refine ⟨fun a ha b hb _ => ?_, m, by rw [hrows]; exact List.mem_singleton.mpr rfl, hm.1, hm.2⟩
  rw [hrows, List.mem_singleton] at ha hb
  rw [ha, hb]

end Vad
