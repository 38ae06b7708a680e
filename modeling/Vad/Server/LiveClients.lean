/-
  A heartbeat and a stale scan at once.

  The scan lists all clients in its first store call, picks the silent ones from that list, and
  marks each of them by id later on, without looking at its heartbeat again.  The heartbeat is
  stored in the first store call of its own request.  Between the listing and the marking lies a
  gap: a heartbeat that is stored there is overtaken by a judgement from before it, and since the
  marking keeps the columns it does not write, the registry ends up with a client that is STALE and
  was heard of a moment ago (`beat_overtaken`).

  1. **The condition** — `HeardInTime`: when the heartbeat is stored, the scan has not listed the
     clients yet, or leaves this client alone from then on.
  2. **The phases** — `Waiting` for the heartbeat; `Heard`, when the store holds it and nobody is
     about to touch it; and `Overtaken`, when the scan is bound to mark the client, or has done so.
     A scan that has listed is in one of two states about the client: it leaves it alone
     (`LeavesClient`), or it does not return without marking it (`BoundToMark`).
  3. **The result** — `liveClient_spared_iff`: along the condition the client is spared whatever
     the requests end with, and when both return it is spared only along the condition.
-/
import Vad.Server.RepeatedScan
import Vad.Server.TransitionRace

namespace Vad

open Keyed (Table)
open Atomic (Program Pool)
open Atomic.Program (Safe Until Returns run_bind)

/-! ## A client that is spared -/

/-- The time is at most the threshold before the time of the scan. -/
def FreshAt (reference : DateTime) (seconds : Int) (time : DateTime) : Prop :=
  reference.instant - time.instant ≤ seconds * 1000000

/-- The client is registered, its status is STALE, and its last heartbeat is fresh. -/
def StaleButFresh (clientId : String) (reference : DateTime) (seconds : Int) (s : Store) : Prop :=
  s.clientManifests.has clientId = true ∧ ∃ row time,
    s.clientHeartbeats.find? clientId = some row ∧ row.status = .stale ∧
      row.lastHeartbeatAt = some time ∧ FreshAt reference seconds time

/-- A call marked the client: its registry status became STALE. -/
def Marks (clientId : String) (s s' : Store) : Prop :=
  s.runtimeStatus clientId ≠ some .stale ∧ s'.runtimeStatus clientId = some .stale

/-- Among these calls of a heartbeat (thread 0) and a scan (thread 1) one marked the client after
    the first call of the heartbeat, which stores it. -/
def MarkedLate (clientId : String) (P : Pool Store PyError Response) (calls : List Nat) : Prop :=
  ∃ before i after, calls = before ++ i :: after ∧ 0 ∈ before ∧
    Marks clientId (P.exec before).state ((P.exec before).step i).state

/-- The live client is not punished: once both requests have ended it is not STALE with a fresh
    heartbeat, and no call since a late marking takes a lease or a work item from it. -/
structure Spared (clientId : String) (reference : DateTime) (seconds : Int)
    (P : Pool Store PyError Response) (schedule : List Nat) : Prop where
  status : Ended (P.exec schedule) →
    ¬ StaleButFresh clientId reference seconds (P.exec schedule).state
  leases : ∀ before i after, schedule = before ++ i :: after →
    MarkedLate clientId P (before ++ [i]) → ∀ l ∈ (P.exec before).state.taskLeases.rows,
      l.clientId = clientId → l ∈ ((P.exec before).step i).state.taskLeases.rows
  work : ∀ before i after, schedule = before ++ i :: after →
    MarkedLate clientId P (before ++ [i]) → ∀ row ∈ (P.exec before).state.workItems.rows,
      row.assignedClientId = some clientId → row ∈ ((P.exec before).step i).state.workItems.rows

/-! ## Programs that leave a client alone -/

/-- The registration of the client, its heartbeat row and its leases are the same. -/
structure SameClient (clientId : String) (s s' : Store) : Prop where
  manifest : s'.clientManifests.find? clientId = s.clientManifests.find? clientId
  beat : s'.clientHeartbeats.find? clientId = s.clientHeartbeats.find? clientId
  leases : ∀ l : LeaseRow, l.clientId = clientId →
    (l ∈ s'.taskLeases.rows ↔ l ∈ s.taskLeases.rows)

/-- A program none of whose calls, whatever it finds, changes them. -/
abbrev LeavesClient (clientId : String) {α : Type} (p : Db α) : Prop :=
  Safe (RowsOk fun _ => True) (SameClient clientId) p

section Leaving

variable {clientId : String} {s s' : Store}

theorem SameClient.refl (clientId : String) (s : Store) : SameClient clientId s s :=
  ⟨rfl, rfl, fun _ _ => Iff.rfl⟩

theorem SameClients.sameClient (h : SameClients s s') : SameClient clientId s s' := by
  refine ⟨by rw [h.manifests], by rw [h.heartbeats], fun l _ => ?_⟩
  rw [h.leases]

theorem SameClient.registered (h : SameClient clientId s s') :
    s'.clientManifests.has clientId = s.clientManifests.has clientId := by
  rw [Bool.eq_iff_iff, Table.has_iff, Table.has_iff, h.manifest]

theorem SameClient.not_marks (h : SameClient clientId s s') : ¬ Marks clientId s s' := by
  rintro ⟨hbefore, hafter⟩
  apply hbefore
  rw [Store.runtimeStatus, ← h.beat]
  exact hafter

/-- The calls about work leave every client alone. -/
theorem leavesClient_rule : WorkRule (fun {_} p => LeavesClient clientId p) where
  done _ := trivial
  bind hp hk := Program.safe_bind hp hk
  query f := (anyRowsOk.query f).along ((keepsClients_query f).mono fun _ _ _ h => h.sameClient)
  appendEvent fields hown := (anyRowsOk.appendEvent fields hown).along
    ((keepsClients_appendEvent fields).mono fun _ _ _ h => h.sameClient)
  transition id target caller change summary now :=
    (anyRowsOk.transition id target caller change summary now).along
      ((keepsClients_transition id target caller change summary now).mono
        fun _ _ _ h => h.sameClient)

/-- Marking a client that is not registered fails and changes nothing. -/
theorem run_markClientStale_unknown {other : String}
    (h : s.clientManifests.has other = false) :
    ∃ e, (markClientStale other).run s = (.error e, s) := by
  have hnone : s.clientManifests.find? other = none := by
    cases hfind : s.clientManifests.find? other with
    | none => rfl
    | some row =>
      have hhas := Table.has_iff.mpr ⟨row, hfind⟩
      rw [h] at hhas
      cases hhas
  refine ⟨.keyError other, ?_⟩
  unfold markClientStale
  rw [run_storeCall, run_bind, selectClientManifest, run_query, hnone]
  rfl

/-- Marking another client leaves this one alone. -/
theorem sameClient_markClientStale (hs : RowsOk (fun _ => True) s) {other : String}
    (hne : other ≠ clientId) : SameClient clientId s ((markClientStale other).run s).2 := by
  cases hknown : s.clientManifests.has other with
  | false =>
    obtain ⟨e, hrun⟩ := run_markClientStale_unknown hknown
    rw [hrun]
    exact .refl clientId s
  | true =>
    obtain ⟨marked, t, hmark, -⟩ := exists_markClientStale hs hknown
    obtain ⟨-, hbeats⟩ := run_markClientStale_registry other s
    have hspec := returns_markClientStale hs hmark
    rw [show (markClientStale other).run s = (.ok marked, t) from hmark] at hbeats ⊢
    refine ⟨by rw [hspec.manifests], ?_, fun l hl => hspec.otherLeases l (hl ▸ hne.symm)⟩
    rcases hbeats with hsame | ⟨lost, hwrite⟩
    · rw [hsame]
    · rw [hwrite, Table.find?_upsert]
      exact if_neg hne

theorem leavesClient_markClientStale {other : String} (hne : other ≠ clientId) :
    LeavesClient clientId (markClientStale other) :=
  Program.safe_atomic fun _ hs => ⟨sameClient_markClientStale hs hne,
    (safe_markClientStale (fun _ _ => trivial) other).run_keeps hs⟩

end Leaving

/-! ## The programs of the two requests -/

section Requests

variable {clientId : String} {s : Store} (o : Outside) (now : DateTime)

/-- A heartbeat is stored in the first call; the others leave every client alone. -/
theorem heartbeat_calls (h : Checked ClientHeartbeat) : ∃ rest : Checked ClientHeartbeat → Db Response,
    (Request.heartbeat h).perform o now = recordClientHeartbeat h >>= rest ∧
      ∀ saved, LeavesClient clientId (rest saved) := by
  refine ⟨_, Program.bind_bind (recordClientHeartbeat h) _ _, fun saved => ?_⟩
  refine leavesClient_rule.map (leavesClient_rule.bind (leavesClient_rule.query _) fun _ => ?_) _
  exact leavesClient_rule.map (leavesClient_rule.appendEvent _ (.heartbeat ..)) _

/-- The scan once it has selected its clients. -/
def markAll (auto : Bool) (now : DateTime) (stale : List (ClientStatusSnapshot × Int)) :
    Db Response := do
  let results ← Program.forEach stale (recoverStaleClient now)
  let results ← finishScan auto now results
  pure (.staleScan results)

/-- The scan once it has listed the clients of the store `s`. -/
def afterListing (reference : DateTime) (seconds : Int) (auto : Bool) (now : DateTime) (s : Store) :
    Db Response := do
  let statuses ← Program.done (joinedSnapshots s
    (s.clientManifests.select (fun _ => true) manifestOrder))
  let stale ← Program.done (staleSnapshots reference seconds statuses)
  markAll auto now stale

theorem staleScan_call (reference : DateTime) (seconds : Int) (auto : Bool) :
    (Request.staleScan reference seconds auto).perform o now =
      Program.call (fun s => s) (afterListing reference seconds auto now) := by
  have hcalls : (Request.staleScan reference seconds auto).perform o now =
      listClientStatuses >>= fun statuses =>
        Program.done (staleSnapshots reference seconds statuses) >>= markAll auto now := by
    unfold Request.perform markStaleClientsWithRecovery markAll
    simp only [Program.bind_bind]
    rfl
  rw [hcalls]
  rfl

variable {reference : DateTime} {seconds : Int} {auto : Bool}

/-- The scan raises at what it listed, or goes on to mark the clients that it selected. -/
theorem afterListing_cases (reference : DateTime) (seconds : Int) (auto : Bool) (s : Store) :
    (∃ e, afterListing reference seconds auto now s = .done (.error e)) ∨
      ∃ statuses stale,
        joinedSnapshots s (s.clientManifests.select (fun _ => true) manifestOrder) = .ok statuses ∧
        staleSnapshots reference seconds statuses = .ok stale ∧
        afterListing reference seconds auto now s = markAll auto now stale := by
  unfold afterListing
  cases hstatuses : joinedSnapshots s
      (s.clientManifests.select (fun _ => true) manifestOrder) with
  | error e => exact Or.inl ⟨e, rfl⟩
  | ok statuses =>
    cases hstale : staleSnapshots reference seconds statuses with
    | error e =>
      refine Or.inl ⟨e, ?_⟩
      show (Program.done (staleSnapshots reference seconds statuses) >>= markAll auto now) = _
      rw [hstale]
      rfl
    | ok stale =>
      refine Or.inr ⟨statuses, stale, rfl, hstale, ?_⟩
      show (Program.done (staleSnapshots reference seconds statuses) >>= markAll auto now) = _
      rw [hstale]
      rfl

/-! ### What the scan still does to the client -/

/-- The next call marks the client, and those that follow leave it alone. -/
def AtMark (clientId : String) {α : Type} (p : Db α) : Prop :=
  ∃ k : ClientStatusSnapshot → Db α, p = markClientStale clientId >>= k ∧
    ∀ marked, LeavesClient clientId (k marked)

/-- A program that leaves the client alone until it marks it, and does not return before. -/
abbrev BoundToMark (clientId : String) {α : Type} (p : Db α) : Prop :=
  Until (AtMark clientId) (RowsOk fun _ => True) (SameClient clientId) p

theorem AtMark.bind {α β : Type} {p : Db α} {k : α → Db β} (h : AtMark clientId p)
    (hk : ∀ a, LeavesClient clientId (k a)) : AtMark clientId (p >>= k) := by
  obtain ⟨first, rfl, hfirst⟩ := h
  refine ⟨fun marked => first marked >>= k, Program.bind_bind _ _ _, fun marked => ?_⟩
  exact Program.safe_bind (hfirst marked) hk

theorem AtMark.bound {α : Type} {p : Db α} (h : AtMark clientId p) : BoundToMark clientId p := by
  obtain ⟨k, rfl, hk⟩ := h
  exact Or.inl ⟨k, rfl, hk⟩

/-- The turn of a client marks it in its first call. -/
theorem atMark_recoverStaleClient {x : ClientStatusSnapshot × Int}
    (hx : x.1.manifest.1.clientId = clientId) : AtMark clientId (recoverStaleClient now x) := by
  subst hx
  refine ⟨_, rfl, fun marked => ?_⟩
  refine leavesClient_rule.bind (leavesClient_rule.appendEvent _ (.stale ..)) fun _ => ?_
  exact leavesClient_rule.map (leavesClient_rule.recoverStaleWorkItems marked now) _

/-- The turn of another client leaves this one alone. -/
theorem leavesClient_recoverStaleClient {x : ClientStatusSnapshot × Int}
    (hx : x.1.manifest.1.clientId ≠ clientId) : LeavesClient clientId (recoverStaleClient now x) := by
  refine Program.safe_bind (leavesClient_markClientStale hx) fun marked => ?_
  refine leavesClient_rule.bind (leavesClient_rule.appendEvent _ (.stale ..)) fun _ => ?_
  exact leavesClient_rule.map (leavesClient_rule.recoverStaleWorkItems marked now) _

theorem leavesClient_forEach {stale : List (ClientStatusSnapshot × Int)}
    (h : ∀ x ∈ stale, x.1.manifest.1.clientId ≠ clientId) :
    LeavesClient clientId (Program.forEach stale (recoverStaleClient now)) :=
  Program.safe_forEach fun x hx => leavesClient_recoverStaleClient now (h x hx)

/-- The loop over clients one of which is this one: the turns before its own leave it alone, its
    own marks it, and it has no other. -/
theorem boundToMark_forEach {stale : List (ClientStatusSnapshot × Int)}
    (hnodup : (stale.map fun x => x.1.manifest.1.clientId).Nodup)
    (h : ∃ x ∈ stale, x.1.manifest.1.clientId = clientId) :
    BoundToMark clientId (Program.forEach stale (recoverStaleClient now)) := by
  induction stale with
  | nil =>
    obtain ⟨x, hx, -⟩ := h
    exact absurd hx List.not_mem_nil
  | cons x rest ih =>
    rw [List.map_cons, List.nodup_cons] at hnodup
    obtain ⟨hnew, hrest⟩ := hnodup
    by_cases hx : x.1.manifest.1.clientId = clientId
    · have hothers : ∀ y ∈ rest, y.1.manifest.1.clientId ≠ clientId := by
        intro y hy heq
        exact hnew (hx.trans heq.symm ▸ List.mem_map_of_mem hy)
      refine ((atMark_recoverStaleClient now hx).bind fun _ => ?_).bound
      exact leavesClient_rule.map (leavesClient_forEach now hothers) _
    · have hlater : ∃ y ∈ rest, y.1.manifest.1.clientId = clientId := by
        obtain ⟨y, hy, heq⟩ := h
        rcases List.mem_cons.mp hy with rfl | hy
        · exact absurd heq hx
        · exact ⟨y, hy, heq⟩
      refine Program.until_after (leavesClient_recoverStaleClient now hx) fun _ => ?_
      exact Program.until_bind (ih hrest hlater) fun q hq => hq.bind fun _ => trivial

theorem leavesClient_finishScan (results : List ClientStaleRecoveryResult) :
    LeavesClient clientId (do
      let results ← finishScan auto now results
      pure (Response.staleScan results)) :=
  leavesClient_rule.map (leavesClient_rule.finishScan auto now results) _

/-- A scan that has listed leaves the client alone, or is bound to mark it. -/
theorem afterListing_leaves_or_marks (hs : RowsOk (fun _ => True) s) :
    LeavesClient clientId (afterListing reference seconds auto now s) ∨
      BoundToMark clientId (afterListing reference seconds auto now s) := by
  rcases afterListing_cases now reference seconds auto s with ⟨e, h⟩ | ⟨statuses, stale, hstatuses,
    hstale, h⟩
  · rw [h]
    exact Or.inl trivial
  · rw [h]
    by_cases hin : ∃ x ∈ stale, x.1.manifest.1.clientId = clientId
    · right
      refine Program.until_bind (boundToMark_forEach now
        (staleClients_nodup hs hstatuses hstale) hin) fun q hq => hq.bind fun results => ?_
      exact leavesClient_finishScan now results
    · left
      refine Program.safe_bind (leavesClient_forEach now fun x hx heq => hin ⟨x, hx, heq⟩)
        fun results => ?_
      exact leavesClient_finishScan now results

end Requests

/-! ## What the store holds of the heartbeat -/

section Stored

variable {h : Checked ClientHeartbeat} {s s' : Store}

/-- If its client is registered, the store holds the heartbeat: the client is active since. -/
def Heard (h : ClientHeartbeat) (s : Store) : Prop :=
  s.clientManifests.has h.clientId = true → ∃ row, s.clientHeartbeats.find? h.clientId = some row ∧
    row.status = .active ∧ row.lastHeartbeatAt = some h.observedAt

theorem SameClient.heard (hsame : SameClient h.1.clientId s s') (hheard : Heard h.1 s) :
    Heard h.1 s' := by
  intro hknown
  rw [hsame.registered] at hknown
  rw [hsame.beat]
  exact hheard hknown

/-- Storing a heartbeat of an active client: it is held from then on. -/
theorem heard_recordClientHeartbeat (hs : RowsOk (fun _ => True) s) (hactive : h.1.status = .active) :
    Heard h.1 ((recordClientHeartbeat h).run s).2 := by
  unfold recordClientHeartbeat
  rw [run_storeCall, run_bind, selectClientManifest, run_query]
  cases hfetched : fetched h.1.clientId ManifestRow.payload
      (s.clientManifests.find? h.1.clientId) with
  | ok m =>
    intro _
    have hrow (row : HeartbeatRow) (hid : row.clientId = h.1.clientId) :
        (s.clientHeartbeats.upsert row).find? h.1.clientId = some row := by
      rw [Table.find?_upsert]
      exact if_pos hid
    exact ⟨_, hrow _ rfl, hactive, rfl⟩
  | error e =>
    -- a registered client is found, as its manifest passes its own checks
    intro hknown
    change s.clientManifests.has h.1.clientId = true at hknown
    obtain ⟨row, hrow⟩ := Table.has_iff.mp hknown
    have hvalid := (hs.manifests row (Table.mem_of_find? hrow)).2
    have hfound : fetched h.1.clientId ManifestRow.payload
        (s.clientManifests.find? h.1.clientId) = .ok ⟨row.payload, hvalid⟩ :=
      fetched_eq_ok.mpr ⟨row, hrow, Model.build_of_valid hvalid⟩
    rw [hfound] at hfetched
    cases hfetched

variable {reference : DateTime} {seconds : Int}

/-- Once a fresh heartbeat is held, a scan that lists does not select the client. -/
theorem Heard.leavesClient_afterListing (hs : RowsOk (fun _ => True) s) (hheard : Heard h.1 s)
    (hfresh : FreshAt reference seconds h.1.observedAt) (auto : Bool) (now : DateTime) :
    LeavesClient h.1.clientId (afterListing reference seconds auto now s) := by
  rcases afterListing_cases now reference seconds auto s with ⟨e, hraised⟩ | ⟨statuses, stale,
    hstatuses, hstale, hgoes⟩
  · rw [hraised]
    trivial
  · rw [hgoes]
    refine Program.safe_bind (leavesClient_forEach now fun x hx heq => ?_)
      fun results => leavesClient_finishScan now results
    have hover := (age_of_staleSnapshots hstale x hx).2
    obtain ⟨hknown, -, time, hwatched, hage⟩ := watched_of_selected hs hstatuses hstale hx
    rw [heq] at hknown hwatched
    obtain ⟨row, hrow, hactive, hlast⟩ := hheard hknown
    have htime : time = h.1.observedAt := by
      have hconnected : ¬ row.status = .disconnected := by
        rw [hactive]
        exact nofun
      have hnow : watchedTime (some row) = row.lastHeartbeatAt := if_neg hconnected
      rw [hrow, hnow, hlast] at hwatched
      exact (Option.some.inj hwatched).symm
    subst htime
    have : reference.instant - h.1.observedAt.instant ≤ seconds * 1000000 := hfresh
    omega

/-- The client is registered and STALE, and its last heartbeat is this one. -/
def MarkedAfter (h : ClientHeartbeat) (s : Store) : Prop :=
  s.clientManifests.has h.clientId = true ∧ ∃ row, s.clientHeartbeats.find? h.clientId = some row ∧
    row.status = .stale ∧ row.lastHeartbeatAt = some h.observedAt

theorem SameClient.markedAfter (hsame : SameClient h.1.clientId s s')
    (hmarked : MarkedAfter h.1 s) : MarkedAfter h.1 s' := by
  obtain ⟨hknown, hrow⟩ := hmarked
  exact ⟨hsame.registered.trans hknown, hsame.beat ▸ hrow⟩

theorem MarkedAfter.staleButFresh (hmarked : MarkedAfter h.1 s)
    (hfresh : FreshAt reference seconds h.1.observedAt) :
    StaleButFresh h.1.clientId reference seconds s := by
  obtain ⟨hknown, row, hrow, hstale, hlast⟩ := hmarked
  exact ⟨hknown, row, _, hrow, hstale, hlast, hfresh⟩

/-- Marking a client whose heartbeat is held keeps the time of the heartbeat, or raises. -/
theorem Heard.markClientStale (hs : RowsOk (fun _ => True) s) (hheard : Heard h.1 s) :
    (∃ marked s', (markClientStale h.1.clientId).run s = (.ok marked, s') ∧ MarkedAfter h.1 s') ∨
      ∃ e s', (Vad.markClientStale h.1.clientId).run s = (.error e, s') := by
  cases hknown : s.clientManifests.has h.1.clientId with
  | false =>
    obtain ⟨e, hrun⟩ := run_markClientStale_unknown hknown
    exact Or.inr ⟨e, s, hrun⟩
  | true =>
    obtain ⟨marked, t, hmark, -⟩ := exists_markClientStale hs hknown
    obtain ⟨hmanifests, hbeats⟩ := run_markClientStale_registry h.1.clientId s
    have hstatus := (returns_markClientStale hs hmark).status h.1.clientId
    rw [if_pos rfl] at hstatus
    rw [show (Vad.markClientStale h.1.clientId).run s = (.ok marked, t) from hmark]
      at hmanifests hbeats
    obtain ⟨row, hrow, hactive, hlast⟩ := hheard hknown
    refine Or.inl ⟨marked, t, hmark, by rw [hmanifests]; exact hknown, ?_⟩
    rcases hbeats with hsame | ⟨lost, hwrite⟩
    · -- the row was written: it was active, and is stale now
      rw [Store.runtimeStatus, hsame, hrow] at hstatus
      cases (Option.some.inj hstatus).symm.trans hactive
    · refine ⟨staleBeat h.1.clientId (s.clientHeartbeats.find? h.1.clientId) lost, ?_, rfl, ?_⟩
      · show t.clientHeartbeats.find? h.1.clientId = _
        rw [hwrite, Table.find?_upsert]
        exact if_pos rfl
      · show (s.clientHeartbeats.find? h.1.clientId).bind HeartbeatRow.lastHeartbeatAt = _
        rw [hrow]
        exact hlast

end Stored

/-! ## The phases of a run -/

/-- When thread 0 is about to store the heartbeat, thread 1 has not listed the clients yet, or
    leaves the client alone from then on. -/
def HeardInTime (beat scan : Db Response) (clientId : String) (P : Pool Store PyError Response)
    (i : Nat) : Prop :=
  i = 0 → P.threads[0]? = some beat →
    P.threads[1]? = some scan ∨ ∃ q, P.threads[1]? = some q ∧ LeavesClient clientId q

section Phases

variable {o : Outside} {h : Checked ClientHeartbeat} {reference : DateTime} {seconds : Int}
  {auto : Bool} {now later : DateTime}

/-- The heartbeat is not stored yet. -/
structure Waiting (o : Outside) (h : Checked ClientHeartbeat) (scan : Db Response) (now : DateTime)
    (P : Pool Store PyError Response) : Prop where
  rows : RowsOk (fun _ => True) P.state
  threads : ∃ q, P.threads = [(Request.heartbeat h).perform o now, q] ∧
    (q = scan ∨ LeavesClient h.1.clientId q ∨ BoundToMark h.1.clientId q)

/-- The heartbeat is held, and nobody is about to touch the client. -/
structure HeardFirst (h : Checked ClientHeartbeat) (scan : Db Response)
    (P : Pool Store PyError Response) : Prop where
  rows : RowsOk (fun _ => True) P.state
  heard : Heard h.1 P.state
  threads : ∃ p q, P.threads = [p, q] ∧ LeavesClient h.1.clientId p ∧
    (q = scan ∨ LeavesClient h.1.clientId q)

/-- The scan is bound to mark the client after its heartbeat, has done so, or has raised. -/
structure Overtaken (h : Checked ClientHeartbeat) (P : Pool Store PyError Response) : Prop where
  rows : RowsOk (fun _ => True) P.state
  threads : ∃ p q, P.threads = [p, q] ∧ LeavesClient h.1.clientId p ∧
    (BoundToMark h.1.clientId q ∧ Heard h.1 P.state ∨
      LeavesClient h.1.clientId q ∧ MarkedAfter h.1 P.state ∨ ∃ e, q = .done (.error e))

/-- A call of a program that leaves the client alone. -/
theorem LeavesClient.call {clientId : String} {next : Store → Store} {cont : Store → Db Response}
    (hp : LeavesClient clientId (.call next cont)) {s : Store} (hs : RowsOk (fun _ => True) s) :
    SameClient clientId s (next s) ∧ RowsOk (fun _ => True) (next s) ∧
      LeavesClient clientId (cont s) := hp s hs

/-- The call of a program that is bound to mark the client: it leaves the client alone and the
    program is still bound to, or it marks the client and the rest leaves it alone. -/
theorem BoundToMark.call {clientId : String} {next : Store → Store} {cont : Store → Db Response}
    (hp : BoundToMark clientId (.call next cont)) {s : Store} (hs : RowsOk (fun _ => True) s) :
    (SameClient clientId s (next s) ∧ RowsOk (fun _ => True) (next s) ∧
      BoundToMark clientId (cont s)) ∨
    ∃ k : ClientStatusSnapshot → Db Response, next s = ((markClientStale clientId).run s).2 ∧
      cont s = (Program.done ((markClientStale clientId).run s).1 >>= k) ∧
      ∀ marked, LeavesClient clientId (k marked) := by
  rcases hp with ⟨k, heq, hk⟩ | hlater
  · right
    obtain ⟨rfl, rfl⟩ := Program.call.inj (heq.trans (Program.atomic_bind _ _))
    exact ⟨k, rfl, rfl, hk⟩
  · exact Or.inl (hlater s hs)

/-- Whatever the scan does before the heartbeat is stored, the heartbeat goes on waiting. -/
theorem Waiting.step {P : Pool Store PyError Response} {i : Nat}
    (hP : Waiting o h ((Request.staleScan reference seconds auto).perform o later) now P)
    (hi : i ≠ 0) :
    Waiting o h ((Request.staleScan reference seconds auto).perform o later) now (P.step i) := by
  obtain ⟨s, threads⟩ := P
  obtain ⟨hs, q, rfl, hq⟩ := hP
  change RowsOk (fun _ => True) s at hs
  rcases Pool.step_pair s ((Request.heartbeat h).perform o now) q i with hstep | ⟨rfl, -⟩ |
    ⟨rfl, next, cont, rfl, hstep⟩
  · rw [hstep]
    exact ⟨hs, q, rfl, hq⟩
  · exact absurd rfl hi
  · rw [hstep]
    rcases hq with hscan | hleaves | hbound
    · -- the scan lists
      rw [staleScan_call] at hscan
      obtain ⟨rfl, rfl⟩ := Program.call.inj hscan
      exact ⟨hs, _, rfl, Or.inr (afterListing_leaves_or_marks later hs)⟩
    · obtain ⟨-, hrows, hrest⟩ := hleaves.call hs
      exact ⟨hrows, _, rfl, Or.inr (Or.inl hrest)⟩
    · rcases hbound.call hs with ⟨-, hrows, hrest⟩ | ⟨k, hnext, hcont, hk⟩
      · exact ⟨hrows, _, rfl, Or.inr (Or.inr hrest)⟩
      · refine ⟨?_, _, rfl, Or.inr (Or.inl ?_)⟩
        · show RowsOk _ (next s)
          rw [hnext]
          exact (safe_markClientStale (fun _ _ => trivial) h.1.clientId).run_keeps hs
        · rw [hcont]
          exact leavesClient_rule.done_bind fun marked _ => hk marked

/-- The heartbeat is stored: in time, or when the scan is bound to mark the client. -/
theorem Waiting.store {P : Pool Store PyError Response} {scan : Db Response}
    (hP : Waiting o h scan now P) (hactive : h.1.status = .active) :
    (HeardFirst h scan (P.step 0) ∧
        HeardInTime ((Request.heartbeat h).perform o now) scan h.1.clientId P 0) ∨
      Overtaken h (P.step 0) ∧
        ¬ HeardInTime ((Request.heartbeat h).perform o now) scan h.1.clientId P 0 := by
  obtain ⟨s, threads⟩ := P
  obtain ⟨hs, q, rfl, hq⟩ := hP
  change RowsOk (fun _ => True) s at hs
  obtain ⟨rest, hcalls, hrest⟩ := @heartbeat_calls h.1.clientId o now h
  have hstep : (Pool.mk s [(Request.heartbeat h).perform o now, q]).step 0 =
      ⟨((recordClientHeartbeat h).run s).2,
        [Program.done ((recordClientHeartbeat h).run s).1 >>= rest, q]⟩ := by
    rw [hcalls]
    rfl
  have hrows : RowsOk (fun _ => True) ((recordClientHeartbeat h).run s).2 :=
    (anyRowsOk.recordClientHeartbeat h).run_keeps hs
  have hheard := heard_recordClientHeartbeat hs hactive
  have hothers : LeavesClient h.1.clientId
      (Program.done ((recordClientHeartbeat h).run s).1 >>= rest) :=
    leavesClient_rule.done_bind fun saved _ => hrest saved
  rw [hstep]
  by_cases hin : q = scan ∨ LeavesClient h.1.clientId q
  · refine Or.inl ⟨⟨hrows, hheard, _, q, rfl, hothers, hin⟩, fun _ _ => ?_⟩
    rcases hin with hscan | hleaves
    · exact Or.inl (congrArg some hscan)
    · exact Or.inr ⟨q, rfl, hleaves⟩
  · right
    have hbound : BoundToMark h.1.clientId q := by
      rcases hq with hscan | hleaves | hbound
      · exact absurd (Or.inl hscan) hin
      · exact absurd (Or.inr hleaves) hin
      · exact hbound
    refine ⟨⟨hrows, _, q, rfl, hothers, Or.inl ⟨hbound, hheard⟩⟩, fun hintime => hin ?_⟩
    rcases hintime rfl rfl with hscan | ⟨q', hget, hleaves⟩
    · exact Or.inl (Option.some.inj hscan)
    · exact Or.inr (Option.some.inj hget ▸ hleaves)

/-- Once it is heard in time, no call touches the client any more. -/
theorem HeardFirst.step {P : Pool Store PyError Response} {i : Nat}
    (hP : HeardFirst h ((Request.staleScan reference seconds auto).perform o later) P)
    (hfresh : FreshAt reference seconds h.1.observedAt) :
    HeardFirst h ((Request.staleScan reference seconds auto).perform o later) (P.step i) ∧
      SameClient h.1.clientId P.state (P.step i).state := by
  obtain ⟨s, threads⟩ := P
  obtain ⟨hs, hheard, p, q, rfl, hp, hq⟩ := hP
  change RowsOk (fun _ => True) s at hs
  change Heard h.1 s at hheard
  rcases Pool.step_pair s p q i with hstep | ⟨-, next, cont, rfl, hstep⟩ |
    ⟨-, next, cont, rfl, hstep⟩
  · rw [hstep]
    exact ⟨⟨hs, hheard, p, q, rfl, hp, hq⟩, .refl _ _⟩
  · rw [hstep]
    obtain ⟨hsame, hrows, hrest⟩ := hp.call hs
    exact ⟨⟨hrows, hsame.heard hheard, _, q, rfl, hrest, hq⟩, hsame⟩
  · rw [hstep]
    rcases hq with hscan | hleaves
    · rw [staleScan_call] at hscan
      obtain ⟨rfl, rfl⟩ := Program.call.inj hscan
      have hrest := hheard.leavesClient_afterListing hs hfresh auto later
      exact ⟨⟨hs, hheard, p, _, rfl, hp, Or.inr hrest⟩, .refl _ _⟩
    · obtain ⟨hsame, hrows, hrest⟩ := hleaves.call hs
      exact ⟨⟨hrows, hsame.heard hheard, p, _, rfl, hp, Or.inr hrest⟩, hsame⟩

/-- Once it is overtaken, it stays so. -/
theorem Overtaken.step {P : Pool Store PyError Response} {i : Nat} (hP : Overtaken h P) :
    Overtaken h (P.step i) := by
  obtain ⟨s, threads⟩ := P
  obtain ⟨hs, p, q, rfl, hp, hq⟩ := hP
  change RowsOk (fun _ => True) s at hs
  rcases Pool.step_pair s p q i with hstep | ⟨-, next, cont, rfl, hstep⟩ |
    ⟨-, next, cont, rfl, hstep⟩
  · rw [hstep]
    exact ⟨hs, p, q, rfl, hp, hq⟩
  · rw [hstep]
    obtain ⟨hsame, hrows, hrest⟩ := hp.call hs
    refine ⟨hrows, _, q, rfl, hrest, ?_⟩
    rcases hq with ⟨hbound, hheard⟩ | ⟨hleaves, hmarked⟩ | hraised
    · exact Or.inl ⟨hbound, hsame.heard hheard⟩
    · exact Or.inr (Or.inl ⟨hleaves, hsame.markedAfter hmarked⟩)
    · exact Or.inr (Or.inr hraised)
  · rw [hstep]
    rcases hq with ⟨hbound, hheard⟩ | ⟨hleaves, hmarked⟩ | ⟨e, hraised⟩
    · rcases hbound.call hs with ⟨hsame, hrows, hrest⟩ | ⟨k, hnext, hcont, hk⟩
      · exact ⟨hrows, p, _, rfl, hp, Or.inl ⟨hrest, hsame.heard hheard⟩⟩
      · -- the client is marked, and its heartbeat stays where it is
        have hrows : RowsOk (fun _ => True) (next s) := by
          rw [hnext]
          exact (safe_markClientStale (fun _ _ => trivial) h.1.clientId).run_keeps hs
        refine ⟨hrows, p, _, rfl, hp, Or.inr ?_⟩
        show LeavesClient h.1.clientId (cont s) ∧ MarkedAfter h.1 (next s) ∨ _
        rw [hnext, hcont]
        rcases Heard.markClientStale hs hheard with ⟨marked, s', hrun, hmarked⟩ | ⟨e, s', hrun⟩
        · rw [hrun]
          exact Or.inl ⟨hk marked, hmarked⟩
        · rw [hrun]
          exact Or.inr ⟨e, rfl⟩
    · obtain ⟨hsame, hrows, hrest⟩ := hleaves.call hs
      exact ⟨hrows, p, _, rfl, hp, Or.inr (Or.inl ⟨hrest, hsame.markedAfter hmarked⟩)⟩
    · cases hraised

end Phases

/-! ## The result -/

/-- A heartbeat (thread 0) and a stale scan (thread 1) over one store. -/
def beatAndScan (o : Outside) (s : Store) (h : Checked ClientHeartbeat) (reference : DateTime)
    (seconds : Int) (auto : Bool) (now later : DateTime) : Pool Store PyError Response :=
  poolOf o s [(.heartbeat h, now), (.staleScan reference seconds auto, later)]

/-- Every step of the run meets the condition. -/
def AlwaysInTime (o : Outside) (s : Store) (h : Checked ClientHeartbeat) (reference : DateTime)
    (seconds : Int) (auto : Bool) (now later : DateTime) (schedule : List Nat) : Prop :=
  Pool.Along (HeardInTime ((Request.heartbeat h).perform o now)
    ((Request.staleScan reference seconds auto).perform o later) h.1.clientId)
    (beatAndScan o s h reference seconds auto now later) schedule

/-- Both requests have returned. -/
def BothReturned (P : Pool Store PyError Response) : Prop :=
  ∀ p ∈ P.threads, ∃ r, p = .done (.ok r)

section Runs

variable {o : Outside} {s : Store} {h : Checked ClientHeartbeat} {reference : DateTime}
  {seconds : Int} {auto : Bool} {now later : DateTime}

theorem waiting_start (hs : Reachable s) : Waiting o h
    ((Request.staleScan reference seconds auto).perform o later) now
    (beatAndScan o s h reference seconds auto now later) :=
  ⟨hs.rowsOk, _, rfl, Or.inl rfl⟩

/-- A run along the condition waits for the heartbeat until its first call, and has heard it in
    time from then on. -/
theorem phase_of_inTime (hactive : h.1.status = .active)
    (hfresh : FreshAt reference seconds h.1.observedAt) :
    ∀ (calls : List Nat) (P : Pool Store PyError Response),
      Waiting o h ((Request.staleScan reference seconds auto).perform o later) now P →
      Pool.Along (HeardInTime ((Request.heartbeat h).perform o now)
        ((Request.staleScan reference seconds auto).perform o later) h.1.clientId) P calls →
      (0 ∉ calls → Waiting o h ((Request.staleScan reference seconds auto).perform o later) now
        (P.exec calls)) ∧
      (0 ∈ calls → HeardFirst h ((Request.staleScan reference seconds auto).perform o later)
        (P.exec calls)) := by
  intro calls
  induction calls with
  | nil => exact fun P hP _ => ⟨fun _ => hP, fun hin => absurd hin List.not_mem_nil⟩
  | cons i rest ih =>
    intro P hP halong
    by_cases hi : i = 0
    · subst hi
      refine ⟨fun hout => absurd (List.mem_cons_self ..) hout, fun _ => ?_⟩
      rcases hP.store hactive with ⟨hheard, -⟩ | ⟨-, hlate⟩
      · exact Pool.exec_invariant (fun Q j hQ => (hQ.step hfresh).1) rest _ hheard
      · exact absurd halong.1 hlate
    · obtain ⟨hout, hin⟩ := ih (P.step i) (hP.step hi) halong.2
      constructor
      · intro hnot
        exact hout fun hmem => hnot (List.mem_cons_of_mem i hmem)
      · intro hmem
        rcases List.mem_cons.mp hmem with heq | hmem
        · exact absurd heq.symm hi
        · exact hin hmem

/-- Along the condition nobody marks the client after its heartbeat. -/
theorem not_markedLate (hs : Reachable s) (hactive : h.1.status = .active)
    (hfresh : FreshAt reference seconds h.1.observedAt) {calls rest : List Nat}
    (halong : AlwaysInTime o s h reference seconds auto now later (calls ++ rest)) :
    ¬ MarkedLate h.1.clientId (beatAndScan o s h reference seconds auto now later) calls := by
  rintro ⟨before, i, after, rfl, hbeat, hmarks⟩
  rw [List.append_assoc] at halong
  have hbefore := ((Pool.along_append _ _ _).mp halong).1
  have hheard := (phase_of_inTime hactive hfresh before _ (waiting_start hs) hbefore).2 hbeat
  exact (hheard.step hfresh).2.not_marks hmarks

/-- Once the heartbeat is heard in time, the rest of the run meets the condition. -/
theorem HeardFirst.along (hfresh : FreshAt reference seconds h.1.observedAt) (beat : Db Response) :
    ∀ (calls : List Nat) (P : Pool Store PyError Response),
      HeardFirst h ((Request.staleScan reference seconds auto).perform o later) P →
      Pool.Along (HeardInTime beat ((Request.staleScan reference seconds auto).perform o later)
        h.1.clientId) P calls := by
  intro calls
  induction calls with
  | nil => exact fun _ _ => trivial
  | cons i rest ih =>
    intro P hP
    refine ⟨fun _ _ => ?_, ih _ (hP.step hfresh).1⟩
    obtain ⟨p, q, hthreads, -, hscan | hleaves⟩ := hP.threads
    · exact Or.inl (by rw [hthreads, hscan]; rfl)
    · exact Or.inr ⟨q, by rw [hthreads]; rfl, hleaves⟩

/-- A run that leaves the condition ends overtaken. -/
theorem overtaken_of_late (hactive : h.1.status = .active)
    (hfresh : FreshAt reference seconds h.1.observedAt) :
    ∀ (calls : List Nat) (P : Pool Store PyError Response),
      Waiting o h ((Request.staleScan reference seconds auto).perform o later) now P →
      ¬ Pool.Along (HeardInTime ((Request.heartbeat h).perform o now)
        ((Request.staleScan reference seconds auto).perform o later) h.1.clientId) P calls →
      Overtaken h (P.exec calls) := by
  intro calls
  induction calls with
  | nil => exact fun P _ hlate => absurd trivial hlate
  | cons i rest ih =>
    intro P hP hlate
    by_cases hi : i = 0
    · subst hi
      rcases hP.store hactive with ⟨hheard, hintime⟩ | ⟨hovertaken, -⟩
      · exact absurd ⟨hintime, hheard.along hfresh _ rest _⟩ hlate
      · exact Pool.exec_invariant (fun Q j hQ => hQ.step) rest _ hovertaken
    · exact ih (P.step i) (hP.step hi) fun halong => hlate ⟨fun hzero => absurd hzero hi, halong⟩

/-- Once both have returned, an overtaken client is STALE with a fresh heartbeat. -/
theorem Overtaken.staleButFresh {P : Pool Store PyError Response} (hP : Overtaken h P)
    (hfresh : FreshAt reference seconds h.1.observedAt) (hreturned : BothReturned P) :
    StaleButFresh h.1.clientId reference seconds P.state := by
  obtain ⟨-, p, q, hthreads, -, hq⟩ := hP
  obtain ⟨r, rfl⟩ := hreturned q (by rw [hthreads]; simp)
  rcases hq with ⟨hbound, -⟩ | ⟨-, hmarked⟩ | ⟨e, hraised⟩
  · exact hbound.elim
  · exact hmarked.staleButFresh hfresh
  · cases hraised

theorem Heard.not_staleButFresh (hheard : Heard h.1 s) :
    ¬ StaleButFresh h.1.clientId reference seconds s := by
  rintro ⟨hknown, row, time, hrow, hstale, -, -⟩
  obtain ⟨row', hrow', hactive, -⟩ := hheard hknown
  cases hrow.symm.trans hrow'
  cases hstale.symm.trans hactive

end Runs

/-- Under every schedule of a heartbeat and a stale scan in whose run the heartbeat is stored in
    time, the client is spared, whatever the two requests end with; and when both of them return
    it is spared in no other run. -/
theorem liveClient_spared_iff (o : Outside) {s : Store} (hs : Reachable s)
    (h : Checked ClientHeartbeat) (hactive : h.1.status = .active) (reference : DateTime)
    (seconds : Int) (hfresh : FreshAt reference seconds h.1.observedAt) (auto : Bool)
    (now later : DateTime) (schedule : List Nat) :
    (AlwaysInTime o s h reference seconds auto now later schedule →
      Spared h.1.clientId reference seconds (beatAndScan o s h reference seconds auto now later)
        schedule) ∧
    (BothReturned ((beatAndScan o s h reference seconds auto now later).exec schedule) →
      Spared h.1.clientId reference seconds (beatAndScan o s h reference seconds auto now later)
        schedule →
      AlwaysInTime o s h reference seconds auto now later schedule) := by
  constructor
  · intro halong
    have hlate (before : List Nat) (i : Nat) (after : List Nat)
        (hsplit : schedule = before ++ i :: after) :
        ¬ MarkedLate h.1.clientId (beatAndScan o s h reference seconds auto now later)
          (before ++ [i]) := by
      rw [hsplit, ← List.singleton_append, ← List.append_assoc] at halong
      exact not_markedLate hs hactive hfresh halong
    refine ⟨fun hended => ?_, fun before i after hsplit hmarked => ?_,
      fun before i after hsplit hmarked => ?_⟩
    · obtain ⟨hout, hin⟩ := phase_of_inTime hactive hfresh schedule _ (waiting_start hs) halong
      by_cases hbeat : 0 ∈ schedule
      · exact (hin hbeat).heard.not_staleButFresh
      · -- a request that has not begun has not ended
        obtain ⟨-, q, hthreads, -⟩ := hout hbeat
        obtain ⟨rest, hcalls, -⟩ := @heartbeat_calls h.1.clientId o now h
        obtain ⟨r, hdone⟩ := hended _ (by rw [hthreads]; exact List.mem_cons_self ..)
        rw [hcalls] at hdone
        cases hdone
    · exact absurd hmarked (hlate before i after hsplit)
    · exact absurd hmarked (hlate before i after hsplit)
  · intro hreturned hspared
    by_contra hlate
    have hovertaken := overtaken_of_late hactive hfresh schedule _ (waiting_start hs) hlate
    have hended : Ended ((beatAndScan o s h reference seconds auto now later).exec schedule) :=
      fun p hp => let ⟨r, hr⟩ := hreturned p hp; ⟨.ok r, hr⟩
    exact hspared.status hended (hovertaken.staleButFresh hfresh hreturned)

/-! ## A heartbeat in the gap -/

/-- The silent client speaks again, two minutes after the epoch. -/
def lateBeat : Checked ClientHeartbeat :=
  ⟨{ clientId := "c1", actor := "ann", role := "builder", observedAt := twoMinutes }, rfl,
    by decide⟩

/-- It does so while a scan of that moment looks for clients silent for a minute. -/
def gapPool : Pool Store PyError Response :=
  beatAndScan sampleOutside silentStore lateBeat twoMinutes 60 true twoMinutes twoMinutes

theorem lateBeat_fresh : FreshAt twoMinutes 60 lateBeat.1.observedAt := by
  show (120000000 : Int) - 120000000 ≤ 60 * 1000000
  omega

/-- The heartbeat first: the scan finds the client alive. -/
theorem liveClient_spared_inTurn :
    AlwaysInTime sampleOutside silentStore lateBeat twoMinutes 60 true twoMinutes twoMinutes
        [0, 0, 0, 0, 1] ∧
      Spared "c1" twoMinutes 60 gapPool [0, 0, 0, 0, 1] := by
  have halong : AlwaysInTime sampleOutside silentStore lateBeat twoMinutes 60 true twoMinutes
      twoMinutes [0, 0, 0, 0, 1] := by
    refine ⟨fun _ _ => Or.inl rfl, ?_⟩
    have hactive : lateBeat.1.status = .active := rfl
    rcases (waiting_start silentStore_reachable).store hactive with ⟨hheard, -⟩ | ⟨-, hlate⟩
    · exact hheard.along lateBeat_fresh _ [0, 0, 0, 1] _
    · exact absurd (fun _ _ => Or.inl rfl) hlate
  exact ⟨halong, (liveClient_spared_iff sampleOutside silentStore_reachable lateBeat rfl twoMinutes
    60 lateBeat_fresh true twoMinutes twoMinutes [0, 0, 0, 0, 1]).1 halong⟩

/-- A request that has returned. -/
def hasReturned : Db Response → Bool
  | .done (.ok _) => true
  | _ => false

theorem bothReturned_of_all {P : Pool Store PyError Response}
    (h : P.threads.all hasReturned = true) : BothReturned P := by
  intro p hp
  have hp := List.all_eq_true.mp h p hp
  match p with
  | .done (.ok r) => exact ⟨r, rfl⟩

/-- The scan lists the clients, the whole heartbeat runs, and the scan goes on: both return, and the
    client is STALE though it was heard of at the time of the scan.  Its lease, which was active
    when the heartbeat was stored, is expired by the next call, and its work is requeued. -/
theorem beat_overtaken :
    BothReturned (gapPool.exec ([1, 0, 0, 0, 0] ++ List.replicate 15 1)) ∧
    ¬ Spared "c1" twoMinutes 60 gapPool ([1, 0, 0, 0, 0] ++ List.replicate 15 1) ∧
    ((gapPool.exec [1, 0, 0, 0, 0]).state.taskLeases.find? "t1").map LeaseRow.status =
      some .active ∧
    ((gapPool.exec [1, 0, 0, 0, 0, 1]).state.taskLeases.find? "t1").map LeaseRow.status =
      some .expired ∧
    ((gapPool.exec ([1, 0, 0, 0, 0] ++ List.replicate 15 1)).state.workItems.find? "w1").map
      WorkItemRow.status = some .requeued := by
  have hreturned : BothReturned (gapPool.exec ([1, 0, 0, 0, 0] ++ List.replicate 15 1)) :=
    bothReturned_of_all (by decide +kernel)
  have hknown : (gapPool.exec ([1, 0, 0, 0, 0] ++ List.replicate 15 1)).state.clientManifests.has
      "c1" = true := by decide +kernel
  have hrow : ((gapPool.exec ([1, 0, 0, 0, 0] ++ List.replicate 15 1)).state.clientHeartbeats.find?
      "c1").map (fun row => (row.status, row.lastHeartbeatAt)) =
        some (.stale, some twoMinutes) := by decide +kernel
  refine ⟨hreturned, fun hspared => ?_, by decide +kernel, by decide +kernel, by decide +kernel⟩
  obtain ⟨row, hfind, hcolumns⟩ := Option.map_eq_some_iff.mp hrow
  obtain ⟨hstale, hlast⟩ := Prod.mk.inj hcolumns
  refine hspared.status (fun p hp => ?_) ⟨hknown, row, _, hfind, hstale, hlast, lateBeat_fresh⟩
  obtain ⟨r, hr⟩ := hreturned p hp
  exact ⟨.ok r, hr⟩

end Vad
