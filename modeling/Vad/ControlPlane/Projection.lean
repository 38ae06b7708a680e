/-
  The dashboard projection (`vad/control_plane/projection.py`): what the dashboard shows, rebuilt
  from the events of the ledger alone.

  1. **Program** — the events in order, folded into counters, task cards, plugin entries, the last
     time each client was seen, and its explicit status (`projectEvent`); then the stale clients are
     read off the last two.

  2. **Specification** — a client is listed as stale exactly when one of its events says `stale`, or
     when its latest event is older than the threshold (`mem_staleClients`).  The order of the
     events takes no part in that: the last time seen is a maximum (`Projected.seen`), and an
     explicit status is never taken back (`Projected.explicit`).

  Only `stale` of the two explicit statuses is a status of events.
-/
import Vad.ControlPlane.Events
import Vad.Lib.Dict
import Mathlib.Data.List.Induction

namespace Vad

open Keyed (RecordId)

def ControlPlaneEventStatus.value : ControlPlaneEventStatus → String
  | active => "active"
  | passed => "passed"
  | failed => "failed"
  | blocked => "blocked"
  | needsHuman => "needs_human"
  | stale => "stale"

/-- An entry of `activity` and of `event_timeline`. -/
structure ActivityEntry where
  activityId : RecordId
  eventId : RecordId
  runId : Option String
  taskId : Option String
  kind : String
  status : String
  client : String
  clientId : String
  actor : String
  role : String
  summary : String
  createdAt : String
  evidenceDigest : Option String

/-- An entry of `task_board`. -/
structure TaskBoardEntry where
  taskId : String
  runId : Option String
  client : String
  clientId : String
  actor : String
  role : String
  status : String
  kind : String
  summary : String
  updatedAt : String
  eventId : RecordId

/-- An entry of `plugin_status`. -/
structure PluginStatusEntry where
  clientId : String
  connectionId : String
  status : String
  lastSeenAt : String
  lastEventId : RecordId
  role : String
  actor : String

/-- What `build_dashboard_projection` returns; `event_timeline` is `activity` once more. -/
structure DashboardProjection where
  activity : List ActivityEntry
  eventTimeline : List ActivityEntry
  statusCounts : Dict Nat
  clientCounts : Dict Nat
  kindCounts : Dict Nat
  taskBoard : List TaskBoardEntry
  pluginStatus : List PluginStatusEntry
  staleClients : List String

/-- The local variables of the loop. -/
structure ProjectionState where
  statusCounts : Dict Nat := []
  clientCounts : Dict Nat := []
  kindCounts : Dict Nat := []
  taskBoard : Dict TaskBoardEntry := []
  plugins : Dict PluginStatusEntry := []
  lastSeen : Dict DateTime := []
  explicitClientStatus : Dict String := []
  activity : List ActivityEntry := []

/-! ## The program -/

/-- `_client_status`. -/
def clientStatus (seenAt now : DateTime) (staleAfterSeconds : Int) : String :=
  if staleAfterSeconds * 1000000 < now.normalizeTime.instant - seenAt.normalizeTime.instant then
    "stale"
  else "active"

/-- `event.client_label or event.client_id`. -/
def ControlPlaneEvent.client (e : ControlPlaneEvent) : String :=
  match e.clientLabel with
  | none => e.clientId
  | some label => if label = "" then e.clientId else label

/-- `counts[key] = counts.get(key, 0) + 1`. -/
def counted (counts : Dict Nat) (key : String) : Dict Nat :=
  Dict.set counts key ((Dict.get counts key).getD 0 + 1)

/-- `max(a, b)` of two times. -/
def laterTime (a b : DateTime) : DateTime := if a.instant < b.instant then b else a

/-- `value if value else default` of a status that may be missing or empty. -/
def statusOr (explicit : Option String) (status : String) : String :=
  match explicit with
  | none => status
  | some value => if value = "" then status else value

/-- The statuses of events that speak of the client. -/
def explicitStatuses : List String := ["stale", "disconnected"]

/-- One turn of the loop. -/
def projectEvent (now : DateTime) (staleAfterSeconds : Int) (st : ProjectionState)
    (e : ControlPlaneEvent) : ProjectionState :=
  let status := e.status.value
  let client := e.client
  let kind := e.kind.value
  let createdAt := e.createdAt.normalizeTime
  let explicit := if status ∈ explicitStatuses then
    Dict.set st.explicitClientStatus client status else st.explicitClientStatus
  { statusCounts := counted st.statusCounts status
    clientCounts := counted st.clientCounts client
    kindCounts := counted st.kindCounts kind
    lastSeen := Dict.set st.lastSeen client
      (laterTime ((Dict.get st.lastSeen client).getD createdAt) createdAt)
    explicitClientStatus := explicit
    activity := st.activity ++ [{
      activityId := e.eventId
      eventId := e.eventId
      runId := e.runId
      taskId := e.taskId
      kind := kind
      status := status
      client := client
      clientId := e.clientId
      actor := e.actor
      role := e.role
      summary := e.summary
      createdAt := createdAt.isoformat
      evidenceDigest := e.evidenceDigest }]
    taskBoard := match e.taskId with
      | none => st.taskBoard
      | some taskId => if taskId = "" then st.taskBoard else Dict.set st.taskBoard taskId {
          taskId := taskId
          runId := e.runId
          client := client
          clientId := e.clientId
          actor := e.actor
          role := e.role
          status := status
          kind := kind
          summary := e.summary
          updatedAt := createdAt.isoformat
          eventId := e.eventId }
    plugins := if e.kind = .heartbeat ∨ e.kind = .message then Dict.set st.plugins client {
        clientId := client
        connectionId := e.clientId
        status := statusOr (Dict.get explicit client) (clientStatus createdAt now staleAfterSeconds)
        lastSeenAt := createdAt.isoformat
        lastEventId := e.eventId
        role := e.role
        actor := e.actor }
      else st.plugins }

/-- The order of the events. -/
def projectionOrder (a b : ControlPlaneEvent) : Bool :=
  orderedBy [compare a.sequence b.sequence, compare a.createdAt.instant b.createdAt.instant,
    compare (recordIdText "control-plane-event-" a.eventId)
      (recordIdText "control-plane-event-" b.eventId)]

/-- Is a client stale that was last seen then? -/
def seenStale (explicit : Dict String) (now : DateTime) (staleAfterSeconds : Int)
    (seen : String × DateTime) : Bool :=
  Dict.get explicit seen.1 = some "stale" || clientStatus seen.2 now staleAfterSeconds = "stale"

/-- `if client in plugins: plugins[client]["status"] = "stale"`. -/
def markPluginStale (plugins : Dict PluginStatusEntry) (client : String) : Dict PluginStatusEntry :=
  match Dict.get plugins client with
  | none => plugins
  | some plugin => Dict.set plugins client { plugin with status := "stale" }

/-- `build_dashboard_projection`. -/
def buildDashboardProjection (events : List ControlPlaneEvent) (now : DateTime)
    (staleAfterSeconds : Int) : DashboardProjection :=
  let ordered := events.insertionSort (fun a b => projectionOrder a b = true)
  let st := ordered.foldl (projectEvent now staleAfterSeconds) {}
  let staleClients := ((sortedItems st.lastSeen).filter
    (seenStale st.explicitClientStatus now staleAfterSeconds)).map Prod.fst
  { activity := st.activity
    eventTimeline := st.activity
    statusCounts := sortedItems st.statusCounts
    clientCounts := sortedItems st.clientCounts
    kindCounts := sortedItems st.kindCounts
    taskBoard := (sortedItems st.taskBoard).map Prod.snd
    pluginStatus := (sortedItems (staleClients.foldl markPluginStale st.plugins)).map Prod.snd
    staleClients := staleClients }

/-! ## What the loop has seen -/

section Loop

variable {now : DateTime} {seconds : Int} {events : List ControlPlaneEvent} {st : ProjectionState}

@[simp] theorem DateTime.instant_normalizeTime (t : DateTime) :
    t.normalizeTime.instant = t.instant := by
  show t.instant - 0 * 1000000 = t.instant
  omega

theorem clientStatus_eq_stale {seenAt : DateTime} :
    clientStatus seenAt now seconds = "stale" ↔
      seconds * 1000000 < now.instant - seenAt.instant := by
  unfold clientStatus
  rw [DateTime.instant_normalizeTime, DateTime.instant_normalizeTime]
  split
  · rename_i h
    exact ⟨fun _ => h, fun _ => rfl⟩
  · rename_i h
    exact ⟨fun heq => absurd heq (by decide), fun h' => absurd h' h⟩

/-- Of the statuses of events only `stale` is explicit. -/
theorem explicit_iff (status : ControlPlaneEventStatus) :
    status.value ∈ explicitStatuses ↔ status = .stale := by
  cases status <;> decide

/-- The later of two times is one of them, and not before the other. -/
theorem laterTime_cases (a b : DateTime) :
    (laterTime a b = a ∨ laterTime a b = b) ∧ a.instant ≤ (laterTime a b).instant ∧
      b.instant ≤ (laterTime a b).instant := by
  unfold laterTime
  split
  · rename_i h
    exact ⟨Or.inr rfl, by omega, le_refl _⟩
  · rename_i h
    exact ⟨Or.inl rfl, le_refl _, by omega⟩

/-- What the variables of the loop say about the events it has been through. -/
structure Projected (events : List ControlPlaneEvent) (st : ProjectionState) : Prop where
  keys : st.lastSeen.KeysNodup
  all : ∀ e ∈ events, ∃ t, Dict.get st.lastSeen e.client = some t
  seen : ∀ client t, Dict.get st.lastSeen client = some t →
    (∃ e ∈ events, e.client = client ∧ e.createdAt.instant = t.instant) ∧
      ∀ e ∈ events, e.client = client → e.createdAt.instant ≤ t.instant
  explicit : ∀ client, Dict.get st.explicitClientStatus client = some "stale" ↔
    ∃ e ∈ events, e.client = client ∧ e.status = .stale

theorem projected_nil : Projected [] {} where
  keys := List.nodup_nil
  all e he := absurd he List.not_mem_nil
  seen client t h := by cases h
  explicit client := by simp [Dict.get]

/-- One turn of the loop. -/
theorem Projected.step (h : Projected events st) (e : ControlPlaneEvent) :
    Projected (events ++ [e]) (projectEvent now seconds st e) := by
  have hsnoc {P : ControlPlaneEvent → Prop} :
      (∃ x ∈ events ++ [e], P x) ↔ (∃ x ∈ events, P x) ∨ P e := by
    simp only [List.mem_append, List.mem_singleton, or_and_right, exists_or, exists_eq_left]
  refine ⟨Dict.keysNodup_set h.keys _ _, fun x hx => ?_, fun client t ht => ?_, fun client => ?_⟩
  · show ∃ t, Dict.get (Dict.set st.lastSeen e.client _) x.client = some t
    rw [Dict.get_set]
    by_cases hsame : e.client = x.client
    · exact ⟨_, if_pos hsame⟩
    · rw [if_neg hsame]
      rcases List.mem_append.mp hx with hx | hx
      · exact h.all x hx
      · rw [List.mem_singleton.mp hx] at hsame
        exact absurd rfl hsame
  · have hset : Dict.get (Dict.set st.lastSeen e.client (laterTime
        ((Dict.get st.lastSeen e.client).getD e.createdAt.normalizeTime)
        e.createdAt.normalizeTime)) client = some t := ht
    rw [Dict.get_set] at hset
    by_cases hsame : e.client = client
    · rw [if_pos hsame] at hset
      subst hsame
      have ht' := Option.some.inj hset
      obtain ⟨hor, hbefore, hhere⟩ := laterTime_cases
        ((Dict.get st.lastSeen e.client).getD e.createdAt.normalizeTime) e.createdAt.normalizeTime
      rw [ht'] at hor hbefore hhere
      rw [DateTime.instant_normalizeTime] at hhere
      refine ⟨?_, fun x hx hclient => ?_⟩
      · rw [hsnoc]
        cases hold : Dict.get st.lastSeen e.client with
        | none =>
          rw [hold] at hor
          refine Or.inr ⟨rfl, ?_⟩
          rcases hor with hor | hor <;> rw [hor] <;> exact (DateTime.instant_normalizeTime _).symm
        | some old =>
          rw [hold] at hor
          rcases hor with hor | hor
          · obtain ⟨x, hx, hclient, htime⟩ := (h.seen e.client old hold).1
            exact Or.inl ⟨x, hx, hclient, by rw [hor]; exact htime⟩
          · exact Or.inr ⟨rfl, by rw [hor]; exact (DateTime.instant_normalizeTime _).symm⟩
      · rcases List.mem_append.mp hx with hx | hx
        · -- an earlier event of the client is not after the time seen before
          obtain ⟨old, hold⟩ := h.all x hx
          rw [hclient] at hold
          rw [hold] at hbefore
          exact le_trans ((h.seen e.client old hold).2 x hx hclient) hbefore
        · rw [List.mem_singleton.mp hx]
          exact hhere
    · rw [if_neg hsame] at hset
      obtain ⟨⟨x, hx, hclient, htime⟩, hall⟩ := h.seen client t hset
      refine ⟨⟨x, List.mem_append_left _ hx, hclient, htime⟩, fun y hy hyc => ?_⟩
      rcases List.mem_append.mp hy with hy | hy
      · exact hall y hy hyc
      · rw [List.mem_singleton.mp hy] at hyc
        exact absurd hyc hsame
  · rw [hsnoc]
    show Dict.get (if e.status.value ∈ explicitStatuses then
      Dict.set st.explicitClientStatus e.client e.status.value
      else st.explicitClientStatus) client = some "stale" ↔ _
    by_cases hstale : e.status = .stale
    · rw [if_pos ((explicit_iff e.status).mpr hstale), Dict.get_set, hstale]
      by_cases hsame : e.client = client
      · rw [if_pos hsame]
        exact ⟨fun _ => Or.inr ⟨hsame, rfl⟩, fun _ => rfl⟩
      · rw [if_neg hsame, h.explicit client]
        exact ⟨Or.inl, fun hor => hor.resolve_right fun hne => hsame hne.1⟩
    · rw [if_neg (fun hin => hstale ((explicit_iff e.status).mp hin)), h.explicit client]
      exact ⟨Or.inl, fun hor => hor.resolve_right fun hne => hstale hne.2⟩

/-- The loop over all events. -/
theorem projected_foldl (now : DateTime) (seconds : Int) (events : List ControlPlaneEvent) :
    Projected events (events.foldl (projectEvent now seconds) {}) := by
  induction events using List.reverseRecOn with
  | nil => exact projected_nil
  | append_singleton events e ih =>
    rw [List.foldl_append]
    exact ih.step e

end Loop

/-- A client is listed as stale when one of its events says so, or when it has events and all of
    them are older than the threshold. -/
theorem mem_staleClients {events : List ControlPlaneEvent} {now : DateTime} {seconds : Int}
    {client : String} :
    client ∈ (buildDashboardProjection events now seconds).staleClients ↔
      (∃ e ∈ events, e.client = client ∧ e.status = .stale) ∨
        ((∃ e ∈ events, e.client = client) ∧ ∀ e ∈ events, e.client = client →
          seconds * 1000000 < now.instant - e.createdAt.instant) := by
  have hmem : ∀ e, e ∈ events.insertionSort (fun a b => projectionOrder a b = true) ↔ e ∈ events :=
    fun e => List.mem_insertionSort _
  have hstate := projected_foldl now seconds
    (events.insertionSort (fun a b => projectionOrder a b = true))
  generalize hst : (events.insertionSort (fun a b => projectionOrder a b = true)).foldl
    (projectEvent now seconds) {} = st at hstate
  have hlisted : client ∈ (buildDashboardProjection events now seconds).staleClients ↔
      ∃ t, Dict.get st.lastSeen client = some t ∧
        (Dict.get st.explicitClientStatus client = some "stale" ∨
          clientStatus t now seconds = "stale") := by
    unfold buildDashboardProjection
    simp only [hst, List.mem_map, List.mem_filter, mem_sortedItems, seenStale, Bool.or_eq_true,
      decide_eq_true_eq]
    constructor
    · rintro ⟨⟨name, t⟩, ⟨hin, hstale⟩, rfl⟩
      exact ⟨t, (Dict.mem_iff_get hstate.keys).mp hin, hstale⟩
    · rintro ⟨t, hget, hstale⟩
      exact ⟨(client, t), ⟨(Dict.mem_iff_get hstate.keys).mpr hget, hstale⟩, rfl⟩
  rw [hlisted]
  constructor
  · rintro ⟨t, hget, hexplicit | hage⟩
    · obtain ⟨e, he, hclient, hstale⟩ := (hstate.explicit client).mp hexplicit
      exact Or.inl ⟨e, (hmem e).mp he, hclient, hstale⟩
    · obtain ⟨⟨e, he, hclient, -⟩, hall⟩ := hstate.seen client t hget
      refine Or.inr ⟨⟨e, (hmem e).mp he, hclient⟩, fun x hx hxc => ?_⟩
      have hbound := hall x ((hmem x).mpr hx) hxc
      have hover := clientStatus_eq_stale.mp hage
      omega
  · rintro (⟨e, he, hclient, hstale⟩ | ⟨⟨e, he, hclient⟩, hall⟩)
    · obtain ⟨t, hget⟩ := hstate.all e ((hmem e).mpr he)
      rw [hclient] at hget
      exact ⟨t, hget, Or.inl ((hstate.explicit client).mpr
        ⟨e, (hmem e).mpr he, hclient, hstale⟩)⟩
    · obtain ⟨t, hget⟩ := hstate.all e ((hmem e).mpr he)
      rw [hclient] at hget
      obtain ⟨⟨x, hx, hxc, htime⟩, -⟩ := hstate.seen client t hget
      have hover := hall x ((hmem x).mp hx) hxc
      rw [htime] at hover
      exact ⟨t, hget, Or.inr (clientStatus_eq_stale.mpr hover)⟩

end Vad
