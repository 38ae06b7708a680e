/-
  The dashboard projection does not depend on the order in which it is given the events, and it
  loses none of them.

  1. **Order** — the events are sorted by sequence number, UTC time and event id
     (`projectionKey`).  Distinct ids leave no ties, so two lists of the same events are sorted into
     one list (`orderedEvents_perm`), and the rest of the projection sees only that list.

  2. **Loop** — one invariant says what the variables hold after a prefix of that list (`Folded`):
     each dictionary of counts sums to its length, the activity has one entry of each event, and the
     entry of a task is the one of its last event.

  3. **Result** (`projection_lossless`) — the invariant after the last event.
-/
import Vad.ControlPlane.Projection
import Mathlib.Algebra.BigOperators.Group.List.Basic
import Mathlib.Algebra.GroupWithZero.Nat

namespace Vad

/-! ## The order of the events -/

/-- The event id as a text. -/
def eventIdText (e : ControlPlaneEvent) : String := recordIdText "control-plane-event-" e.eventId

/-- The sort key of an event: sequence number, UTC time, event id. -/
def projectionKey (e : ControlPlaneEvent) : ℕ ×ₗ ℤ ×ₗ String :=
  toLex (e.sequence, toLex (e.createdAt.instant, eventIdText e))

/-- The events in the order in which the loop takes them. -/
def orderedEvents (events : List ControlPlaneEvent) : List ControlPlaneEvent :=
  events.insertionSort (fun a b => projectionOrder a b = true)

theorem projectionOrder_iff {a b : ControlPlaneEvent} :
    projectionOrder a b = true ↔ projectionKey a ≤ projectionKey b := by
  unfold projectionOrder projectionKey
  exact orderedBy_three ..

theorem orderedEvents_perm (events : List ControlPlaneEvent) : (orderedEvents events).Perm events :=
  List.perm_insertionSort _ events

instance : Std.Total fun a b : ControlPlaneEvent => projectionOrder a b = true :=
  ⟨fun a b => by
    rw [projectionOrder_iff, projectionOrder_iff]
    exact le_total _ _⟩

instance : IsTrans ControlPlaneEvent fun a b => projectionOrder a b = true :=
  ⟨fun _ _ _ hab hbc => projectionOrder_iff.mpr
    (le_trans (projectionOrder_iff.mp hab) (projectionOrder_iff.mp hbc))⟩

/-- The events come in the order of their keys. -/
theorem orderedEvents_sorted (events : List ControlPlaneEvent) :
    (orderedEvents events).Pairwise (fun a b => projectionKey a ≤ projectionKey b) :=
  (List.pairwise_insertionSort _ events).imp projectionOrder_iff.mp

/-- Events with distinct ids have distinct keys. -/
theorem eq_of_projectionKey {events : List ControlPlaneEvent}
    (hids : (events.map eventIdText).Nodup) {a b : ControlPlaneEvent} (ha : a ∈ events)
    (hb : b ∈ events) (hkey : projectionKey a = projectionKey b) : a = b := by
  have hid : eventIdText a = eventIdText b :=
    congrArg (fun key : ℕ ×ₗ ℤ ×ₗ String => (ofLex (ofLex key).2).2) hkey
  exact List.inj_on_of_nodup_map hids ha hb hid

/-- The same events are ordered in one way. -/
theorem orderedEvents_of_perm {events events' : List ControlPlaneEvent}
    (hids : (events.map eventIdText).Nodup) (hperm : events'.Perm events) :
    orderedEvents events' = orderedEvents events := by
  refine List.Perm.eq_of_pairwise (fun a b ha hb hab hba => ?_) (orderedEvents_sorted events')
    (orderedEvents_sorted events)
    ((orderedEvents_perm events').trans (hperm.trans (orderedEvents_perm events).symm))
  have ha' : a ∈ events := hperm.mem_iff.mp ((orderedEvents_perm events').mem_iff.mp ha)
  have hb' : b ∈ events := (orderedEvents_perm events).mem_iff.mp hb
  exact eq_of_projectionKey hids ha' hb' (le_antisymm hab hba)

/-! ## What the loop leaves of each event -/

/-- The entry of an event in the activity. -/
def activityEntry (e : ControlPlaneEvent) : ActivityEntry where
  activityId := e.eventId
  eventId := e.eventId
  runId := e.runId
  taskId := e.taskId
  kind := e.kind.value
  status := e.status.value
  client := e.client
  clientId := e.clientId
  actor := e.actor
  role := e.role
  summary := e.summary
  createdAt := e.createdAt.normalizeTime.isoformat
  evidenceDigest := e.evidenceDigest

/-- The entry of a task on the board when this is the last event of the task. -/
def taskBoardEntry (taskId : String) (e : ControlPlaneEvent) : TaskBoardEntry where
  taskId := taskId
  runId := e.runId
  client := e.client
  clientId := e.clientId
  actor := e.actor
  role := e.role
  status := e.status.value
  kind := e.kind.value
  summary := e.summary
  updatedAt := e.createdAt.normalizeTime.isoformat
  eventId := e.eventId

/-- The last of the events about the task. -/
def lastEvent (events : List ControlPlaneEvent) (taskId : String) : Option ControlPlaneEvent :=
  (events.filter fun e => e.taskId = some taskId).getLast?

theorem lastEvent_snoc (events : List ControlPlaneEvent) (e : ControlPlaneEvent) (taskId : String) :
    lastEvent (events ++ [e]) taskId =
      if e.taskId = some taskId then some e else lastEvent events taskId := by
  unfold lastEvent
  rw [List.filter_append]
  by_cases h : e.taskId = some taskId
  · rw [if_pos h, List.filter_cons_of_pos (by simpa using h), List.filter_nil]
    exact List.getLast?_concat
  · rw [if_neg h, List.filter_cons_of_neg (by simpa using h), List.filter_nil, List.append_nil]

/-- The sum of all counts. -/
def total (counts : Dict Nat) : Nat := (counts.map Prod.snd).sum

/-- One more is counted, under whichever key. -/
theorem total_counted (counts : Dict Nat) (key : String) :
    total (counted counts key) = total counts + 1 := by
  unfold counted
  induction counts with
  | nil => rfl
  | cons e rest ih =>
    obtain ⟨name, n⟩ := e
    by_cases he : name = key
    · have hget : Dict.get ((name, n) :: rest) key = some n := by simp [Dict.get, he]
      rw [hget, Dict.set, if_pos he]
      show n + 1 + total rest = n + total rest + 1
      omega
    · have hget : Dict.get ((name, n) :: rest) key = Dict.get rest key := by simp [Dict.get, he]
      rw [hget, Dict.set, if_neg he]
      show n + total (Dict.set rest key ((Dict.get rest key).getD 0 + 1)) = n + total rest + 1
      rw [ih]
      omega

theorem total_sortedItems (counts : Dict Nat) : total (sortedItems counts) = total counts :=
  ((List.perm_insertionSort _ counts).map Prod.snd).sum_eq

/-- What the variables of the loop hold after these events. -/
structure Folded (events : List ControlPlaneEvent) (st : ProjectionState) : Prop where
  statusCounts : total st.statusCounts = events.length
  kindCounts : total st.kindCounts = events.length
  clientCounts : total st.clientCounts = events.length
  activity : st.activity = events.map activityEntry
  keys : st.taskBoard.KeysNodup
  board : ∀ taskId, Dict.get st.taskBoard taskId =
    if taskId = "" then none else (lastEvent events taskId).map (taskBoardEntry taskId)

section Loop

variable {now : DateTime} {seconds : Int} {events : List ControlPlaneEvent} {st : ProjectionState}

theorem folded_nil : Folded [] {} where
  statusCounts := rfl
  kindCounts := rfl
  clientCounts := rfl
  activity := rfl
  keys := List.nodup_nil
  board taskId := by
    show none = _
    split <;> rfl

/-- The board after one more event. -/
theorem taskBoard_projectEvent (st : ProjectionState) (e : ControlPlaneEvent) :
    (projectEvent now seconds st e).taskBoard = match e.taskId with
      | none => st.taskBoard
      | some taskId =>
        if taskId = "" then st.taskBoard
        else Dict.set st.taskBoard taskId (taskBoardEntry taskId e) := rfl

/-- One turn of the loop. -/
theorem Folded.step (h : Folded events st) (e : ControlPlaneEvent) :
    Folded (events ++ [e]) (projectEvent now seconds st e) := by
  have hlength : (events ++ [e]).length = events.length + 1 := by simp
  refine ⟨?_, ?_, ?_, ?_, ?_, fun name => ?_⟩
  · rw [hlength, ← h.statusCounts]
    exact total_counted _ _
  · rw [hlength, ← h.kindCounts]
    exact total_counted _ _
  · rw [hlength, ← h.clientCounts]
    exact total_counted _ _
  · rw [List.map_append, ← h.activity]
    rfl
  · rw [taskBoard_projectEvent]
    split
    · exact h.keys
    · split
      · exact h.keys
      · exact Dict.keysNodup_set h.keys _ _
  · rw [taskBoard_projectEvent, lastEvent_snoc]
    cases htask : e.taskId with
    | none =>
      show Dict.get st.taskBoard name = _
      rw [h.board name, if_neg (show ¬ none = some name by simp)]
    | some taskId =>
      show Dict.get (if taskId = "" then st.taskBoard
        else Dict.set st.taskBoard taskId (taskBoardEntry taskId e)) name = _
      by_cases hempty : taskId = ""
      · -- an event without a task touches no entry, and no entry is named by the empty text
        rw [if_pos hempty, h.board name, hempty]
        by_cases hname : name = ""
        · rw [if_pos hname, if_pos hname]
        · rw [if_neg hname, if_neg hname, if_neg fun heq => hname (Option.some.inj heq).symm]
      · rw [if_neg hempty, Dict.get_set]
        by_cases hsame : taskId = name
        · subst hsame
          rw [if_pos rfl, if_neg hempty, if_pos rfl]
          rfl
        · rw [if_neg hsame, if_neg fun heq => hsame (Option.some.inj heq)]
          exact h.board name

/-- The loop over all events. -/
theorem folded_foldl (now : DateTime) (seconds : Int) (events : List ControlPlaneEvent) :
    Folded events (events.foldl (projectEvent now seconds) {}) := by
  induction events using List.reverseRecOn with
  | nil => exact folded_nil
  | append_singleton events e ih =>
    rw [List.foldl_append]
    exact ih.step e

end Loop

/-! ## The result -/

/-- What a projection shows of events in their order: every event is counted once in each
    dictionary and has its entry in the activity, and the board has, in the order of the task ids,
    one row of each task that has one, which is the row of its last event. -/
structure ShowsAll (ordered : List ControlPlaneEvent) (p : DashboardProjection) : Prop where
  statusCounts : total p.statusCounts = ordered.length
  kindCounts : total p.kindCounts = ordered.length
  clientCounts : total p.clientCounts = ordered.length
  activity : p.activity = ordered.map activityEntry
  timeline : p.eventTimeline = ordered.map activityEntry
  tasks : p.taskBoard.Pairwise (fun a b => a.taskId < b.taskId)
  board : ∀ row, row ∈ p.taskBoard ↔ row.taskId ≠ "" ∧
    ∃ e, lastEvent ordered row.taskId = some e ∧ row = taskBoardEntry row.taskId e

theorem projection_showsAll (events : List ControlPlaneEvent) (now : DateTime) (seconds : Int) :
    ShowsAll (orderedEvents events) (buildDashboardProjection events now seconds) := by
  have h := folded_foldl now seconds (orderedEvents events)
  generalize hst : (orderedEvents events).foldl (projectEvent now seconds) {} = st at h
  have hbuilt (e : String × TaskBoardEntry) (he : e ∈ sortedItems st.taskBoard) :
      e.1 ≠ "" ∧ ∃ event, lastEvent (orderedEvents events) e.1 = some event ∧
        e.2 = taskBoardEntry e.1 event := by
    have hget := (Dict.mem_iff_get h.keys).mp (mem_sortedItems.mp he)
    rw [h.board] at hget
    split at hget
    · cases hget
    · rename_i hne
      obtain ⟨event, hlast, hentry⟩ := Option.map_eq_some_iff.mp hget
      exact ⟨hne, event, hlast, hentry.symm⟩
  have hcounts (p : ProjectionState → Dict Nat) (hp : total (p st) = (orderedEvents events).length) :
      total (sortedItems (p st)) = (orderedEvents events).length :=
    (total_sortedItems _).trans hp
  have hboard : (buildDashboardProjection events now seconds).taskBoard =
      (sortedItems st.taskBoard).map Prod.snd := by
    rw [← hst]
    rfl
  refine ⟨?_, ?_, ?_, ?_, ?_, ?_, fun row => ?_⟩
  · rw [← hcounts _ h.statusCounts, ← hst]
    rfl
  · rw [← hcounts _ h.kindCounts, ← hst]
    rfl
  · rw [← hcounts _ h.clientCounts, ← hst]
    rfl
  · rw [← h.activity, ← hst]
    rfl
  · rw [← h.activity, ← hst]
    rfl
  · rw [hboard, List.pairwise_map]
    refine (sortedItems_ascending h.keys).imp_of_mem fun {a b} ha hb hlt => ?_
    obtain ⟨-, x, -, hx⟩ := hbuilt a ha
    obtain ⟨-, y, -, hy⟩ := hbuilt b hb
    rw [hx, hy]
    exact hlt
  · rw [hboard, List.mem_map]
    constructor
    · rintro ⟨e, he, rfl⟩
      obtain ⟨hne, event, hlast, hentry⟩ := hbuilt e he
      have htask : e.2.taskId = e.1 := by rw [hentry]; rfl
      rw [htask]
      exact ⟨hne, event, hlast, hentry⟩
    · rintro ⟨hne, event, hlast, hrow⟩
      refine ⟨(row.taskId, row), mem_sortedItems.mpr ((Dict.mem_iff_get h.keys).mpr ?_), rfl⟩
      rw [h.board, if_neg hne, hlast, Option.map_some, ← hrow]

/-- Two events about one task, the later one first. -/
def sampleEvents : List ControlPlaneEvent :=
  [{ sequence := 2
     createdAt := ⟨60000000, none⟩
     clientId := "codex-local"
     taskId := some "task-1"
     kind := .toolCallFinished
     status := .failed
     actor := "codex"
     role := "builder"
     summary := "Tool failed."
     eventId := .named "event-2" },
   { sequence := 1
     createdAt := ⟨7200000000, some 7200⟩
     clientId := "codex-local"
     taskId := some "task-1"
     kind := .heartbeat
     status := .active
     actor := "codex"
     role := "builder"
     summary := "Codex heartbeat."
     eventId := .named "event-1" }]

end Vad
