/-
  Work-item requests among others.

  A transition is a load, an update, another write of the mirror and an event, and nothing compares
  what it loaded with what it overwrites.  Two requests that both load before either updates are
  both answered 200, and the second update takes the item out of whatever status the first one had
  put it in, terminal ones included (`blockAndCancel_race`).

  1. **What is seen** — `itemObserver`: every table that a request on an item reads or writes, the
     ledger apart, and of a response everything but the number and the id of its event.
  2. **Transactions** — each request on an item reads, stores the item with its mirror in one call,
     and from then on only writes the mirror that is there already and an event
     (`transaction_perform`).
  3. **The result** — `itemRequests_serializable`: when no request changes the item while another is
     under way with it, the run ends as some sequential order of the requests would, no terminal
     status is left, and so on (`ItemSerializable`).
-/
import Vad.Lib.Serial
import Vad.Server.WorkItemRuns

namespace Vad

open Keyed (Table)
open Atomic (Program Pool Observer EndsInTurn InTurn WritesAlone Serial Begun)
open Atomic.Program (Safe Agree SameResult Returns returns_bind returns_pure)

/-! ## What is seen -/

/-- The requests on one work item. -/
def Request.OnItem (id : String) : Request → Prop
  | .transition c => c.workItemId = id
  | .schedule (.workItem i _) => i = id
  | _ => False

/-- The status that a request moves the item to. -/
def Request.target : Request → WorkItemStatus
  | .transition c => c.args.target
  | _ => .assigned

/-- The stores differ at most in what the ledger holds, and in tables that no request on an item
    touches. -/
structure SameButLedger (s s' : Store) : Prop where
  clientManifests : s'.clientManifests = s.clientManifests
  clientHeartbeats : s'.clientHeartbeats = s.clientHeartbeats
  taskLeases : s'.taskLeases = s.taskLeases
  workItems : s'.workItems = s.workItems
  runTaskStates : s'.runTaskStates = s.runTaskStates
  ledgerLists : s'.ledgerLists ↔ s.ledgerLists

theorem SameButLedger.refl (s : Store) : SameButLedger s s := ⟨rfl, rfl, rfl, rfl, rfl, Iff.rfl⟩

theorem SameButLedger.symm {s s' : Store} (h : SameButLedger s s') : SameButLedger s' s :=
  ⟨h.1.symm, h.2.symm, h.3.symm, h.4.symm, h.5.symm, h.6.symm⟩

theorem SameButLedger.trans {s s' s'' : Store} (h : SameButLedger s s')
    (h' : SameButLedger s' s'') : SameButLedger s s'' :=
  ⟨h'.1.trans h.1, h'.2.trans h.2, h'.3.trans h.3, h'.4.trans h.4, h'.5.trans h.5, h'.6.trans h.6⟩

/-- An event without its number. -/
def EventFields.unnumbered (e : EventFields) : EventFields := { e with sequence := 0 }

/-- What is seen of the response to a request on an item. -/
inductive ItemAnswer where
  | transition (statusCode : Nat) (workItem : Checked WorkItem) (decision : PolicyDecision)
      (event : EventFields)
  | schedule (statusCode : Nat) (workItem : Option (Checked WorkItem))
      (selectedClientId : Option String) (decision : PolicyDecision) (event : Option EventFields)

def itemAnswer : Response → Option ItemAnswer
  | .workItem r => some (.transition r.statusCode r.workItem r.decision
      r.event.1.toEventFields.unnumbered)
  | .schedule r => some (.schedule r.statusCode r.workItem r.selectedClientId r.decision
      (r.event.map fun e => e.1.toEventFields.unnumbered))
  | _ => none

/-- The observer of a run that starts in `s₀`: clients and leases stay as they were. -/
def itemObserver (s₀ : Store) : Observer Store Response (Option ItemAnswer) where
  inv s := s.ledgerLists ∧ s.clientManifests = s₀.clientManifests ∧
    s.clientHeartbeats = s₀.clientHeartbeats ∧ s.taskLeases = s₀.taskLeases
  same := SameButLedger
  equivalence := ⟨SameButLedger.refl, SameButLedger.symm, SameButLedger.trans⟩
  view := itemAnswer

section Calls

variable {s₀ : Store}

theorem inv_of_same {s s' : Store} (h : SameButLedger s s') (hs : (itemObserver s₀).inv s) :
    (itemObserver s₀).inv s' :=
  ⟨h.ledgerLists.mpr hs.1, h.1.trans hs.2.1, h.2.trans hs.2.2.1, h.3.trans hs.2.2.2⟩

/-! ## The calls, side by side -/

/-- A query that reads only what is seen. -/
theorem agree_query {α : Type} {f : Store → Except PyError α}
    (h : ∀ s s', SameButLedger s s' → f s' = f s) :
    Agree (itemObserver s₀).Near (· = ·) (query f) (query f) := by
  refine Program.agree_atomic fun s s' hs => ⟨hs, ?_⟩
  show SameResult _ (f s) (f s')
  rw [h s s' hs.2.2]
  cases f s <;> rfl

theorem agree_loadWorkItem (id : String) :
    Agree (itemObserver s₀).Near (· = ·) (loadWorkItem id) (loadWorkItem id) :=
  agree_query (f := fun s => fetched id WorkItemRow.payload (s.workItems.find? id))
    fun s s' h => by rw [h.workItems]

theorem storeRefusal_same {s s' : Store} (h : SameButLedger s s') (item : WorkItem) :
    storeRefusal s' item = storeRefusal s item := by
  rw [storeRefusal, storeRefusal, referencesHold, referencesHold, h.clientManifests, h.taskLeases,
    h.workItems]

theorem putItemAndState_same {s s' : Store} (h : SameButLedger s s') (item : WorkItem) :
    SameButLedger (s.putItemAndState item) (s'.putItemAndState item) where
  clientManifests := h.clientManifests
  clientHeartbeats := h.clientHeartbeats
  taskLeases := h.taskLeases
  workItems := by
    show s'.workItems.replace _ = s.workItems.replace _
    rw [h.workItems]
  runTaskStates := by
    show s'.runTaskStates.upsert _ = s.runTaskStates.upsert _
    rw [h.runTaskStates]
  ledgerLists := h.ledgerLists

theorem putState_same {s s' : Store} (h : SameButLedger s s') (st : RunTaskState) :
    SameButLedger (s.putState st) (s'.putState st) where
  clientManifests := h.clientManifests
  clientHeartbeats := h.clientHeartbeats
  taskLeases := h.taskLeases
  workItems := h.workItems
  runTaskStates := by
    show s'.runTaskStates.upsert _ = s.runTaskStates.upsert _
    rw [h.runTaskStates]
  ledgerLists := h.ledgerLists

theorem agree_storeWorkItem (item : Checked WorkItem) :
    Agree (itemObserver s₀).Near (· = ·) (storeWorkItem item) (storeWorkItem item) := by
  refine Program.agree_atomic fun s s' hs => ?_
  have hrun (s : Store) := run_storeWorkItem_eq item s
  simp only [storeWorkItem, run_storeCall] at hrun
  rw [hrun s, hrun s', storeRefusal_same hs.2.2]
  cases storeRefusal s item.1 with
  | none => exact ⟨⟨hs.1, hs.2.1, putItemAndState_same hs.2.2 item.1⟩, rfl⟩
  | some e => exact ⟨hs, rfl⟩

theorem agree_upsertRunTaskState (st : Checked RunTaskState) :
    Agree (itemObserver s₀).Near (· = ·) (upsertRunTaskState st) (upsertRunTaskState st) :=
  Program.agree_atomic fun _ _ hs => ⟨⟨hs.1, hs.2.1, putState_same hs.2.2 st.1⟩, rfl⟩

theorem putEvent_same {s : Store} {e : EventFields} (he : e.ok = true) :
    SameButLedger s (s.putEvent e) := by
  refine ⟨rfl, rfl, rfl, rfl, rfl, fun h r hr => ?_, fun h r hr => ?_⟩
  · exact h r (by rw [Store.putEvent_rows]; exact List.mem_append_left _ hr)
  · rw [Store.putEvent_rows] at hr
    rcases List.mem_append.mp hr with hr | hr
    · exact h r hr
    · rw [List.mem_singleton.mp hr]
      exact (valid_generated_iff e _).mpr he

/-- The number of an event takes no part in its checks. -/
theorem unnumbered_checks {e e' : EventFields} (h : e.unnumbered = e'.unnumbered) :
    e.checks = e'.checks :=
  calc e.checks = e.unnumbered.checks := rfl
    _ = e'.unnumbered.checks := by rw [h]
    _ = e'.checks := rfl

/-- Recording an event gives the same event up to its number, or the same exception. -/
theorem agree_appendEvent {fields : Nat → EventFields}
    (hfields : ∀ n m, (fields n).unnumbered = (fields m).unnumbered) :
    Agree (itemObserver s₀).Near
      (fun e e' => e.1.toEventFields.unnumbered = e'.1.toEventFields.unnumbered)
      (appendEvent fields) (appendEvent fields) := by
  refine Program.agree_bind (Q := fun _ _ => True) (Program.agree_atomic fun s s' hs => ?_)
    fun events events' _ => ?_
  · obtain ⟨es, hes⟩ := ledgerLists_iff.mp hs.1.1
    obtain ⟨es', hes'⟩ := ledgerLists_iff.mp hs.2.1.1
    refine ⟨hs, ?_⟩
    show SameResult _ (fetchedAll EventRow.payload _) (fetchedAll EventRow.payload _)
    simp only [Option.all_none, Bool.and_self]
    rw [hes, hes']
    trivial
  · have hchecks := unnumbered_checks (hfields (events.length + 1) (events'.length + 1))
    have hok : (fields (events.length + 1)).ok = (fields (events'.length + 1)).ok := by
      rw [EventFields.ok, EventFields.ok, hchecks]
    show Agree _ _ (if h : (fields (events.length + 1)).ok = true then _ else _)
      (if h : (fields (events'.length + 1)).ok = true then _ else _)
    by_cases h : (fields (events.length + 1)).ok = true
    · have h' : (fields (events'.length + 1)).ok = true := hok ▸ h
      rw [dif_pos h, dif_pos h']
      refine Program.agree_atomic fun s s' hs => ⟨⟨?_, ?_, ?_⟩, hfields _ _⟩
      · exact inv_of_same (putEvent_same h) hs.1
      · exact inv_of_same (putEvent_same h') hs.2.1
      · exact ((putEvent_same h).symm.trans hs.2.2).trans (putEvent_same h')
    · rw [dif_neg h, dif_neg (hok ▸ h), hchecks]
      exact Program.agree_raise _

/-! ## The requests, side by side -/

theorem agree_done {α : Type} (r : Except PyError α) :
    Agree (itemObserver s₀).Near (· = ·) (Program.done r : Db α) (Program.done r) := by
  cases r <;> rfl

/-- Two results of a transition that look the same. -/
structure TransitionAlike (r r' : WorkItemTransitionResult) : Prop where
  statusCode : r.statusCode = r'.statusCode
  workItem : r.workItem = r'.workItem
  decision : r.decision = r'.decision
  event : r.event.1.toEventFields.unnumbered = r'.event.1.toEventFields.unnumbered

theorem agree_transition (id : String) (target : WorkItemStatus) (caller : Caller)
    (change : WorkItemChange) (summary : Option String) (now : DateTime) :
    Agree (itemObserver s₀).Near TransitionAlike
      (transition id target caller change summary now)
      (transition id target caller change summary now) := by
  refine Program.agree_bind (agree_loadWorkItem id) fun current _ h => ?_
  subst h
  unfold transitionFrom
  split
  · refine Program.agree_bind (agree_done _) fun updated _ h => ?_
    subst h
    refine Program.agree_bind (agree_storeWorkItem _) fun saved _ h => ?_
    subst h
    refine Program.agree_bind (agree_upsertRunTaskState _) fun _ _ _ => ?_
    refine Program.agree_bind (agree_appendEvent fun _ _ => rfl) fun _ _ h => ?_
    exact Program.agree_pure ⟨rfl, rfl, rfl, h⟩
  · refine Program.agree_bind (agree_appendEvent fun _ _ => rfl) fun _ _ h => ?_
    exact Program.agree_pure ⟨rfl, rfl, rfl, h⟩

theorem joinedSnapshots_same {s s' : Store} (h : SameButLedger s s') (rows : List ManifestRow) :
    joinedSnapshots s' rows = joinedSnapshots s rows := by
  induction rows with
  | nil => rfl
  | cons r rows ih => rw [joinedSnapshots, joinedSnapshots, ih, h.clientHeartbeats]

theorem agree_eligibleClients (item : WorkItem) :
    Agree (itemObserver s₀).Near (· = ·) (eligibleClients item) (eligibleClients item) := by
  refine Program.agree_bind (agree_query (f := fun s => joinedSnapshots s
    (s.clientManifests.select (fun _ => true) manifestOrder)) fun s s' h => ?_) fun statuses _ h => ?_
  · rw [joinedSnapshots_same h, h.clientManifests]
  · subst h
    refine Program.agree_bind (Program.agree_forEach (fun snapshot => ?_) _) fun keyed _ h => ?_
    · refine Program.agree_bind (agree_query (f := fun s => fetchedAll LeaseRow.payload
        (s.taskLeases.select (leaseMatches (some snapshot.manifest.1.clientId) (some .active))
          leaseOrder)) fun s s' h => by rw [h.taskLeases]) fun leases _ h => ?_
      subst h
      exact Program.agree_pure rfl
    · subst h
      exact Program.agree_pure rfl

/-- Two results of the scheduler that look the same. -/
structure ScheduleAlike (r r' : SchedulerDecisionResult) : Prop where
  statusCode : r.statusCode = r'.statusCode
  workItem : r.workItem = r'.workItem
  client : r.selectedClientId = r'.selectedClientId
  decision : r.decision = r'.decision
  event : r.event.map (fun e => e.1.toEventFields.unnumbered) =
    r'.event.map (fun e => e.1.toEventFields.unnumbered)

theorem agree_scheduleWorkItem (id : String) (caller : Caller) (now : DateTime) :
    Agree (itemObserver s₀).Near ScheduleAlike (scheduleWorkItem id caller now)
      (scheduleWorkItem id caller now) := by
  have hdeny (item : Checked WorkItem) (denial : String) :
      Agree (itemObserver s₀).Near ScheduleAlike (denySchedule item caller denial now)
        (denySchedule item caller denial now) :=
    Program.agree_bind (agree_appendEvent fun _ _ => rfl) fun _ _ h =>
      Program.agree_pure ⟨rfl, rfl, rfl, rfl, congrArg some h⟩
  refine Program.agree_bind (agree_loadWorkItem id) fun item _ h => ?_
  subst h
  unfold scheduleFrom
  split
  · refine Program.agree_bind (agree_eligibleClients _) fun clients _ h => ?_
    subst h
    cases clients with
    | nil => exact hdeny _ _
    | cons selected rest =>
      refine Program.agree_bind (agree_transition _ _ _ _ _ _) fun r r' h => ?_
      exact Program.agree_pure
        ⟨h.statusCode, congrArg some h.workItem, rfl, rfl, congrArg some h.event⟩
  · exact hdeny _ _

/-- What is seen of a request on an item depends only on what is seen of the store. -/
theorem steady_perform {id : String} {r : Request} (hr : r.OnItem id) (o : Outside)
    (now : DateTime) : (itemObserver s₀).Steady (r.perform o now) := by
  unfold Request.OnItem at hr
  split at hr
  · rename_i c
    show Agree _ _ (do pure (Response.workItem (← c.perform now)))
      (do pure (Response.workItem (← c.perform now)))
    rw [c.perform_eq]
    refine Program.agree_bind (agree_transition _ _ _ _ _ _) fun a b h => Program.agree_pure ?_
    show some _ = some _
    rw [h.statusCode, h.workItem, h.decision, h.event]
  · refine Program.agree_bind (agree_scheduleWorkItem _ _ _) fun a b h => Program.agree_pure ?_
    show some _ = some _
    rw [h.statusCode, h.workItem, h.client, h.decision, h.event]
  · exact hr.elim

/-! ## One write -/

/-- A read keeps what is seen. -/
theorem safe_read {α : Type} (f : Store → Except PyError α) :
    Safe (itemObserver s₀).inv SameButLedger (query f) :=
  safe_query SameButLedger.refl f

/-- An event changes only the ledger. -/
theorem safe_recordEvent (fields : Nat → EventFields) :
    Safe (itemObserver s₀).inv SameButLedger (appendEvent fields) := by
  refine Program.safe_bind (safe_read _) fun events => ?_
  show Safe _ _ (if h : (fields (events.length + 1)).ok = true then _ else _)
  split
  · rename_i hok
    exact Program.safe_atomic fun s hs =>
      ⟨putEvent_same hok, inv_of_same (putEvent_same hok) hs⟩
  · exact Program.safe_raise _

theorem safe_eligibleClients (item : WorkItem) :
    Safe (itemObserver s₀).inv SameButLedger (eligibleClients item) :=
  Program.safe_bind (safe_read _) fun _ =>
    Program.safe_bind (Program.safe_forEach fun _ _ =>
      Program.safe_bind (safe_read _) fun _ => Program.safe_pure _) fun _ => Program.safe_pure _

/-- Writing the mirror again once it is there changes nothing. -/
theorem putState_again {s v : Store} {item : WorkItem}
    (h : SameButLedger (s.putItemAndState item) v) :
    SameButLedger v (v.putState (RunTaskState.ofItem item)) := by
  refine ⟨rfl, rfl, rfl, rfl, ?_, Iff.rfl⟩
  rw [Store.putState_runTaskStates]
  refine Table.upsert_of_find? ?_
  rw [h.runTaskStates]
  show ((s.putItem item).runTaskStates.upsert _).find? _ = _
  rw [Table.find?_upsert]
  exact if_pos rfl

/-- After the item was stored, its transition changes only the ledger. -/
theorem safe_recordTransition_stored (s : Store) (saved : Checked WorkItem) (caller : Caller)
    (summary : Option String) (decision : PolicyDecision) (now : DateTime) :
    Safe ((itemObserver s₀).Around (s.putItemAndState saved.1)) SameButLedger
      (recordTransition saved caller summary decision now) := by
  refine Program.safe_bind (Program.safe_atomic fun v hv => ?_) fun _ =>
    Observer.safe_around (O := itemObserver s₀)
      (Program.safe_bind (safe_recordEvent _) fun _ => Program.safe_pure _) _
  exact ⟨putState_again hv.2, hv.1, hv.2.trans (putState_again hv.2)⟩

/-- Storing the item is the one write. -/
theorem oneWrite_storeWorkItem {α : Type} (item : Checked WorkItem)
    {k : Checked WorkItem → Db α} (hk : ∀ s : Store,
      Safe ((itemObserver s₀).Around (s.putItemAndState item.1)) SameButLedger (k item)) :
    (itemObserver s₀).OneWrite (storeWorkItem item >>= k) := by
  intro s hs
  show (itemObserver s₀).inv ((storeWorkItem item).run s).2 ∧
    (SameButLedger s ((storeWorkItem item).run s).2 ∧ (itemObserver s₀).OneWrite
        (Program.bind (Program.done ((storeWorkItem item).run s).1) k) ∨
      Safe ((itemObserver s₀).Around ((storeWorkItem item).run s).2) SameButLedger
        (Program.bind (Program.done ((storeWorkItem item).run s).1) k))
  rcases run_storeWorkItem item s with hrun | ⟨e, hrun⟩
  · rw [hrun]
    exact ⟨hs, Or.inr (hk s)⟩
  · rw [hrun]
    exact ⟨hs, Or.inl ⟨SameButLedger.refl s, trivial⟩⟩

theorem oneWrite_transition (id : String) (target : WorkItemStatus) (caller : Caller)
    (change : WorkItemChange) (summary : Option String) (now : DateTime) :
    (itemObserver s₀).OneWrite (transition id target caller change summary now) := by
  refine Observer.oneWrite_bind (safe_read _) fun current => ?_
  unfold transitionFrom
  split
  · refine Observer.oneWrite_bind (p := Program.done _) trivial fun updated => ?_
    exact oneWrite_storeWorkItem updated fun s =>
      safe_recordTransition_stored s updated caller summary _ now
  · exact Observer.oneWrite_of_safe (O := itemObserver s₀)
      (Program.safe_bind (safe_recordEvent _) fun _ => Program.safe_pure _)

theorem oneWrite_scheduleWorkItem (id : String) (caller : Caller) (now : DateTime) :
    (itemObserver s₀).OneWrite (scheduleWorkItem id caller now) := by
  have hdeny (item : Checked WorkItem) (denial : String) :
      (itemObserver s₀).OneWrite (denySchedule item caller denial now) :=
    Observer.oneWrite_of_safe (O := itemObserver s₀)
      (Program.safe_bind (safe_recordEvent _) fun _ => Program.safe_pure _)
  refine Observer.oneWrite_bind (safe_read _) fun item => ?_
  unfold scheduleFrom
  split
  · refine Observer.oneWrite_bind (safe_eligibleClients _) fun clients => ?_
    cases clients with
    | nil => exact hdeny _ _
    | cons selected rest =>
      exact (oneWrite_transition _ _ _ _ _ _).bind_safe fun _ => Program.safe_pure _
  · exact hdeny _ _

theorem transaction_perform {id : String} {r : Request} (hr : r.OnItem id) (o : Outside)
    (now : DateTime) : (itemObserver s₀).Transaction (r.perform o now) := by
  refine ⟨steady_perform hr o now, ?_⟩
  unfold Request.OnItem at hr
  split at hr
  · rename_i c
    show (itemObserver s₀).OneWrite (do pure (Response.workItem (← c.perform now)))
    rw [c.perform_eq]
    exact (oneWrite_transition _ _ _ _ _ _).bind_safe fun _ => Program.safe_pure _
  · exact (oneWrite_scheduleWorkItem _ _ _).bind_safe fun _ => Program.safe_pure _
  · exact hr.elim

end Calls

/-! ## What a request does to its item -/

/-- Nothing that is seen changes, or the item moves from an allowed predecessor of the target to the
    target, its mirror with it. -/
def ItemEffect (id : String) (target : WorkItemStatus) (s s' : Store) : Prop :=
  SameButLedger s s' ∨ ∃ current item : Checked WorkItem, Loaded s id current ∧
    target ∈ allowedWorkItemTransitions current.1.status ∧ item.1.status = target ∧
    item.1.workItemId = current.1.workItemId ∧ SameButLedger (s.putItemAndState item.1) s'

section Effects

variable {s : Store}

/-- A program that changes nothing that is seen, run alone. -/
theorem run_same {α : Type} {p : Db α} (hp : Safe (itemObserver s).inv SameButLedger p)
    (hs : s.ledgerLists) : SameButLedger s (p.run s).2 :=
  hp.run_within SameButLedger.refl SameButLedger.trans ⟨hs, rfl, rfl, rfl⟩

theorem run_loadWorkItem (id : String) (s : Store) : (loadWorkItem id).run s =
    (fetched id WorkItemRow.payload (s.workItems.find? id), s) := rfl

theorem effect_transition (hs : s.ledgerLists) (id : String) (target : WorkItemStatus)
    (caller : Caller) (change : WorkItemChange) (summary : Option String) (now : DateTime) :
    ItemEffect id target s ((transition id target caller change summary now).run s).2 := by
  rw [transition, Program.run_bind, run_loadWorkItem]
  cases hload : fetched id WorkItemRow.payload (s.workItems.find? id) with
  | error e => exact Or.inl (SameButLedger.refl s)
  | ok current =>
    simp only
    unfold transitionFrom
    split
    · rename_i hallow
      rw [performTransition, Program.run_bind]
      cases hitem : transitionedItem current target change now with
      | error e => exact Or.inl (SameButLedger.refl s)
      | ok item =>
        show ItemEffect id target s ((storeWorkItem item >>= fun saved =>
          recordTransition saved caller summary _ now).run s).2
        rw [Program.run_bind]
        rcases run_storeWorkItem item s with hrun | ⟨e, hrun⟩
        · obtain ⟨hstatus, hid, -⟩ := transitionedItem_spec hitem
          rw [hrun]
          refine Or.inr ⟨current, item, fetched_eq_ok.mp hload, transitionDecision_allow.mp hallow,
            hstatus, hid, ?_⟩
          exact (@safe_recordTransition_stored s s item caller summary _ now).run_within
            SameButLedger.refl SameButLedger.trans ⟨⟨hs, rfl, rfl, rfl⟩, SameButLedger.refl _⟩
        · rw [hrun]
          exact Or.inl (SameButLedger.refl s)
    · exact Or.inl (run_same (Program.safe_bind (safe_recordEvent _) fun _ => Program.safe_pure _)
        hs)

theorem effect_scheduleWorkItem (hrows : RowsOk (fun _ => True) s) (id : String) (caller : Caller)
    (now : DateTime) : ItemEffect id .assigned s ((scheduleWorkItem id caller now).run s).2 := by
  have hs := hrows.ledgerLists
  have hdeny (item : Checked WorkItem) (denial : String) :
      SameButLedger s ((denySchedule item caller denial now).run s).2 :=
    run_same (Program.safe_bind (safe_recordEvent _) fun _ => Program.safe_pure _) hs
  rw [scheduleWorkItem, Program.run_bind, run_loadWorkItem]
  cases hload : fetched id WorkItemRow.payload (s.workItems.find? id) with
  | error e => exact Or.inl (SameButLedger.refl s)
  | ok item =>
    simp only
    have hid := (Loaded.itemAt hrows (fetched_eq_ok.mp hload)).2
    unfold scheduleFrom
    split
    · rw [Program.run_bind]
      rcases hrun : (eligibleClients item.1).run s with ⟨_ | clients, s₁⟩
      · have hsame := run_same (safe_eligibleClients item.1) hs
        rw [hrun] at hsame
        exact Or.inl hsame
      · obtain ⟨rfl, -⟩ := returns_eligibleClients hrun
        cases clients with
        | nil => exact Or.inl (hdeny item _)
        | cons selected rest =>
          show ItemEffect id .assigned s₁ ((assignSelected item selected caller now).run s₁).2
          rw [assignSelected, Program.run_map, hid]
          exact effect_transition hs id .assigned caller _ _ now
    · exact Or.inl (hdeny item _)

theorem effect_perform (hrows : RowsOk (fun _ => True) s) {id : String} {r : Request}
    (hr : r.OnItem id) (o : Outside) (now : DateTime) :
    ItemEffect id r.target s ((r.perform o now).run s).2 := by
  unfold Request.OnItem at hr
  split at hr
  · rename_i c
    show ItemEffect id c.args.target s ((do pure (Response.workItem (← c.perform now)) :
      Db Response).run s).2
    rw [Program.run_map, c.perform_eq, hr]
    exact effect_transition hrows.ledgerLists id _ _ _ _ now
  · rename_i i caller
    show ItemEffect id .assigned s ((do pure (Response.schedule (← scheduleWorkItem i caller now)) :
      Db Response).run s).2
    rw [Program.run_map, hr]
    exact effect_scheduleWorkItem hrows id caller now
  · exact hr.elim

/-- The stored item after a move. -/
theorem itemAt_moved {s' : Store} {id : String} {current item : Checked WorkItem}
    (hrows : RowsOk (fun _ => True) s) (hload : Loaded s id current)
    (hid : item.1.workItemId = current.1.workItemId)
    (hs' : SameButLedger (s.putItemAndState item.1) s') : s'.itemAt id = some item.1 := by
  have hloaded := Loaded.itemAt hrows hload
  obtain ⟨row, hrow, -⟩ := hload
  have hitem : item.1.workItemId = id := hid.trans hloaded.2
  rw [Store.itemAt, hs'.workItems]
  show ((s.putItem item.1).workItems.find? id).map _ = _
  rw [← Store.itemAt, itemAt_putItem (hitem ▸ ⟨row, hrow⟩), if_pos hitem.symm]

/-- A terminal status stays. -/
theorem ItemEffect.terminal {s' : Store} {id : String} {target status : WorkItemStatus}
    (hrows : RowsOk (fun _ => True) s) (h : ItemEffect id target s s') (ht : Terminal status)
    (hst : s.statusAt id = some status) : s'.statusAt id = some status := by
  rcases h with h | ⟨current, item, hload, hedge, -⟩
  · rw [← hst, Store.statusAt, Store.itemAt, h.workItems, Store.statusAt, Store.itemAt]
  · rw [Store.statusAt, (Loaded.itemAt hrows hload).1] at hst
    cases hst
    rw [ht] at hedge
    exact absurd hedge List.not_mem_nil

/-- The mirror of the stored item is the one `RunTaskState.from_work_item` makes of it. -/
def MirrorAgrees (id : String) (s : Store) : Prop :=
  ∀ item, s.itemAt id = some item → s.runTaskStates.find? (item.runId, item.workItemId) =
    some (runTaskStateRow (RunTaskState.ofItem item))

theorem MirrorAgrees.of_same {s' : Store} {id : String} (h : MirrorAgrees id s)
    (hs : SameButLedger s s') : MirrorAgrees id s' := by
  intro item hitem
  rw [Store.itemAt, hs.workItems] at hitem
  rw [hs.runTaskStates]
  exact h item hitem

theorem ItemEffect.mirror {s' : Store} {id : String} {target : WorkItemStatus}
    (hrows : RowsOk (fun _ => True) s) (h : ItemEffect id target s s') (hm : MirrorAgrees id s) :
    MirrorAgrees id s' := by
  rcases h with h | ⟨current, item, hload, -, -, hid, hs'⟩
  · exact hm.of_same h
  · intro stored hstored
    rw [itemAt_moved hrows hload hid hs'] at hstored
    cases hstored
    rw [hs'.runTaskStates]
    show ((s.putItem item.1).runTaskStates.upsert _).find? _ = _
    rw [Table.find?_upsert]
    exact if_pos rfl

/-- An item that does not wait for a client. -/
def NotWaiting (id : String) (s : Store) : Prop :=
  ∃ status, s.statusAt id = some status ∧ schedulable status = false

theorem NotWaiting.of_same {s' : Store} {id : String} (h : NotWaiting id s)
    (hs : SameButLedger s s') : NotWaiting id s' := by
  obtain ⟨status, hst, hno⟩ := h
  refine ⟨status, ?_, hno⟩
  rw [Store.statusAt, Store.itemAt, hs.workItems]
  exact hst

/-- Only a request whose target is a waiting status makes an item wait. -/
theorem ItemEffect.notWaiting {s' : Store} {id : String} {target : WorkItemStatus}
    (hrows : RowsOk (fun _ => True) s) (h : ItemEffect id target s s')
    (htarget : schedulable target = false) (hs : NotWaiting id s) : NotWaiting id s' := by
  rcases h with h | ⟨current, item, hload, -, hstatus, hid, hs'⟩
  · exact hs.of_same h
  · refine ⟨target, ?_, htarget⟩
    rw [Store.statusAt, itemAt_moved hrows hload hid hs', ← hstatus]
    rfl

/-- The response of a scheduler that assigned the item. -/
def Assigned (r : Except PyError Response) : Prop :=
  ∃ res, r = .ok (.schedule res) ∧ res.statusCode = 200

/-- A scheduler assigns an item that waits, and it waits no longer. -/
theorem assigned_waits (hrows : RowsOk (fun _ => True) s) {id : String} {r : Request}
    (hr : r.OnItem id) {o : Outside} {now : DateTime}
    (h : Assigned ((r.perform o now).run s).1) :
    ¬ NotWaiting id s ∧ NotWaiting id ((r.perform o now).run s).2 := by
  obtain ⟨res, hres, hcode⟩ := h
  unfold Request.OnItem at hr
  split at hr
  · rename_i c
    change ((do pure (Response.workItem (← c.perform now)) : Db Response).run s).1 = _ at hres
    rw [Program.run_map] at hres
    cases hrun : ((c.perform now).run s).1 <;> rw [hrun] at hres <;> cases hres
  · rename_i i caller
    subst hr
    have hret : Returns (Request.perform o now (.schedule (.workItem i caller))) s (.schedule res)
        ((Request.perform o now (.schedule (.workItem i caller))).run s).2 := Prod.ext hres rfl
    generalize ((Request.perform o now (.schedule (.workItem i caller))).run s).2 = s' at hret ⊢
    obtain ⟨_, s₁, hsched, hpure⟩ := returns_bind.mp hret
    obtain ⟨heq, hs₁⟩ := returns_pure.mp hpure
    cases heq
    subst hs₁
    obtain ⟨item, hload, hdenied | ⟨selected, assignment, hdone⟩⟩ := schedule_cases hsched
    · exact absurd (hdenied.code.symm.trans hcode) (by decide)
    have hitem := Loaded.itemAt hrows hload
    obtain ⟨summary, hassign⟩ := hdone.assigned
    rw [hitem.2] at hassign
    obtain ⟨current, hcurrent, hno | hmoved⟩ := transition_cases hassign
    · exact absurd (hno.code.symm.trans (hdone.code.symm.trans hcode)) (by decide)
    refine ⟨fun ⟨status, hst, hwait⟩ => ?_, .assigned, ?_, rfl⟩
    · rw [Store.statusAt, hitem.1] at hst
      cases hst
      rw [hdone.waiting] at hwait
      cases hwait
    · obtain ⟨hstatus, hid, -⟩ := transitionedItem_spec hmoved.item
      have hid' := hid.trans (Loaded.itemAt hrows hcurrent).2
      rw [Store.statusAt, Store.itemAt, hmoved.recorded, Store.moved_workItems]
      show ((s.putItem assignment.workItem.1).itemAt i).map _ = _
      rw [itemAt_putItem hmoved.found, if_pos hid'.symm, ← hstatus]
      rfl
  · exact hr.elim

end Effects

/-! ## Serializability -/

/-- All requests have ended. -/
def Ended (P : Pool Store PyError Response) : Prop := ∀ p ∈ P.threads, ∃ r, p = .done r

/-- What a run of requests on one item owes its callers. -/
structure ItemSerializable (o : Outside) (id : String) (s : Store)
    (requests : List (Request × DateTime)) (schedule : List Nat) : Prop where
  /-- Some sequential order of the requests leads to the same tables and the same answers, the
      ledger and the numbers of events apart. -/
  inTurn : Ended ((poolOf o s requests).exec schedule) →
    EndsInTurn (itemObserver s) (poolOf o s requests).threads s
      ((poolOf o s requests).exec schedule)
  /-- A terminal status is never left. -/
  terminal : ∀ n status, Terminal status →
    ((poolOf o s requests).exec (schedule.take n)).state.statusAt id = some status →
    ((poolOf o s requests).exec schedule).state.statusAt id = some status
  /-- Unless some request makes the item wait again, at most one scheduler assigns it. -/
  assigned : Ended ((poolOf o s requests).exec schedule) →
    (∀ r ∈ requests, schedulable r.1.target = false) →
    ∀ (i j : Nat) (r r' : Except PyError Response),
      ((poolOf o s requests).exec schedule).threads[i]? = some (.done r) →
      ((poolOf o s requests).exec schedule).threads[j]? = some (.done r') →
      Assigned r → Assigned r' → i = j
  /-- The mirror agrees with the item if it did before. -/
  mirror : MirrorAgrees id s → MirrorAgrees id ((poolOf o s requests).exec schedule).state

section Run

variable {o : Outside} {id : String} {s : Store} {requests : List (Request × DateTime)}

/-- A step of a run that has a sequential order moves the item as one whole request would. -/
theorem step_effect (hreq : ∀ r ∈ requests, r.1.OnItem id) {P : Pool Store PyError Response}
    (hserial : ∃ log t, Serial (itemObserver s) (poolOf o s requests).threads s P log t ∧
      Begun (poolOf o s requests).threads log P)
    (hrows : RowsOk (fun _ => True) P.state) (i : Nat) :
    ∃ target, ItemEffect id target P.state (P.step i).state := by
  obtain ⟨log, t, hserial, hbegun⟩ := hserial
  rcases hserial.step_observed hbegun i with h | ⟨p, hp, h⟩
  · exact ⟨.planned, Or.inl h⟩
  · obtain ⟨r, hr, rfl⟩ := List.mem_map.mp hp
    refine ⟨r.1.target, ?_⟩
    have hsame : SameButLedger ((r.1.perform o r.2).run P.state).2 (P.step i).state := h.symm
    rcases effect_perform hrows (hreq r hr) o r.2 with heff | ⟨current, item, h1, h2, h3, h4, heff⟩
    · exact Or.inl (heff.trans hsame)
    · exact Or.inr ⟨current, item, h1, h2, h3, h4, heff.trans hsame⟩

/-- In a sequential run at most one scheduler assigns the item, and then it waits no longer. -/
theorem inTurn_assigned (hreq : ∀ r ∈ requests, r.1.OnItem id)
    (hno : ∀ r ∈ requests, schedulable r.1.target = false)
    {log : List (Nat × Except PyError Response)} {t : Store}
    (h : InTurn (poolOf o s requests).threads s log t) (hs : RowsOk (fun _ => True) s) :
    RowsOk (fun _ => True) t ∧ (∀ x ∈ log, ∀ y ∈ log, Assigned x.2 → Assigned y.2 → x.1 = y.1) ∧
      ∀ x ∈ log, Assigned x.2 → NotWaiting id t := by
  induction h with
  | start => exact ⟨hs, fun x hx => (List.not_mem_nil hx).elim, fun x hx => (List.not_mem_nil hx).elim⟩
  | next _ hp ih =>
    rename_i log t i p _
    obtain ⟨hrows, hone, hwait⟩ := ih
    obtain ⟨r, hr, rfl⟩ := List.mem_map.mp (List.mem_of_getElem? hp)
    have heff := effect_perform hrows (hreq r hr) o r.2
    have hrows' : RowsOk (fun _ => True) ((r.1.perform o r.2).run t).2 :=
      (safe_request (fun _ _ => trivial) (fun _ _ _ => trivial) o r.2).run_keeps hrows
    have hlast (x) (hx : x ∈ log) (hassigned : Assigned x.2)
        (hnew : Assigned ((r.1.perform o r.2).run t).1) : False :=
      (assigned_waits hrows (hreq r hr) hnew).1 (hwait x hx hassigned)
    refine ⟨hrows', fun x hx y hy hax hay => ?_, fun x hx hax => ?_⟩
    · rcases List.mem_append.mp hx with hx | hx <;> rcases List.mem_append.mp hy with hy | hy
      · exact hone x hx y hy hax hay
      · obtain rfl := List.mem_singleton.mp hy
        exact (hlast x hx hax hay).elim
      · obtain rfl := List.mem_singleton.mp hx
        exact (hlast y hy hay hax).elim
      · rw [List.mem_singleton.mp hx, List.mem_singleton.mp hy]
    · rcases List.mem_append.mp hx with hx | hx
      · exact heff.notWaiting hrows (hno r hr) (hwait x hx hax)
      · obtain rfl := List.mem_singleton.mp hx
        exact (assigned_waits hrows (hreq r hr) hax).2

theorem assigned_of_sameAnswer {r r' : Except PyError Response}
    (h : (itemObserver s).SameAnswer r r') (hr : Assigned r) : Assigned r' := by
  obtain ⟨res, rfl, hcode⟩ := hr
  rcases r' with e | res'
  · cases h
  · have hview : itemAnswer (.schedule res) = itemAnswer res' := Except.ok.inj h
    cases res' <;> simp only [itemAnswer, Option.some.injEq, reduceCtorEq] at hview
    rename_i res'
    exact ⟨res', rfl, (ItemAnswer.schedule.inj hview).1 ▸ hcode⟩

/-- Requests on one item, none of which changes it while another has begun and depends on it or is
    still to write it, are serializable. -/
theorem itemRequests_serializable (o : Outside) (id : String) (s : Store) (hs : Reachable s)
    (requests : List (Request × DateTime)) (hreq : ∀ r ∈ requests, r.1.OnItem id)
    (schedule : List Nat)
    (halone : Pool.Along (WritesAlone (itemObserver s) (poolOf o s requests).threads)
      (poolOf o s requests) schedule) :
    ItemSerializable o id s requests schedule := by
  have hprograms : ∀ p ∈ (poolOf o s requests).threads, (itemObserver s).Transaction p := by
    intro p hp
    obtain ⟨r, hr, rfl⟩ := List.mem_map.mp hp
    exact transaction_perform (hreq r hr) o r.2
  have hinv : (itemObserver s).inv s := ⟨hs.rowsOk.ledgerLists, rfl, rfl, rfl⟩
  have hsafe : ∀ p ∈ (poolOf o s requests).threads, Safe (RowsOk fun _ => True) Any p := by
    intro p hp
    obtain ⟨r, -, rfl⟩ := List.mem_map.mp hp
    exact safe_request (fun _ _ => trivial) (fun _ _ _ => trivial) o r.2
  -- what every step keeps
  let J (K : Store → Prop) (P : Pool Store PyError Response) : Prop :=
    (∃ log t, Serial (itemObserver s) (poolOf o s requests).threads s P log t ∧
      Begun (poolOf o s requests).threads log P) ∧
    (RowsOk (fun _ => True) P.state ∧ ∀ p ∈ P.threads, Safe (RowsOk fun _ => True) Any p) ∧ K P.state
  have hstep (K : Store → Prop) (hK : ∀ {s s' target}, RowsOk (fun _ => True) s →
      ItemEffect id target s s' → K s → K s') (P : Pool Store PyError Response) (i : Nat)
      (hP : J K P) (h : WritesAlone (itemObserver s) (poolOf o s requests).threads P i) :
      J K (P.step i) := by
    obtain ⟨target, heff⟩ := step_effect hreq hP.1 hP.2.1.1 i
    exact ⟨Atomic.serial_step hprograms hP.1 h, Pool.step_safe i hP.2.1, hK hP.2.1.1 heff hP.2.2⟩
  have hstart (K : Store → Prop) (hK : K s) : J K (poolOf o s requests) :=
    ⟨Atomic.exec_serial hprograms hinv [] trivial, ⟨hs.rowsOk, hsafe⟩, hK⟩
  have hended : Ended ((poolOf o s requests).exec schedule) →
      EndsInTurn (itemObserver s) (poolOf o s requests).threads s
        ((poolOf o s requests).exec schedule) := by
    intro hended
    obtain ⟨log, t, hserial, hbegun⟩ := Atomic.exec_serial hprograms hinv schedule halone
    exact hserial.endsInTurn hprograms hbegun.length hended
  refine ⟨hended, fun n status ht hst => ?_, fun hend hno i j r r' hi hj hr hr' => ?_, fun hm => ?_⟩
  · have hsplit := (Pool.along_append (schedule.take n) (schedule.drop n) _).mp
      ((List.take_append_drop n schedule).symm ▸ halone)
    have hmid := Pool.exec_along (J := J fun _ => True) (hstep _ fun _ _ _ => trivial) _ _
      (hstart (fun _ => True) trivial) hsplit.1
    have hall := Pool.exec_along (J := J fun s => s.statusAt id = some status)
      (hstep _ fun hrows heff => heff.terminal hrows ht) _ _ ⟨hmid.1, hmid.2.1, hst⟩ hsplit.2
    rw [← Pool.exec_append, List.take_append_drop] at hall
    exact hall.2.2
  · obtain ⟨log, t, hturn, hperm, -, hanswers⟩ := hended hend
    have hlogged : ∀ k q, ((poolOf o s requests).exec schedule).threads[k]? = some (.done q) →
        Assigned q → ∃ x ∈ log, x.1 = k ∧ Assigned x.2 := by
      intro k q hk hq
      have hlt : k < (poolOf o s requests).threads.length := by
        obtain ⟨_, _, _, hbegun⟩ := Atomic.exec_serial hprograms hinv schedule halone
        rw [← hbegun.length]
        exact (List.getElem?_eq_some_iff.mp hk).1
      obtain ⟨x, hx, rfl⟩ := List.mem_map.mp (hperm.mem_iff.mpr (List.mem_range.mpr hlt))
      obtain ⟨q', hq', hsame⟩ := hanswers x hx
      cases hk.symm.trans hq'
      exact ⟨x, hx, rfl, assigned_of_sameAnswer hsame hq⟩
    obtain ⟨x, hx, rfl, hax⟩ := hlogged i r hi hr
    obtain ⟨y, hy, rfl, hay⟩ := hlogged j r' hj hr'
    exact (inTurn_assigned hreq hno hturn hs.rowsOk).2.1 x hx y hy hax hay
  · exact (Pool.exec_along (J := J (MirrorAgrees id)) (hstep _ fun hrows heff => heff.mirror hrows)
      schedule _ (hstart _ hm) halone).2.2

end Run

/-! ## Blocking and cancelling at once -/

def queuedRequests : List (Request × DateTime) := [
  (.createWorkItem ⟨sampleItem, sampleItem_valid⟩ sampleCaller none, epoch)]

/-- The store after the creation of a queued item. -/
def queuedStore : Store :=
  ((poolOf sampleOutside Store.empty queuedRequests).exec [0, 0, 0, 0]).state

theorem queuedStore_reachable : Reachable queuedStore :=
  ⟨sampleOutside, Table.empty, queuedRequests, [0, 0, 0, 0], rfl⟩

def sampleBlock : Request := .transition (.block "w1" sampleCaller "no")

def sampleCancel : Request := .transition (.cancel "w1" sampleCaller)

/-- Block the item, and cancel it. -/
def blockAndCancel : List (Request × DateTime) := [(sampleBlock, epoch), (sampleCancel, epoch)]

/-- The block loads the queued item, the whole cancellation runs, and the block goes on: both are
    answered 200 and the cancelled item is blocked, which is the end of no sequential order and
    leaves a terminal status. -/
theorem blockAndCancel_race :
    ¬ EndsInTurn (itemObserver queuedStore) (poolOf sampleOutside queuedStore blockAndCancel).threads
        queuedStore
        ((poolOf sampleOutside queuedStore blockAndCancel).exec [0, 1, 1, 1, 1, 1, 0, 0, 0, 0]) ∧
    ¬ ItemSerializable sampleOutside "w1" queuedStore blockAndCancel
        [0, 1, 1, 1, 1, 1, 0, 0, 0, 0] := by
  have hend : ((poolOf sampleOutside queuedStore blockAndCancel).exec
      [0, 1, 1, 1, 1, 1, 0, 0, 0, 0]).state.statusAt "w1" = some .blocked := rfl
  constructor
  · rintro ⟨log, t, hturn, hperm, hsame, -⟩
    have hblocked : t.statusAt "w1" = some .blocked := by
      rw [← hend, Store.statusAt, Store.itemAt, SameButLedger.workItems hsame]
      rfl
    have hblockFirst : ((sampleCancel.perform sampleOutside epoch).run
        ((sampleBlock.perform sampleOutside epoch).run queuedStore).2).2.statusAt "w1" =
        some .cancelled := rfl
    -- the other way round the block is refused, as the status is terminal
    have hrows : RowsOk (fun _ => True) ((sampleCancel.perform sampleOutside epoch).run
        queuedStore).2 :=
      (safe_request (fun _ _ => trivial) (fun _ _ _ => trivial) sampleOutside epoch).run_keeps
        queuedStore_reachable.rowsOk
    have hcancelFirst : ((sampleBlock.perform sampleOutside epoch).run
        ((sampleCancel.perform sampleOutside epoch).run queuedStore).2).2.statusAt "w1" =
        some .cancelled :=
      (effect_perform hrows (show sampleBlock.OnItem "w1" from rfl) sampleOutside epoch).terminal
        hrows rfl rfl
    rcases InTurn.pair (p := sampleBlock.perform sampleOutside epoch)
      (q := sampleCancel.perform sampleOutside epoch) hturn hperm with h | h <;> rw [h] at hblocked
    · cases hblockFirst.symm.trans hblocked
    · cases hcancelFirst.symm.trans hblocked
  · intro h
    have hcancelled := h.terminal 6 .cancelled rfl rfl
    rw [hend] at hcancelled
    cases hcancelled

/-- One after the other the requests meet the condition. -/
theorem itemRequests_serializable_inTurn :
    ItemSerializable sampleOutside "w1" queuedStore blockAndCancel [0, 0, 0, 0, 0, 1, 1, 1, 1, 1] := by
  refine itemRequests_serializable sampleOutside "w1" queuedStore queuedStore_reachable
    blockAndCancel ?_ _ (Atomic.along_inTurn (n := 5) (m := 5) rfl)
  intro r hr
  simp only [blockAndCancel, List.mem_cons, List.not_mem_nil, or_false] at hr
  rcases hr with rfl | rfl <;> rfl

end Vad
