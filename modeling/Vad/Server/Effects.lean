/-
  What each store method does when it returns: one lemma a method, cited by every proof about a
  service that calls it.

  A read returns what the row's payload builds and changes nothing (`returns_load…`); a write
  changes the store by one of the pure updates below (`putItem`, `putState`, `putEvent`, …), whose
  field lemmas are in the simp set; `appendEvent` succeeds exactly when the ledger can be listed and
  the envelope passes its checks (`returns_appendEvent`).
-/
import Vad.Server.WorkItems
import Vad.Server.Clients
import Vad.Server.Leases
import Vad.Server.Records

namespace Vad

open Keyed (Table Minted RecordId)
open Atomic (Program)
open Atomic.Program (Returns returns_bind returns_pure)

/-! ## Building what was stored -/

theorem fetched_eq_ok {α ρ : Type} [Model α] {key : String} {payload : ρ → α} {row : Option ρ}
    {a : Checked α} :
    fetched key payload row = .ok a ↔ ∃ r, row = some r ∧ Model.build (payload r) = .ok a := by
  cases row with
  | none => simp [fetched]
  | some r => simp [fetched]

theorem fetchedAll_eq_ok {α ρ : Type} [Model α] {payload : ρ → α} :
    ∀ {rows : List ρ} {as : List (Checked α)},
      fetchedAll payload rows = .ok as ↔
        List.Forall₂ (fun r a => Model.build (payload r) = .ok a) rows as := by
  intro rows
  induction rows with
  | nil => intro as; simp [fetchedAll, eq_comm]
  | cons r rows ih =>
    intro as
    simp only [fetchedAll]
    split
    · rename_i e he
      constructor
      · intro h; cases h
      · intro h
        cases h with
        | cons hr _ => rw [he] at hr; cases hr
    · rename_i a ha
      split
      · rename_i e he
        constructor
        · intro h; cases h
        · intro h
          cases h with
          | cons _ hrest => rw [ih.mpr hrest] at he; cases he
      · rename_i rest hrest
        constructor
        · intro h
          cases h
          exact .cons ha (ih.mp hrest)
        · intro h
          cases h with
          | cons hr htail =>
            rw [ih.mpr htail] at hrest
            rw [ha] at hr
            cases hr
            cases hrest
            rfl

/-- A list of rows whose payloads all build is read whole. -/
theorem fetchedAll_of_valid {α ρ : Type} [Model α] {payload : ρ → α} {rows : List ρ}
    (h : ∀ r ∈ rows, Model.Valid (payload r)) :
    ∃ as, fetchedAll payload rows = .ok as ∧ as.map Subtype.val = rows.map payload := by
  induction rows with
  | nil => exact ⟨[], rfl, rfl⟩
  | cons r rows ih =>
    obtain ⟨as, has, hmap⟩ := ih fun x hx => h x (List.mem_cons_of_mem r hx)
    have hr := Model.build_of_valid (h r (List.mem_cons_self ..))
    refine ⟨⟨payload r, h r (List.mem_cons_self ..)⟩ :: as, ?_, by simp [hmap]⟩
    simp [fetchedAll, hr, has]

theorem built_of_mem {α ρ : Type} [Model α] {payload : ρ → α} {rows : List ρ}
    {as : List (Checked α)} (h : fetchedAll payload rows = .ok as) {r : ρ} (hr : r ∈ rows) :
    ∃ a ∈ as, Model.build (payload r) = .ok a := by
  replace h := fetchedAll_eq_ok.mp h
  induction h with
  | nil => exact absurd hr List.not_mem_nil
  | cons hx _ ih =>
    rcases List.mem_cons.mp hr with rfl | hr
    · exact ⟨_, List.mem_cons_self .., hx⟩
    · obtain ⟨a, ha, hbuild⟩ := ih hr
      exact ⟨a, List.mem_cons_of_mem _ ha, hbuild⟩

theorem row_of_built {α ρ : Type} [Model α] {payload : ρ → α} {rows : List ρ}
    {as : List (Checked α)} (h : fetchedAll payload rows = .ok as) {a : Checked α} (ha : a ∈ as) :
    ∃ r ∈ rows, Model.build (payload r) = .ok a := by
  replace h := fetchedAll_eq_ok.mp h
  induction h with
  | nil => exact absurd ha List.not_mem_nil
  | cons hx _ ih =>
    rcases List.mem_cons.mp ha with rfl | ha
    · exact ⟨_, List.mem_cons_self .., hx⟩
    · obtain ⟨r, hr, hbuild⟩ := ih ha
      exact ⟨r, List.mem_cons_of_mem _ hr, hbuild⟩

/-- Models whose validators rewrite nothing come back as they were stored. -/
theorem build_val {α : Type} [Model α] (hid : ∀ a : α, Model.normalize a = a) {a : α}
    {b : Checked α} (h : Model.build a = .ok b) : b.1 = a := by
  rw [Model.build_eq_ok h, hid]

/-- The payloads of the rows that were read. -/
theorem vals_of_fetchedAll {α ρ : Type} [Model α] (hid : ∀ a : α, Model.normalize a = a)
    {payload : ρ → α} {rows : List ρ} {as : List (Checked α)}
    (h : fetchedAll payload rows = .ok as) : as.map Subtype.val = rows.map payload := by
  replace h := fetchedAll_eq_ok.mp h
  induction h with
  | nil => rfl
  | cons hr _ ih => rw [List.map_cons, List.map_cons, ih, build_val hid hr]

/-! ## Pure updates -/

namespace Store

/-- The row of the item, replaced. -/
def putItem (s : Store) (item : WorkItem) : Store :=
  { s with
    workItems := s.workItems.replace (workItemRow item)
    written := .workItem item :: s.written }

/-- The row of a run-task state, inserted or replaced. -/
def putState (s : Store) (st : RunTaskState) : Store :=
  { s with
    runTaskStates := s.runTaskStates.upsert (runTaskStateRow st)
    written := .runTaskState st :: s.written }

/-- The item and its mirror. -/
def putItemAndState (s : Store) (item : WorkItem) : Store :=
  (s.putItem item).putState (RunTaskState.ofItem item)

/-- The row of a lease, inserted or replaced. -/
def putLease (s : Store) (l : TaskLease) : Store :=
  { s with
    taskLeases := s.taskLeases.upsert (leaseRow l)
    written := .lease l :: s.written }

/-- The next event. -/
def putEvent (s : Store) (e : EventFields) : Store :=
  { s with
    controlPlaneEvents := s.controlPlaneEvents.append (fun k => eventRow ⟨e, k⟩) (eventRow_eventId e)
    written := .event ⟨e, .generated s.controlPlaneEvents.drawn⟩ :: s.written }

section Fields

variable (s : Store) (item : WorkItem) (st : RunTaskState) (l : TaskLease) (e : EventFields)

@[simp] theorem putItem_clientManifests : (s.putItem item).clientManifests = s.clientManifests := rfl
@[simp] theorem putItem_clientHeartbeats :
    (s.putItem item).clientHeartbeats = s.clientHeartbeats := rfl
@[simp] theorem putItem_taskLeases : (s.putItem item).taskLeases = s.taskLeases := rfl
@[simp] theorem putItem_workItems :
    (s.putItem item).workItems = s.workItems.replace (workItemRow item) := rfl
@[simp] theorem putItem_runTaskStates : (s.putItem item).runTaskStates = s.runTaskStates := rfl
@[simp] theorem putItem_controlPlaneEvents :
    (s.putItem item).controlPlaneEvents = s.controlPlaneEvents := rfl

@[simp] theorem putState_clientManifests : (s.putState st).clientManifests = s.clientManifests := rfl
@[simp] theorem putState_clientHeartbeats :
    (s.putState st).clientHeartbeats = s.clientHeartbeats := rfl
@[simp] theorem putState_taskLeases : (s.putState st).taskLeases = s.taskLeases := rfl
@[simp] theorem putState_workItems : (s.putState st).workItems = s.workItems := rfl
@[simp] theorem putState_runTaskStates :
    (s.putState st).runTaskStates = s.runTaskStates.upsert (runTaskStateRow st) := rfl
@[simp] theorem putState_controlPlaneEvents :
    (s.putState st).controlPlaneEvents = s.controlPlaneEvents := rfl

@[simp] theorem putLease_clientManifests : (s.putLease l).clientManifests = s.clientManifests := rfl
@[simp] theorem putLease_clientHeartbeats :
    (s.putLease l).clientHeartbeats = s.clientHeartbeats := rfl
@[simp] theorem putLease_taskLeases :
    (s.putLease l).taskLeases = s.taskLeases.upsert (leaseRow l) := rfl
@[simp] theorem putLease_workItems : (s.putLease l).workItems = s.workItems := rfl
@[simp] theorem putLease_runTaskStates : (s.putLease l).runTaskStates = s.runTaskStates := rfl
@[simp] theorem putLease_controlPlaneEvents :
    (s.putLease l).controlPlaneEvents = s.controlPlaneEvents := rfl

@[simp] theorem putEvent_clientManifests : (s.putEvent e).clientManifests = s.clientManifests := rfl
@[simp] theorem putEvent_clientHeartbeats :
    (s.putEvent e).clientHeartbeats = s.clientHeartbeats := rfl
@[simp] theorem putEvent_taskLeases : (s.putEvent e).taskLeases = s.taskLeases := rfl
@[simp] theorem putEvent_workItems : (s.putEvent e).workItems = s.workItems := rfl
@[simp] theorem putEvent_runTaskStates : (s.putEvent e).runTaskStates = s.runTaskStates := rfl
@[simp] theorem putEvent_rows :
    (s.putEvent e).controlPlaneEvents.rows = s.controlPlaneEvents.rows ++
      [eventRow ⟨e, .generated s.controlPlaneEvents.drawn⟩] := rfl

end Fields

end Store

/-! ## Reads -/

section Reads

variable {s s' : Store}

theorem returns_query {α : Type} {f : Store → Except PyError α} {a : α} :
    Returns (query f) s a s' ↔ f s = .ok a ∧ s' = s := by
  simp [Returns, eq_comm]

theorem returns_storeCall {α : Type} {p : Db α} {a : α} :
    Returns (storeCall p) s a s' ↔ Returns p s a s' := Iff.rfl

theorem returns_done {α : Type} {r : Except PyError α} {a : α} :
    Returns (Program.done r : Db α) s a s' ↔ r = .ok a ∧ s' = s := by
  simp [Returns, Program.run, eq_comm]

theorem returns_selectClientManifest {id : String} {m : Checked ClientManifest} :
    Returns (selectClientManifest id) s m s' ↔
      (∃ r, s.clientManifests.find? id = some r ∧ Model.build r.payload = .ok m) ∧ s' = s := by
  rw [selectClientManifest, returns_query, fetched_eq_ok]

theorem returns_loadClientManifest {id : String} {m : Checked ClientManifest} :
    Returns (loadClientManifest id) s m s' ↔
      (∃ r, s.clientManifests.find? id = some r ∧ Model.build r.payload = .ok m) ∧ s' = s :=
  returns_selectClientManifest

theorem returns_loadTaskLease {id : String} {l : Checked TaskLease} :
    Returns (loadTaskLease id) s l s' ↔
      (∃ r, s.taskLeases.find? id = some r ∧ Model.build r.payload = .ok l) ∧ s' = s := by
  rw [loadTaskLease, returns_storeCall, returns_query, fetched_eq_ok]

/-- What `acquire` finds of an old lease. -/
def existingIn (taskId : String) (s : Store) : Except PyError (Option (Checked TaskLease)) :=
  match fetched taskId LeaseRow.payload (s.taskLeases.find? taskId) with
  | .ok l => .ok (some l)
  | .error (.keyError _) => .ok none
  | .error e => .error e

/-- `try … except KeyError` around one read is one read. -/
theorem existingLease_eq (taskId : String) : existingLease taskId = query (existingIn taskId) := by
  show Program.call _ _ = Program.call _ _
  congr 1
  funext s
  show Program.handle (Program.bind (Program.done (fetched taskId LeaseRow.payload
    (s.taskLeases.find? taskId))) _) _ = Program.done (existingIn taskId s)
  unfold existingIn
  rcases fetched taskId LeaseRow.payload (s.taskLeases.find? taskId) with e | l
  · cases e <;> rfl
  · rfl

theorem returns_loadWorkItem {id : String} {item : Checked WorkItem} :
    Returns (loadWorkItem id) s item s' ↔
      (∃ r, s.workItems.find? id = some r ∧ Model.build r.payload = .ok item) ∧ s' = s := by
  rw [loadWorkItem, returns_storeCall, selectWorkItem, returns_query, fetched_eq_ok]

theorem returns_listWorkItems {runId : Option String} {status : Option WorkItemStatus}
    {clientId : Option String} {items : List (Checked WorkItem)} :
    Returns (listWorkItems runId status clientId) s items s' ↔
      fetchedAll WorkItemRow.payload
        (s.workItems.select (workItemMatches runId status clientId) workItemOrder) = .ok items ∧
      s' = s := by
  rw [listWorkItems, returns_storeCall, returns_query]

theorem returns_selectTaskLeases {clientId : Option String} {status : Option TaskLeaseStatus}
    {leases : List (Checked TaskLease)} :
    Returns (selectTaskLeases clientId status) s leases s' ↔
      fetchedAll LeaseRow.payload
        (s.taskLeases.select (leaseMatches clientId status) leaseOrder) = .ok leases ∧ s' = s := by
  rw [selectTaskLeases, returns_query]

theorem returns_listClientStatuses {statuses : List ClientStatusSnapshot} :
    Returns listClientStatuses s statuses s' ↔
      joinedSnapshots s (s.clientManifests.select (fun _ => true) manifestOrder) = .ok statuses ∧
      s' = s := by
  rw [listClientStatuses, returns_storeCall, returns_query]

end Reads

/-! ## Writes -/

section Writes

variable {s s' : Store}

theorem returns_execute {f : Store → Except PyError Store} {u : Unit} :
    Returns (execute f) s u s' ↔ f s = .ok s' := by
  rw [Returns, run_execute]
  cases f s with
  | ok t => simp
  | error e => simp

theorem returns_upsertStateRow {st : Checked RunTaskState} {u : Unit} :
    Returns (upsertStateRow st) s u s' ↔ s' = s.putState st.1 := by
  rw [upsertStateRow, returns_execute]
  exact ⟨fun h => (Except.ok.inj h).symm, fun h => h ▸ rfl⟩

theorem returns_upsertRunTaskState {st : Checked RunTaskState} {u : Unit} :
    Returns (upsertRunTaskState st) s u s' ↔ s' = s.putState st.1 := returns_upsertStateRow

theorem returns_upsertTaskLease {l l' : TaskLease} :
    Returns (upsertTaskLease l) s l' s' ↔
      (∃ r m, s.clientManifests.find? l.clientId = some r ∧
        Model.build r.payload = .ok m) ∧ l' = l ∧ s' = s.putLease l := by
  simp only [upsertTaskLease, returns_bind, returns_selectClientManifest, returns_execute,
    returns_pure]
  constructor
  · rintro ⟨m, _, ⟨⟨r, hr, hm⟩, rfl⟩, _, _, h, rfl, rfl⟩
    exact ⟨⟨r, m, hr, hm⟩, rfl, (Except.ok.inj h).symm⟩
  · rintro ⟨⟨r, m, hr, hm⟩, rfl, rfl⟩
    exact ⟨m, s, ⟨⟨r, hr, hm⟩, rfl⟩, (), _, rfl, rfl, rfl⟩

theorem returns_saveTaskLease {l l' : TaskLease} :
    Returns (saveTaskLease l) s l' s' ↔
      (∃ r m, s.clientManifests.find? l.clientId = some r ∧
        Model.build r.payload = .ok m) ∧ l' = l ∧ s' = s.putLease l := returns_upsertTaskLease

theorem returns_storeWorkItem {item item' : Checked WorkItem} :
    Returns (storeWorkItem item) s item' s' ↔
      (∃ r x, s.workItems.find? item.1.workItemId = some r ∧ Model.build r.payload = .ok x) ∧
      referencesHold s item.1 = true ∧ item' = item ∧ s' = s.putItemAndState item.1 := by
  simp only [storeWorkItem, returns_storeCall, returns_bind, selectWorkItem, returns_query,
    fetched_eq_ok, returns_execute, returns_upsertStateRow, returns_pure]
  constructor
  · rintro ⟨x, _, ⟨⟨r, hr, hx⟩, rfl⟩, _, s₂, h, _, _, rfl, rfl, rfl⟩
    split at h
    · rename_i href
      cases h
      exact ⟨⟨r, x, hr, hx⟩, href, rfl, rfl⟩
    · cases h
  · rintro ⟨⟨r, x, hr, hx⟩, href, rfl, rfl⟩
    refine ⟨x, s, ⟨⟨r, hr, hx⟩, rfl⟩, (), s.putItem item'.1, by rw [if_pos href]; rfl, (), _, rfl,
      rfl, rfl⟩

/-- Why `update_work_item` refuses an item, if it does. -/
def storeRefusal (s : Store) (item : WorkItem) : Option PyError :=
  match fetched item.workItemId WorkItemRow.payload (s.workItems.find? item.workItemId) with
  | .error e => some e
  | .ok _ => if referencesHold s item then none else some .integrityError

theorem run_storeWorkItem_eq (item : Checked WorkItem) (s : Store) :
    (storeWorkItem item).run s = match storeRefusal s item.1 with
      | none => (.ok item, s.putItemAndState item.1)
      | some e => (.error e, s) := by
  simp only [storeWorkItem, storeRefusal, run_storeCall, Program.run_bind, selectWorkItem, run_query,
    run_execute]
  cases fetched item.1.workItemId WorkItemRow.payload (s.workItems.find? item.1.workItemId) with
  | error e => rfl
  | ok x =>
    by_cases href : referencesHold s item.1 = true
    · simp only [if_pos href]
      rfl
    · simp only [if_neg href]

/-- `update_work_item` stores the item and its mirror, or raises and changes nothing. -/
theorem run_storeWorkItem (item : Checked WorkItem) (s : Store) :
    (storeWorkItem item).run s = (.ok item, s.putItemAndState item.1) ∨
      ∃ e, (storeWorkItem item).run s = (.error e, s) := by
  rw [run_storeWorkItem_eq]
  cases storeRefusal s item.1 with
  | none => exact Or.inl rfl
  | some e => exact Or.inr ⟨e, rfl⟩

/-- The item added to its table, with its mirror. -/
def Store.addItem (s : Store) (t : Table WorkItemRow.workItemId) (item : WorkItem) : Store :=
  Store.putState { s with workItems := t, written := .workItem item :: s.written }
    (RunTaskState.ofItem item)

/-- `save_work_item` adds the item and its mirror, or raises and changes nothing. -/
theorem run_saveWorkItem (item : Checked WorkItem) (s : Store) :
    (∃ t, s.workItems.insert (workItemRow item.1) = some t ∧ referencesHold s item.1 = true ∧
      (saveWorkItem item).run s = (.ok item, s.addItem t item.1)) ∨
      ∃ e, (saveWorkItem item).run s = (.error e, s) := by
  simp only [saveWorkItem, run_storeCall, Program.run_bind, run_execute]
  by_cases href : referencesHold s item.1 = true
  · rw [if_pos href]
    cases hins : s.workItems.insert (workItemRow item.1) with
    | none => exact Or.inr ⟨_, rfl⟩
    | some t => exact Or.inl ⟨t, rfl, href, rfl⟩
  · rw [if_neg href]
    exact Or.inr ⟨_, rfl⟩

theorem returns_appendGeneratedEvent {e : EventFields} {h : e.ok = true}
    {ev : Checked ControlPlaneEvent} :
    Returns (appendGeneratedEvent e h) s ev s' ↔
      ev.1 = ⟨e, .generated s.controlPlaneEvents.drawn⟩ ∧ s' = s.putEvent e := by
  simp only [Returns, appendGeneratedEvent, Program.run_atomic, Prod.mk.injEq, Except.ok.injEq]
  constructor
  · rintro ⟨rfl, rfl⟩
    exact ⟨rfl, rfl⟩
  · rintro ⟨h1, rfl⟩
    exact ⟨Subtype.ext h1.symm, rfl⟩

/-- The number of events that the next event is numbered after. -/
def Store.eventCount (s : Store) : Nat := s.controlPlaneEvents.rows.length

/-- Can the ledger be listed? -/
def Store.ledgerLists (s : Store) : Prop := ∀ r ∈ s.controlPlaneEvents.rows, Model.Valid r.payload

theorem returns_listControlPlaneEvents {events : List (Checked ControlPlaneEvent)} :
    Returns (listControlPlaneEvents none none) s events s' ↔
      fetchedAll EventRow.payload (s.controlPlaneEvents.table.select (fun _ => true) eventOrder) =
        .ok events ∧ s' = s := by
  simp [listControlPlaneEvents, returns_storeCall, returns_query]

/-- Listing the ledger gives as many events as there are rows. -/
theorem length_of_fetchedAll {events : List (Checked ControlPlaneEvent)}
    (h : fetchedAll EventRow.payload
      (s.controlPlaneEvents.table.select (fun _ => true) eventOrder) = .ok events) :
    events.length = s.eventCount := by
  rw [← (fetchedAll_eq_ok.mp h).length_eq, (Table.select_perm _ _ _).length_eq]
  simp [Store.eventCount, Minted.rows]

theorem ledgerLists_iff :
    s.ledgerLists ↔ ∃ events, fetchedAll EventRow.payload
      (s.controlPlaneEvents.table.select (fun _ => true) eventOrder) = .ok events := by
  constructor
  · intro h
    obtain ⟨events, hevents, -⟩ := @fetchedAll_of_valid _ _ _ EventRow.payload
      (s.controlPlaneEvents.table.select (fun _ => true) eventOrder)
      fun r hr => h r (Table.mem_select.mp hr).1
    exact ⟨events, hevents⟩
  · rintro ⟨events, hevents⟩ r hr
    have hmem : r ∈ s.controlPlaneEvents.table.select (fun _ => true) eventOrder :=
      Table.mem_select.mpr ⟨hr, rfl⟩
    obtain ⟨e, -, he⟩ := built_of_mem hevents hmem
    have := build_val (fun _ => rfl) he
    rw [← this]
    exact e.2

theorem eventCount_putEvent (e : EventFields) : (s.putEvent e).eventCount = s.eventCount + 1 := by
  simp [Store.eventCount]

/-- `appendEvent` returns iff the ledger lists and the envelope passes; then it adds that one
    event. -/
theorem returns_appendEvent {fields : Nat → EventFields} {ev : Checked ControlPlaneEvent} :
    Returns (appendEvent fields) s ev s' ↔
      s.ledgerLists ∧ (fields (s.eventCount + 1)).ok = true ∧
      ev.1 = ⟨fields (s.eventCount + 1), .generated s.controlPlaneEvents.drawn⟩ ∧
      s' = s.putEvent (fields (s.eventCount + 1)) := by
  rw [appendEvent, returns_bind, ledgerLists_iff]
  simp only [returns_listControlPlaneEvents]
  constructor
  · rintro ⟨events, _, ⟨hevents, rfl⟩, h⟩
    rw [← length_of_fetchedAll hevents]
    split at h
    · rename_i hok
      obtain ⟨hev, hs'⟩ := returns_appendGeneratedEvent.mp h
      exact ⟨⟨events, hevents⟩, hok, hev, hs'⟩
    · exact absurd h Program.not_returns_raise
  · rintro ⟨⟨events, hevents⟩, hok, hev, hs'⟩
    refine ⟨events, s, ⟨hevents, rfl⟩, ?_⟩
    rw [← length_of_fetchedAll hevents] at hok hev hs'
    rw [dif_pos hok]
    exact returns_appendGeneratedEvent.mpr ⟨hev, hs'⟩

/-- A listed ledger takes every event that passes its checks. -/
theorem exists_appendEvent {fields : Nat → EventFields} (hlists : s.ledgerLists)
    (hok : (fields (s.eventCount + 1)).ok = true) :
    ∃ ev, Returns (appendEvent fields) s ev (s.putEvent (fields (s.eventCount + 1))) :=
  ⟨⟨⟨_, .generated s.controlPlaneEvents.drawn⟩, (valid_generated_iff _ _).mpr hok⟩,
    returns_appendEvent.mpr ⟨hlists, hok, rfl, rfl⟩⟩

/-- `appendEvent` changes nothing when it raises. -/
theorem run_appendEvent_error {fields : Nat → EventFields} {e : PyError}
    (h : (Program.run (appendEvent fields) s).1 = .error e) :
    (Program.run (appendEvent fields) s).2 = s := by
  rw [appendEvent, Program.run_bind] at h ⊢
  simp only [listControlPlaneEvents, run_storeCall, run_query] at h ⊢
  cases hall : fetchedAll EventRow.payload (s.controlPlaneEvents.table.select _ eventOrder) with
  | error e' => rfl
  | ok events =>
    rw [hall] at h
    by_cases hok : (fields (events.length + 1)).ok = true
    · simp only [dif_pos hok] at h
      cases h
    · simp only [dif_neg hok]
      rfl

end Writes

/-! ## Transitions -/

namespace Store

/-- The item and its mirror stored, the mirror stored once more, and the event appended. -/
def moved (s : Store) (item : WorkItem) (e : EventFields) : Store :=
  ((s.putItemAndState item).putState (RunTaskState.ofItem item)).putEvent e

section Fields

variable (s : Store) (item : WorkItem) (e : EventFields)

@[simp] theorem putItemAndState_eventCount :
    ((s.putItemAndState item).putState (RunTaskState.ofItem item)).eventCount = s.eventCount := rfl

@[simp] theorem moved_clientManifests : (s.moved item e).clientManifests = s.clientManifests := rfl
@[simp] theorem moved_clientHeartbeats : (s.moved item e).clientHeartbeats = s.clientHeartbeats := rfl
@[simp] theorem moved_taskLeases : (s.moved item e).taskLeases = s.taskLeases := rfl
@[simp] theorem moved_workItems :
    (s.moved item e).workItems = s.workItems.replace (workItemRow item) := rfl
@[simp] theorem moved_rows :
    (s.moved item e).controlPlaneEvents.rows = s.controlPlaneEvents.rows ++
      [eventRow ⟨e, .generated s.controlPlaneEvents.drawn⟩] := rfl

end Fields

end Store

/-- The item loaded under an id. -/
def Loaded (s : Store) (id : String) (item : Checked WorkItem) : Prop :=
  ∃ r, s.workItems.find? id = some r ∧ Model.build r.payload = .ok item

/-- What `transition` did when it answered 409. -/
structure DeniedBy (s s' : Store) (current : Checked WorkItem) (target : WorkItemStatus)
    (caller : Caller) (now : DateTime) (r : WorkItemTransitionResult) : Prop where
  forbidden : target ∉ allowedWorkItemTransitions current.1.status
  code : r.statusCode = 409
  item : r.workItem = current
  decision : r.decision = transitionDecision current.1.status target
  recorded : ∃ summary, s' = s.putEvent (denialEvent current.1 caller summary now (s.eventCount + 1))

/-- What `transition` did when it answered 200. -/
structure MovedBy (s s' : Store) (current : Checked WorkItem) (target : WorkItemStatus)
    (caller : Caller) (change : WorkItemChange) (summary : Option String) (now : DateTime)
    (r : WorkItemTransitionResult) : Prop where
  allowed : target ∈ allowedWorkItemTransitions current.1.status
  code : r.statusCode = 200
  decision : r.decision = transitionDecision current.1.status target
  item : transitionedItem current target change now = .ok r.workItem
  found : ∃ row, s.workItems.find? r.workItem.1.workItemId = some row
  recorded : s' = s.moved r.workItem.1 (workItemEvent r.workItem.1 caller
    (transitionSummary r.workItem.1 summary) now (s.eventCount + 1))

theorem transitionDecision_allow {source target : WorkItemStatus} :
    (transitionDecision source target).allow = true ↔ target ∈ allowedWorkItemTransitions source := by
  unfold transitionDecision
  split <;> simp [*]

section Transitions

variable {s s' : Store}

/-- A transition changes the status to its target, and clears the owner and the lease when the
    target is `requeued`. -/
theorem transitionedItem_spec {current item : Checked WorkItem} {target : WorkItemStatus}
    {change : WorkItemChange} {now : DateTime}
    (h : transitionedItem current target change now = .ok item) :
    item.1.status = target ∧ item.1.workItemId = current.1.workItemId ∧
      item.1.runId = current.1.runId ∧
      item.1.requestedCapability = current.1.requestedCapability ∧
      (target = .requeued → item.1.assignedClientId = none ∧ item.1.leaseId = none) ∧
      (target ≠ .requeued → item.1.assignedClientId =
        (change.assignedClientId <|> current.1.assignedClientId)) := by
  unfold transitionedItem at h
  split at h
  · cases h
  · rename_i updated hupdated
    have hval := build_val (fun _ => rfl) hupdated
    split at h
    · rename_i htarget
      cases h
      simp [WorkItem.withoutOwner, hval, updatedData, htarget]
    · rename_i htarget
      cases h
      simp [hval, updatedData, htarget]

theorem returns_denyTransition {current : Checked WorkItem} {target : WorkItemStatus}
    {caller : Caller} {now : DateTime} {r : WorkItemTransitionResult}
    (hno : target ∉ allowedWorkItemTransitions current.1.status)
    (h : Returns (denyTransition current target caller now) s r s') :
    DeniedBy s s' current target caller now r := by
  obtain ⟨ev, s₁, hev, hret⟩ := returns_bind.mp h
  obtain ⟨rfl, rfl⟩ := returns_pure.mp hret
  obtain ⟨-, -, -, rfl⟩ := returns_appendEvent.mp hev
  exact ⟨hno, rfl, rfl, rfl, _, rfl⟩

theorem returns_recordTransition {saved : Checked WorkItem} {caller : Caller}
    {summary : Option String} {decision : PolicyDecision} {now : DateTime}
    {r : WorkItemTransitionResult}
    (h : Returns (recordTransition saved caller summary decision now) s r s') :
    r.statusCode = 200 ∧ r.workItem = saved ∧ r.decision = decision ∧
      s' = (s.putState (RunTaskState.ofItem saved.1)).putEvent
        (workItemEvent saved.1 caller (transitionSummary saved.1 summary) now (s.eventCount + 1)) := by
  obtain ⟨_, s₁, hstate, htail⟩ := returns_bind.mp h
  have hs₁ := returns_upsertRunTaskState.mp hstate
  obtain ⟨ev, s₂, hev, hret⟩ := returns_bind.mp htail
  obtain ⟨rfl, rfl⟩ := returns_pure.mp hret
  obtain ⟨-, -, -, hs₂⟩ := returns_appendEvent.mp hev
  refine ⟨rfl, rfl, rfl, ?_⟩
  rw [hs₂, hs₁]
  rfl

theorem returns_performTransition {current : Checked WorkItem} {target : WorkItemStatus}
    {caller : Caller} {change : WorkItemChange} {summary : Option String} {now : DateTime}
    {r : WorkItemTransitionResult} (hyes : target ∈ allowedWorkItemTransitions current.1.status)
    (h : Returns (performTransition current target caller change summary now) s r s') :
    MovedBy s s' current target caller change summary now r := by
  obtain ⟨item, s₁, hbuild, htail⟩ := returns_bind.mp h
  obtain ⟨hitem, hs₁⟩ := returns_done.mp hbuild
  subst hs₁
  obtain ⟨saved, s₂, hstore, hrest⟩ := returns_bind.mp htail
  obtain ⟨⟨row, x, hrow, -⟩, -, hsaved, hs₂⟩ := returns_storeWorkItem.mp hstore
  obtain ⟨hcode, hr, hdecision, hs'⟩ := returns_recordTransition hrest
  rw [hsaved] at hr hs'
  rw [← hr] at hitem hrow hs' hs₂
  refine ⟨hyes, hcode, hdecision, hitem, ⟨row, hrow⟩, ?_⟩
  rw [hs', hs₂]
  rfl

/-- A transition that returns answered 409 and recorded the denial, or answered 200 and moved the
    item it loaded. -/
theorem transition_cases {id : String} {target : WorkItemStatus} {caller : Caller}
    {change : WorkItemChange} {summary : Option String} {now : DateTime}
    {r : WorkItemTransitionResult}
    (h : Returns (transition id target caller change summary now) s r s') :
    ∃ current, Loaded s id current ∧ (DeniedBy s s' current target caller now r ∨
      MovedBy s s' current target caller change summary now r) := by
  obtain ⟨current, s₁, hread, htail⟩ := returns_bind.mp h
  obtain ⟨hload, hs₁⟩ := returns_loadWorkItem.mp hread
  subst hs₁
  refine ⟨current, hload, ?_⟩
  unfold transitionFrom at htail
  split at htail
  · rename_i hallow
    exact Or.inr (returns_performTransition (transitionDecision_allow.mp hallow) htail)
  · rename_i hallow
    exact Or.inl (returns_denyTransition (fun hin => hallow (transitionDecision_allow.mpr hin))
      htail)

end Transitions

/-! ## Scheduling -/

section Scheduling

variable {s s' : Store}

/-- Sorting by load reads the store and neither loses nor invents a client. -/
theorem returns_sortedByLoad {snapshots sorted : List ClientStatusSnapshot}
    (h : Returns (sortedByLoad snapshots) s sorted s') :
    s' = s ∧ ∀ c, c ∈ sorted → c ∈ snapshots := by
  obtain ⟨keyed, s₁, hkeyed, hret⟩ := returns_bind.mp h
  obtain ⟨rfl, rfl⟩ := returns_pure.mp hret
  have hloop := Program.returns_forEach
    (J := fun ran keyed t => t = s ∧ keyed.map Prod.snd = ran)
    (fun ran c rest as a t t' _ ht hc => by
      obtain ⟨leases, t₁, hleases, hpair⟩ := returns_bind.mp hc
      obtain ⟨-, ht₁⟩ := returns_selectTaskLeases.mp (returns_storeCall.mp hleases)
      obtain ⟨ha, ht'⟩ := returns_pure.mp hpair
      rw [ht', ht₁, ha]
      exact ⟨ht.1, by simp [ht.2]⟩)
    ⟨rfl, rfl⟩ hkeyed
  refine ⟨hloop.1, fun c hc => ?_⟩
  obtain ⟨k, hk, rfl⟩ := List.mem_map.mp hc
  rw [← hloop.2]
  exact List.mem_map_of_mem ((List.mem_insertionSort _).mp hk)

theorem returns_eligibleClients {item : WorkItem} {clients : List ClientStatusSnapshot}
    (h : Returns (eligibleClients item) s clients s') :
    s' = s ∧ ∃ statuses, joinedSnapshots s (s.clientManifests.select (fun _ => true) manifestOrder) =
      .ok statuses ∧ ∀ c ∈ clients, c ∈ statuses ∧ eligible item c = true := by
  obtain ⟨statuses, s₁, hlist, hsort⟩ := returns_bind.mp h
  obtain ⟨hstatuses, hs₁⟩ := returns_listClientStatuses.mp hlist
  subst hs₁
  obtain ⟨hs', hmem⟩ := returns_sortedByLoad hsort
  exact ⟨hs', statuses, hstatuses, fun c hc => List.mem_filter.mp (hmem c hc)⟩

/-- What `schedule_work_item` did when it answered 409 without trying an assignment. -/
structure ScheduleDeniedBy (s s' : Store) (item : Checked WorkItem) (caller : Caller)
    (now : DateTime) (r : SchedulerDecisionResult) : Prop where
  code : r.statusCode = 409
  answer : r.workItem = some item
  recorded : ∃ summary, s' = s.putEvent (denialEvent item.1 caller summary now (s.eventCount + 1))

/-- What `schedule_work_item` did when it tried an assignment. -/
structure ScheduledBy (s s' : Store) (item : Checked WorkItem) (caller : Caller)
    (now : DateTime) (r : SchedulerDecisionResult) (selected : ClientStatusSnapshot)
    (assignment : WorkItemTransitionResult) : Prop where
  waiting : schedulable item.1.status = true
  selectable : ∃ statuses, joinedSnapshots s
    (s.clientManifests.select (fun _ => true) manifestOrder) = .ok statuses ∧ selected ∈ statuses
  eligible : eligible item.1 selected = true
  assigned : ∃ summary, Returns (assign item.1.workItemId caller selected.manifest.1.clientId none
    (some summary) now) s assignment s'
  code : r.statusCode = assignment.statusCode
  answer : r.workItem = some assignment.workItem
  client : r.selectedClientId = some selected.manifest.1.clientId

theorem returns_denySchedule {item : Checked WorkItem} {caller : Caller} {denial : String}
    {now : DateTime} {r : SchedulerDecisionResult}
    (h : Returns (denySchedule item caller denial now) s r s') :
    ScheduleDeniedBy s s' item caller now r := by
  obtain ⟨ev, s₁, hev, hret⟩ := returns_bind.mp h
  obtain ⟨rfl, rfl⟩ := returns_pure.mp hret
  obtain ⟨-, -, -, rfl⟩ := returns_appendEvent.mp hev
  exact ⟨rfl, rfl, _, rfl⟩

theorem schedule_cases {id : String} {caller : Caller} {now : DateTime}
    {r : SchedulerDecisionResult} (h : Returns (scheduleWorkItem id caller now) s r s') :
    ∃ item, Loaded s id item ∧ (ScheduleDeniedBy s s' item caller now r ∨
      ∃ selected assignment, ScheduledBy s s' item caller now r selected assignment) := by
  obtain ⟨item, s₁, hread, htail⟩ := returns_bind.mp h
  obtain ⟨hload, hs₁⟩ := returns_loadWorkItem.mp hread
  subst hs₁
  refine ⟨item, hload, ?_⟩
  unfold scheduleFrom at htail
  split at htail
  · rename_i hwaiting
    obtain ⟨clients, s₂, hclients, hrest⟩ := returns_bind.mp htail
    obtain ⟨hs₂, statuses, hstatuses, hmem⟩ := returns_eligibleClients hclients
    subst hs₂
    cases clients with
    | nil => exact Or.inl (returns_denySchedule hrest)
    | cons selected rest =>
      obtain ⟨assignment, s₃, hassign, hret⟩ := returns_bind.mp hrest
      obtain ⟨rfl, rfl⟩ := returns_pure.mp hret
      have hsel := hmem selected (List.mem_cons_self ..)
      exact Or.inr ⟨selected, assignment, hwaiting, ⟨statuses, hstatuses, hsel.1⟩, hsel.2,
        ⟨_, hassign⟩, rfl, rfl, rfl⟩
  · exact Or.inl (returns_denySchedule htail)

/-- `schedule_next` finds nothing to do, or schedules an item. -/
theorem scheduleNext_cases {runId : Option String} {caller : Caller} {now : DateTime}
    {r : SchedulerDecisionResult} (h : Returns (scheduleNext runId caller now) s r s') :
    (r = nothingQueued ∧ s' = s) ∨ ∃ id, Returns (scheduleWorkItem id caller now) s r s' := by
  obtain ⟨items, s₁, hlist, htail⟩ := returns_bind.mp h
  obtain ⟨-, hs₁⟩ := returns_listWorkItems.mp hlist
  subst hs₁
  split at htail
  · exact Or.inl (returns_pure.mp htail)
  · exact Or.inr ⟨_, htail⟩

end Scheduling

end Vad
