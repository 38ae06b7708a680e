/-
  The work-item state machine over runs.

  Three tables move together: the items, their mirror `run_task_states`, and the ledger.  A run is
  `runAll`: the requests one after the other, each alone.  What is proved about it:

  1. every store call of a run moves the stored statuses along `allowedWorkItemTransitions`
     (`StatusStep`), hence terminal statuses are never left;
  2. a call that answers 409 touches no item and no mirror and appends one denial (`Denied`);
  3. a call that answers 200 changes the one item and its mirror and appends one event (`Moved`);
  4. after a run of returning calls from an empty database, the last `work_item` event of an item
     carries the status of the stored item (`LedgerAgrees`).

  Of all store methods only those in `transition` and `createWorkItem` touch what 1 and 4 speak of;
  for the others one lemma each (`quiet_…`) is enough.
-/
import Vad.Server.ClientTables

namespace Vad

open Keyed (Table Minted RecordId)
open Atomic (Program)
open Atomic.Program (Safe Solo Keeps Within Returns returns_bind returns_pure)

/-- The requests one after the other, with the time each one's clock shows. -/
def runAll (o : Outside) (requests : List (Request × DateTime)) : Db (List Response) :=
  Program.forEach requests fun r => r.1.perform o r.2

/-! ## What a step may do -/

/-- The item that a load of `id` reads. -/
def Store.itemAt (s : Store) (id : String) : Option WorkItem :=
  (s.workItems.find? id).map WorkItemRow.payload

/-- The stored status of an item. -/
def Store.statusAt (s : Store) (id : String) : Option WorkItemStatus :=
  (s.itemAt id).map WorkItem.status

/-- Stored items stay, and their statuses move along allowed transitions only. -/
def StatusStep (s s' : Store) : Prop :=
  ∀ id status, s.statusAt id = some status → ∃ status', s'.statusAt id = some status' ∧
    (status' = status ∨ status' ∈ allowedWorkItemTransitions status)

/-- The `work_item` events of an item, in the order in which they were appended. -/
def Store.workItemEvents (s : Store) (id : String) : List ControlPlaneEvent :=
  (s.controlPlaneEvents.rows.map EventRow.payload).filter
    (fun e => e.kind = .workItem && e.taskId = some id)

/-- The last `work_item` event of every stored item carries the status of the item. -/
def LedgerAgrees (s : Store) : Prop :=
  ∀ id status, s.statusAt id = some status →
    ∃ e, (s.workItemEvents id).getLast? = some e ∧ e.status = eventStatus status

/-- No item changes. -/
def ItemsKept (s s' : Store) : Prop := ∀ id, s'.itemAt id = s.itemAt id

theorem ItemsKept.statusStep {s s' : Store} (h : ItemsKept s s') : StatusStep s s' :=
  fun id status hs => ⟨status, by rw [Store.statusAt, h, ← hs, Store.statusAt], Or.inl rfl⟩

/-- No item and no `work_item` event changes. -/
def Quiet (s s' : Store) : Prop :=
  ItemsKept s s' ∧ ∀ id, s'.workItemEvents id = s.workItemEvents id

theorem Quiet.refl (s : Store) : Quiet s s := ⟨fun _ => rfl, fun _ => rfl⟩

theorem Quiet.trans {a b c : Store} (hab : Quiet a b) (hbc : Quiet b c) : Quiet a c :=
  ⟨fun id => (hbc.1 id).trans (hab.1 id), fun id => (hbc.2 id).trans (hab.2 id)⟩

theorem Quiet.statusAt {s s' : Store} (h : Quiet s s') (id : String) :
    s'.statusAt id = s.statusAt id := by rw [Store.statusAt, Store.statusAt, h.1]

theorem Quiet.ledgerAgrees {s s' : Store} (h : Quiet s s') (hs : LedgerAgrees s) :
    LedgerAgrees s' := by
  intro id status hst
  rw [h.statusAt] at hst
  rw [h.2]
  exact hs id status hst

/-! ## Quiet methods -/

/-- `p` is quiet call by call, whatever the store. -/
abbrev QuietProgram {α : Type} (p : Db α) : Prop := Safe (fun _ => True) Quiet p

/-- A change of other tables is quiet. -/
theorem quiet_of_eq {s s' : Store} (hitems : s'.workItems = s.workItems)
    (hevents : s'.controlPlaneEvents = s.controlPlaneEvents) : Quiet s s' := by
  constructor <;> intro id
  · rw [Store.itemAt, Store.itemAt, hitems]
  · rw [Store.workItemEvents, Store.workItemEvents, hevents]

theorem quiet_putEvent {s : Store} {e : EventFields} (he : e.kind ≠ .workItem) :
    Quiet s (s.putEvent e) := by
  refine ⟨fun _ => rfl, fun id => ?_⟩
  simp [Store.workItemEvents, eventRow, he]

theorem quiet_deleteManifest (id : String) (s : Store) : Quiet s (deleteManifest id s) := by
  refine ⟨fun k => ?_, fun _ => rfl⟩
  unfold Store.itemAt deleteManifest
  rw [Table.find?_mapRows, Option.map_map]
  rfl

theorem quiet_offClients : OffClients Quiet where
  refl := Quiet.refl
  trans := Quiet.trans
  tables _ _ _ _ _ := quiet_of_eq rfl rfl
  delete := quiet_deleteManifest

theorem quiet_query {α : Type} (f : Store → Except PyError α) : QuietProgram (query f) :=
  quiet_offClients.query f

theorem quiet_appendEvent {fields : Nat → EventFields} (h : ∀ n, (fields n).kind ≠ .workItem) :
    QuietProgram (appendEvent fields) := by
  refine Program.safe_bind (quiet_query _) fun events => ?_
  show Safe _ _ (if h : (fields (events.length + 1)).ok = true then _ else _)
  split
  · exact Program.safe_atomic fun s _ => ⟨quiet_putEvent (h _), trivial⟩
  · trivial

/-! ## Programs that touch no item -/

/-- `p` changes no item, call by call, whatever the store. -/
abbrev ItemsKeptProgram {α : Type} (p : Db α) : Prop := Safe (fun _ => True) ItemsKept p

theorem itemsKept_of_quiet {α : Type} {p : Db α} (h : QuietProgram p) : ItemsKeptProgram p :=
  h.mono fun _ _ _ hR => hR.1

theorem itemsKept_appendGenerated {e : EventFields} (h : e.ok = true) :
    ItemsKeptProgram (appendGeneratedEvent e h) :=
  Program.safe_atomic fun _ _ => ⟨fun _ => rfl, trivial⟩

theorem itemsKept_appendEvent (fields : Nat → EventFields) :
    ItemsKeptProgram (appendEvent fields) := by
  refine Program.safe_bind (itemsKept_of_quiet (quiet_query _)) fun events => ?_
  show Safe _ _ (if h : (fields (events.length + 1)).ok = true then _ else _)
  split
  · exact itemsKept_appendGenerated _
  · trivial

theorem itemsKept_recordTransition (saved : Checked WorkItem) (caller : Caller)
    (summary : Option String) (decision : PolicyDecision) (now : DateTime) :
    ItemsKeptProgram (recordTransition saved caller summary decision now) :=
  Program.safe_bind (Program.safe_atomic fun _ _ => ⟨fun _ => rfl, trivial⟩) fun _ =>
    Program.safe_bind (itemsKept_appendEvent _) fun _ => trivial

theorem itemsKept_appendControlPlaneEvent (e : Checked ControlPlaneEvent) :
    ItemsKeptProgram (appendControlPlaneEvent e) := by
  refine Program.safe_atomic fun s _ => ⟨fun id => ?_, trivial⟩
  simp only [Program.run_bind, run_execute]
  by_cases hseq : e.1.sequence < 2 ^ 63
  · rw [if_pos hseq]
    cases s.controlPlaneEvents.insert (eventRow e.1) <;> rfl
  · rw [if_neg hseq]

theorem itemsKept_appendNumbered (e : EventFields) : ItemsKeptProgram (appendNumbered e) := by
  unfold appendNumbered
  split
  · split
    · exact itemsKept_appendGenerated _
    · trivial
  · trivial

theorem itemsKept_ingest (e : EventFields) (eventId : Option RecordId) (now : DateTime) :
    ItemsKeptProgram (ingest e eventId now) := by
  unfold ingest
  simp only
  split
  · refine Program.safe_bind ?_ fun _ => trivial
    cases eventId with
    | none => exact itemsKept_appendNumbered e
    | some id => exact Program.safe_bind trivial fun event => itemsKept_appendControlPlaneEvent event
  · exact Program.safe_bind (itemsKept_appendNumbered _) fun _ => trivial

theorem ItemsKeptProgram.within {α : Type} {p : Db α} (h : ItemsKeptProgram p) (s : Store) :
    Within StatusStep p s := (h.solo s trivial).mono fun _ _ hR => hR.1.statusStep

/-! ## Transitions, step by step -/

/-- Storing an item in place of one with an allowed predecessor status is a step. -/
theorem statusStep_putItem {s : Store} {current item : Checked WorkItem} {target : WorkItemStatus}
    (hrow : s.itemAt current.1.workItemId = some current.1) (hid : item.1.workItemId = current.1.workItemId)
    (hstatus : item.1.status = target)
    (hedge : target ∈ allowedWorkItemTransitions current.1.status) :
    StatusStep s (s.putItemAndState item.1) := by
  intro id status hst
  by_cases hk : item.1.workItemId = id
  · subst hk
    rw [Store.statusAt, hid, hrow] at hst
    cases hst
    refine ⟨target, ?_, Or.inr hedge⟩
    obtain ⟨row, hfound, -⟩ := Option.map_eq_some_iff.mp hrow
    simp [Store.statusAt, Store.itemAt, Store.putItemAndState, Table.find?_replace, workItemRow,
      hid, hfound, hstatus]
  · refine ⟨status, ?_, Or.inl rfl⟩
    rw [← hst]
    simp [Store.statusAt, Store.itemAt, Store.putItemAndState, Table.find?_replace, workItemRow, hk]

/-- What is loaded under an id is the stored item, and bears that id. -/
theorem Loaded.itemAt {P : Option String → Prop} {s : Store} (hs : RowsOk P s) {id : String}
    {item : Checked WorkItem} (h : Loaded s id item) :
    s.itemAt id = some item.1 ∧ item.1.workItemId = id := by
  obtain ⟨row, hrow, hbuild⟩ := h
  have hval := build_val (fun _ => rfl) hbuild
  refine ⟨by rw [Store.itemAt, hrow, hval]; rfl, ?_⟩
  rw [hval, (hs.items row (Table.mem_of_find? hrow)).id, Table.key_of_find? hrow]

/-- Call by call, a transition is what its one writing call is: that of a loaded item whose moved
    version is stored.  All other calls leave the items alone. -/
theorem within_transition_of {P : Option String → Prop} {s : Store} (hs : RowsOk P s)
    {R : Store → Store → Prop} (hkept : ∀ a b, ItemsKept a b → R a b) (id : String)
    (target : WorkItemStatus) (caller : Caller) (change : WorkItemChange)
    (summary : Option String) (now : DateTime)
    (hstored : ∀ current item : Checked WorkItem, s.itemAt id = some current.1 →
      current.1.workItemId = id → target ∈ allowedWorkItemTransitions current.1.status →
      transitionedItem current target change now = .ok item →
      Returns (storeWorkItem item) s item (s.putItemAndState item.1) →
      R s (s.putItemAndState item.1)) :
    Within R (transition id target caller change summary now) s := by
  have hquiet : ∀ {α : Type} {p : Db α} {t : Store}, ItemsKeptProgram p → Within R p t := fun hp =>
    (hp.solo _ trivial).mono fun a b hR => hkept a b hR.1
  refine Program.within_bind (hquiet (itemsKept_of_quiet (quiet_query _))) fun current s₁ hread => ?_
  obtain ⟨hload, hs₁⟩ := returns_loadWorkItem.mp hread
  subst hs₁
  have hcurrent := Loaded.itemAt hs hload
  unfold transitionFrom
  split
  · rename_i hallow
    refine Program.within_bind trivial fun item s₂ hbuild => ?_
    obtain ⟨hitem, hs₂⟩ := returns_done.mp hbuild
    subst hs₂
    refine Program.within_bind (Program.within_atomic.mpr ?_) fun saved s₃ _ =>
      hquiet (itemsKept_recordTransition saved caller summary _ now)
    -- the one call that writes an item
    show R s₂ ((storeWorkItem item).run s₂).2
    rcases run_storeWorkItem item s₂ with hrun | ⟨e, hrun⟩
    · rw [hrun]
      exact hstored current item hcurrent.1 hcurrent.2 (transitionDecision_allow.mp hallow) hitem hrun
    · rw [hrun]
      exact hkept _ _ (Quiet.refl s₂).1
  · exact hquiet (Program.safe_bind (itemsKept_appendEvent _) fun _ => Program.safe_pure _)

theorem within_transition {P : Option String → Prop} {s : Store} (hs : RowsOk P s) (id : String)
    (target : WorkItemStatus) (caller : Caller) (change : WorkItemChange)
    (summary : Option String) (now : DateTime) :
    Within StatusStep (transition id target caller change summary now) s := by
  refine within_transition_of hs (fun _ _ h => h.statusStep) id target caller change summary now ?_
  intro current item hcurrent hid hallowed hitem _
  obtain ⟨hstatus, hsame, -⟩ := transitionedItem_spec hitem
  exact statusStep_putItem (by rw [hid]; exact hcurrent) hsame hstatus hallowed

/-- Adding an item is a step: the stored ones stay. -/
theorem statusStep_addItem {s : Store} {t : Table WorkItemRow.workItemId} {item : WorkItem}
    (ht : s.workItems.insert (workItemRow item) = some t) : StatusStep s (s.addItem t item) := by
  intro id status hst
  refine ⟨status, ?_, Or.inl rfl⟩
  rw [← hst]
  have hnone := (Table.insert_eq_some.mp ht).1
  show ((t.find? id).map _).map _ = ((s.workItems.find? id).map _).map _
  rw [Table.find?_insert ht]
  split
  · rename_i hid
    rw [Store.statusAt, Store.itemAt, ← hid, hnone] at hst
    cases hst
  · rfl

theorem within_createWorkItem (s : Store) (item : Checked WorkItem) (caller : Caller)
    (summary : Option String) (now : DateTime) :
    Within StatusStep (createWorkItem item caller summary now) s := by
  refine Program.within_bind (Program.within_atomic.mpr ?_) fun saved s₁ _ =>
    ItemsKeptProgram.within (Program.safe_bind (Program.safe_atomic fun _ _ =>
      ⟨fun _ => rfl, trivial⟩) fun _ => Program.safe_bind (itemsKept_appendEvent _) fun _ =>
        Program.safe_pure _) s₁
  show StatusStep s ((saveWorkItem item).run s).2
  rcases run_saveWorkItem item s with ⟨t, ht, -, hrun⟩ | ⟨e, hrun⟩
  · rw [hrun]
    exact statusStep_addItem ht
  · rw [hrun]
    exact (Quiet.refl s).1.statusStep

/-! ## Rule 1: the steps of a run -/

theorem solo_of_itemsKept {P : Option String → Prop} {α : Type} {p : Db α}
    (hr : Safe (RowsOk P) Any p) (hq : ItemsKeptProgram p) : Solo (RowsOk P) StatusStep p :=
  ((hr.along hq).mono fun _ _ _ h => h.statusStep).solo

theorem statusStep_rule {P : Option String → Prop} (hP : WeakerThanValid P) :
    RequestRule P (fun {_} p => Solo (RowsOk P) StatusStep p) :=
  have rows := rowsOk_rule hP
  { done := fun _ _ _ => trivial
    bind := fun hp hk => Program.solo_bind hp hk
    query := fun f => solo_of_itemsKept (rows.query f) (itemsKept_of_quiet (quiet_query f))
    registerClientManifest := fun m => solo_of_itemsKept (rows.registerClientManifest m)
      (itemsKept_of_quiet (quiet_offClients.registerClientManifest m))
    unregisterClientManifest := fun id => solo_of_itemsKept (rows.unregisterClientManifest id)
      (itemsKept_of_quiet (quiet_offClients.unregisterClientManifest id))
    recordClientHeartbeat := fun b => solo_of_itemsKept (rows.recordClientHeartbeat b)
      (itemsKept_of_quiet (quiet_offClients.recordClientHeartbeat b))
    markClientStale := fun id => solo_of_itemsKept (rows.markClientStale id)
      (itemsKept_of_quiet (quiet_offClients.markClientStale id))
    saveTaskLease := fun l hl => solo_of_itemsKept (rows.saveTaskLease l hl)
      (itemsKept_of_quiet (quiet_offClients.saveTaskLease l))
    appendEvent := fun fields h => solo_of_itemsKept (rows.appendEvent fields h)
      (itemsKept_appendEvent fields)
    createWorkItem := fun item caller summary now =>
      (rows.createWorkItem item caller summary now).solo_within fun s _ =>
        within_createWorkItem s item caller summary now
    transition := fun id target caller change summary now =>
      (rows.transition id target caller change summary now).solo_within fun _ hs =>
        within_transition hs id target caller change summary now
    saveDiffProposal := fun p hid hp => solo_of_itemsKept (rows.saveDiffProposal p hid hp)
      (Program.safe_atomic fun _ _ => ⟨fun _ => rfl, trivial⟩)
    saveApprovalEvent := fun e hid => solo_of_itemsKept (rows.saveApprovalEvent e hid)
      (Program.safe_atomic fun _ _ => ⟨fun _ => rfl, trivial⟩) }

theorem solo_runAll (o : Outside) (requests : List (Request × DateTime)) :
    Solo (RowsOk fun _ => True) StatusStep (runAll o requests) :=
  Program.solo_forEach fun r _ =>
    (statusStep_rule fun _ _ => trivial).request (fun _ _ => trivial)
      (fun e id now _ => solo_of_itemsKept (safe_ingest e id now) (itemsKept_ingest e id now))
      (fun _ _ _ => trivial) o r.2

/-- A status that no transition leaves. -/
def Terminal (status : WorkItemStatus) : Prop := allowedWorkItemTransitions status = []

theorem terminal_kept {s s' : Store} (h : StatusStep s s') {id : String} {status : WorkItemStatus}
    (ht : Terminal status) (hs : s.statusAt id = some status) : s'.statusAt id = some status := by
  obtain ⟨status', hs', hstep⟩ := h id status hs
  rcases hstep with rfl | hedge
  · exact hs'
  · rw [ht] at hedge
    exact absurd hedge List.not_mem_nil

/-! ## Rule 2: the ledger -/

/-- The invariant between two requests of a run. -/
def Recorded (s : Store) : Prop := RowsOk (fun _ => True) s ∧ LedgerAgrees s

/-- A new event about a work item is the last one of its item, and of no other. -/
theorem workItemEvents_putEvent {s : Store} {e : EventFields} {k : String}
    (hkind : e.kind = .workItem) (htask : e.taskId = some k) (id : String) :
    (s.putEvent e).workItemEvents id = if k = id then
      s.workItemEvents id ++ [⟨e, .generated s.controlPlaneEvents.drawn⟩]
      else s.workItemEvents id := by
  by_cases hid : k = id
  · simp [Store.workItemEvents, eventRow, hkind, htask, hid]
  · simp [Store.workItemEvents, eventRow, htask, hid]

/-- Storing one item and recording its status restores the invariant of the ledger. -/
theorem ledgerAgrees_record {s t : Store} (hs : LedgerAgrees s) {item : WorkItem} {e : EventFields}
    (hitem : t.itemAt item.workItemId = some item)
    (hothers : ∀ id, id ≠ item.workItemId → t.itemAt id = s.itemAt id)
    (hevents : ∀ id, t.workItemEvents id = s.workItemEvents id)
    (hkind : e.kind = .workItem) (htask : e.taskId = some item.workItemId)
    (hstatus : e.status = eventStatus item.status) : LedgerAgrees (t.putEvent e) := by
  intro id status hst
  rw [workItemEvents_putEvent hkind htask]
  by_cases hid : item.workItemId = id
  · subst hid
    have : item.status = status := by
      have h : (t.itemAt item.workItemId).map WorkItem.status = some status := hst
      rw [hitem] at h
      exact Option.some.inj h
    refine ⟨⟨e, .generated t.controlPlaneEvents.drawn⟩, by simp, ?_⟩
    rw [← this]
    exact hstatus
  · rw [if_neg hid, hevents]
    refine hs id status ?_
    rw [Store.statusAt, ← hothers id (fun h => hid h.symm)]
    exact hst

theorem itemAt_putItem {s : Store} {item : WorkItem}
    (hfound : ∃ row, s.workItems.find? item.workItemId = some row) (id : String) :
    (s.putItem item).itemAt id = if id = item.workItemId then some item else s.itemAt id := by
  obtain ⟨row, hrow⟩ := hfound
  by_cases hid : item.workItemId = id
  · subst hid
    simp [Store.itemAt, Table.find?_replace, workItemRow, hrow]
  · have hid' : ¬ id = item.workItemId := fun h => hid h.symm
    simp [Store.itemAt, Table.find?_replace, workItemRow, hid, hid']

/-- A returning transition restores the invariant, whether it moved the item or not. -/
theorem recorded_transition (id : String) (target : WorkItemStatus) (caller : Caller)
    (change : WorkItemChange) (summary : Option String) (now : DateTime) :
    Keeps Recorded (transition id target caller change summary now) := by
  intro s r s' ⟨hrows, hledger⟩ hret
  refine ⟨(safe_transition id target caller change summary now).solo.keeps s r s' hrows hret, ?_⟩
  obtain ⟨current, -, h | h⟩ := transition_cases hret
  · obtain ⟨summary', hs'⟩ := h.recorded
    rw [hs']
    exact (quiet_putEvent (by simp [denialEvent, itemEvent])).ledgerAgrees hledger
  · rw [h.recorded]
    have hat := itemAt_putItem h.found
    refine @ledgerAgrees_record _ _ hledger r.workItem.1 _ ?_ ?_ ?_ rfl rfl rfl
    · exact (hat _).trans (if_pos rfl)
    · exact fun k hk => (hat k).trans (if_neg hk)
    · exact fun k => rfl

theorem recorded_createWorkItem (item : Checked WorkItem) (caller : Caller)
    (summary : Option String) (now : DateTime) :
    Keeps Recorded (createWorkItem item caller summary now) := by
  intro s r s' ⟨hrows, hledger⟩ hret
  refine ⟨(safe_createWorkItem item caller summary now).solo.keeps s r s' hrows hret, ?_⟩
  obtain ⟨saved, s₁, hsave, htail⟩ := returns_bind.mp hret
  obtain ⟨_, s₂, hstate, hrest⟩ := returns_bind.mp htail
  have hs₂ := returns_upsertRunTaskState.mp hstate
  obtain ⟨ev, s₃, hevent, hend⟩ := returns_bind.mp hrest
  obtain ⟨-, rfl⟩ := returns_pure.mp hend
  obtain ⟨-, -, -, hs₃⟩ := returns_appendEvent.mp hevent
  rcases run_saveWorkItem item s with ⟨t, ht, -, hrun⟩ | ⟨e, hrun⟩
  · obtain ⟨hsaved, hs₁⟩ := Program.Returns.unique hsave hrun
    have hfind := Table.find?_insert ht
    have hat : ∀ k, s₂.itemAt k = if k = item.1.workItemId then some item.1 else s.itemAt k := by
      intro k
      rw [hs₂, hs₁]
      show (t.find? k).map _ = _
      rw [hfind]
      by_cases hk : k = item.1.workItemId
      · rw [if_pos hk, if_pos (show (workItemRow item.1).workItemId = k from hk.symm)]
        rfl
      · rw [if_neg hk, if_neg (show ¬ (workItemRow item.1).workItemId = k from fun h => hk h.symm)]
        rfl
    rw [hs₃, hsaved]
    refine @ledgerAgrees_record _ _ hledger item.1 _ ?_ ?_ ?_ rfl rfl rfl
    · exact (hat _).trans (if_pos rfl)
    · exact fun k hk => (hat k).trans (if_neg hk)
    · exact fun k => by rw [hs₂, hs₁]; rfl
  · rw [Returns, hrun] at hsave
    cases hsave

theorem recorded_of_quiet {α : Type} {p : Db α} (hr : Safe (RowsOk fun _ => True) Any p)
    (hq : QuietProgram p) : Keeps Recorded p := fun s a s' hs hret =>
  ⟨hr.solo.keeps s a s' hs.1 hret, by
    have h := ((hq.solo s trivial).mono fun _ _ hR => hR.1).run Quiet.refl Quiet.trans
    rw [show Program.run p s = (.ok a, s') from hret] at h
    exact h.ledgerAgrees hs.2⟩

theorem recorded_rule : RequestRule (fun _ => True) (fun {_} p => Keeps Recorded p) :=
  have rows := rowsOk_rule (P := fun _ => True) fun _ _ => trivial
  { done := fun r s a s' hs hret => by rw [(returns_done.mp hret).2]; exact hs
    bind := fun hp hk => Program.keeps_bind hp hk
    query := fun f => recorded_of_quiet (rows.query f) (quiet_query f)
    registerClientManifest := fun m => recorded_of_quiet (rows.registerClientManifest m)
      (quiet_offClients.registerClientManifest m)
    unregisterClientManifest := fun id => recorded_of_quiet (rows.unregisterClientManifest id)
      (quiet_offClients.unregisterClientManifest id)
    recordClientHeartbeat := fun b => recorded_of_quiet (rows.recordClientHeartbeat b)
      (quiet_offClients.recordClientHeartbeat b)
    markClientStale := fun id => recorded_of_quiet (rows.markClientStale id)
      (quiet_offClients.markClientStale id)
    saveTaskLease := fun l hl => recorded_of_quiet (rows.saveTaskLease l hl)
      (quiet_offClients.saveTaskLease l)
    appendEvent := fun fields h => recorded_of_quiet (rows.appendEvent fields h)
      (quiet_appendEvent h.kind)
    createWorkItem := recorded_createWorkItem
    transition := recorded_transition
    saveDiffProposal := fun p hid hp => recorded_of_quiet (rows.saveDiffProposal p hid hp)
      (Program.safe_atomic fun _ _ => ⟨quiet_of_eq rfl rfl, trivial⟩)
    saveApprovalEvent := fun e hid => recorded_of_quiet (rows.saveApprovalEvent e hid)
      (Program.safe_atomic fun _ _ => ⟨quiet_of_eq rfl rfl, trivial⟩) }

/-! ## One call -/

/-- What a call that answers 409 leaves behind: one denial that names the item. -/
structure Denied (s s' : Store) (id : String) : Prop where
  items : s'.workItems = s.workItems
  states : s'.runTaskStates = s.runTaskStates
  event : ∃ e, s'.controlPlaneEvents.rows = s.controlPlaneEvents.rows ++ [e] ∧
    e.payload.kind = .policyDenied ∧ e.payload.status = .blocked ∧ e.payload.taskId = some id

/-- What a call that answers 200 leaves behind: the item and its mirror, and one event. -/
structure Moved (s s' : Store) (item : WorkItem) : Prop where
  stored : s'.workItems.find? item.workItemId = some (workItemRow item)
  items : ∀ id, id ≠ item.workItemId → s'.workItems.find? id = s.workItems.find? id
  mirrored : s'.runTaskStates.find? (item.runId, item.workItemId) =
    some (runTaskStateRow (RunTaskState.ofItem item))
  states : ∀ key, key ≠ (item.runId, item.workItemId) →
    s'.runTaskStates.find? key = s.runTaskStates.find? key
  event : ∃ e, s'.controlPlaneEvents.rows = s.controlPlaneEvents.rows ++ [e] ∧
    e.payload.kind = .workItem ∧ e.payload.status = eventStatus item.status ∧
    e.payload.taskId = some item.workItemId
  requeued : item.status = .requeued → item.assignedClientId = none ∧ item.leaseId = none

theorem denied_putEvent (s : Store) (item : WorkItem) (caller : Caller) (summary : String)
    (now : DateTime) (n : Nat) :
    Denied s (s.putEvent (denialEvent item caller summary now n)) item.workItemId :=
  ⟨rfl, rfl, _, rfl, rfl, rfl, rfl⟩

theorem moved_store {s : Store} {item : WorkItem}
    (hfound : ∃ row, s.workItems.find? item.workItemId = some row)
    (hrequeued : item.status = .requeued → item.assignedClientId = none ∧ item.leaseId = none)
    (caller : Caller) (summary : String) (now : DateTime) (n : Nat) :
    Moved s (s.moved item (workItemEvent item caller summary now n)) item where
  stored := by
    obtain ⟨row, hrow⟩ := hfound
    simp [Table.find?_replace, workItemRow, hrow]
  items id hid := by
    have hid' : ¬ item.workItemId = id := fun h => hid h.symm
    simp [Table.find?_replace, workItemRow, hid']
  mirrored := by
    show ((s.runTaskStates.upsert _).upsert _).find? _ = _
    rw [Table.find?_upsert]
    exact if_pos rfl
  states key hkey := by
    have hkey' : ¬ (runTaskStateRow (RunTaskState.ofItem item)).key = key := fun h => hkey h.symm
    show ((s.runTaskStates.upsert _).upsert _).find? _ = _
    rw [Table.find?_upsert, if_neg hkey', Table.find?_upsert, if_neg hkey']
  event := ⟨_, rfl, rfl, rfl, rfl⟩
  requeued := hrequeued

/-- A returning transition of item `id` is a denial or a move of that item along an edge. -/
theorem transition_outcome {P : Option String → Prop} {s s' : Store} (hs : RowsOk P s) {id : String}
    {target : WorkItemStatus} {caller : Caller} {change : WorkItemChange}
    {summary : Option String} {now : DateTime} {r : WorkItemTransitionResult}
    (h : Returns (transition id target caller change summary now) s r s') :
    (r.statusCode = 409 ∧ Denied s s' id) ∨
      (r.statusCode = 200 ∧ r.workItem.1.workItemId = id ∧
        (∃ status, s.statusAt id = some status ∧
          r.workItem.1.status ∈ allowedWorkItemTransitions status) ∧ Moved s s' r.workItem.1) := by
  obtain ⟨current, hload, h | h⟩ := transition_cases h
  · obtain ⟨-, hid⟩ := Loaded.itemAt hs hload
    obtain ⟨summary', hs'⟩ := h.recorded
    rw [hs', ← hid]
    exact Or.inl ⟨h.code, denied_putEvent ..⟩
  · obtain ⟨hat, hid⟩ := Loaded.itemAt hs hload
    obtain ⟨hstatus, hitem, -, -, hrequeued, -⟩ := transitionedItem_spec h.item
    refine Or.inr ⟨h.code, hitem.trans hid, ⟨current.1.status, ?_, ?_⟩, ?_⟩
    · rw [Store.statusAt, hat]
      rfl
    · rw [hstatus]
      exact h.allowed
    · rw [h.recorded]
      exact moved_store h.found (fun hst => hrequeued (hstatus ▸ hst)) ..

/-- A returning schedule call finds nothing, is denied, or moves one item. -/
theorem schedule_outcome {s s' : Store} {c : ScheduleCall} {now : DateTime}
    {r : SchedulerDecisionResult} (h : Returns (c.perform now) s r s') :
    (r.statusCode = 404 ∧ s' = s) ∨ ∃ item, r.workItem = some item ∧
      ((r.statusCode = 409 ∧ Denied s s' item.1.workItemId) ∨
        (r.statusCode = 200 ∧ Moved s s' item.1)) := by
  have hone : ∀ {id caller}, Returns (scheduleWorkItem id caller now) s r s' →
      ∃ item, r.workItem = some item ∧ ((r.statusCode = 409 ∧ Denied s s' item.1.workItemId) ∨
        (r.statusCode = 200 ∧ Moved s s' item.1)) := by
    intro id caller hret
    obtain ⟨item, -, h | ⟨selected, assignment, h⟩⟩ := schedule_cases hret
    · obtain ⟨summary, hs'⟩ := h.recorded
      rw [hs']
      exact ⟨item, h.answer, Or.inl ⟨h.code, denied_putEvent ..⟩⟩
    · obtain ⟨summary, hassign⟩ := h.assigned
      refine ⟨assignment.workItem, h.answer, ?_⟩
      rw [h.code]
      rcases transition_cases hassign with ⟨current, hload, hd | hm⟩
      · obtain ⟨summary', hs'⟩ := hd.recorded
        rw [hd.code, hs', hd.item]
        exact Or.inl ⟨rfl, denied_putEvent ..⟩
      · obtain ⟨hstatus, -, -, -, hrequeued, -⟩ := transitionedItem_spec hm.item
        rw [hm.code, hm.recorded]
        exact Or.inr ⟨rfl, moved_store hm.found (fun hst => hrequeued (hstatus ▸ hst)) ..⟩
  have hnext : ∀ {runId caller}, Returns (scheduleNext runId caller now) s r s' →
      (r.statusCode = 404 ∧ s' = s) ∨ ∃ item, r.workItem = some item ∧
        ((r.statusCode = 409 ∧ Denied s s' item.1.workItemId) ∨
          (r.statusCode = 200 ∧ Moved s s' item.1)) := by
    intro runId caller hret
    rcases scheduleNext_cases hret with ⟨hr, hs'⟩ | ⟨id, hid⟩
    · exact Or.inl ⟨hr ▸ rfl, hs'⟩
    · exact Or.inr (hone hid)
  cases c with
  | workItem id caller => exact Or.inr (hone h)
  | next runId caller => exact hnext h
  | receiveNextWork runId caller => exact hnext h

/-! ## Runs -/

/-- The work-item state machine, over every sequential run.  From any reachable store, finished
    requests or not, each store call of a run moves statuses along allowed transitions only, and a
    terminal status is there at the end; a call on an item answers 409 and leaves a denial, or 200
    and moves that item; and after a run of calls that return, from an empty database, the last
    `work_item` event of each item carries the item's status.  (`ingest` can add events of any kind
    and is no call of the work-item services.) -/
theorem workItems_follow_transitions :
    (∀ o requests s, Reachable s → Within StatusStep (runAll o requests) s) ∧
    (∀ o requests s id status, Reachable s → Terminal status → s.statusAt id = some status →
      ((runAll o requests).run s).2.statusAt id = some status) ∧
    (∀ (c : TransitionCall) now s r s', Reachable s → Returns (c.perform now) s r s' →
      (r.statusCode = 409 ∧ Denied s s' c.workItemId) ∨
        (r.statusCode = 200 ∧ r.workItem.1.workItemId = c.workItemId ∧
          (∃ status, s.statusAt c.workItemId = some status ∧
            r.workItem.1.status ∈ allowedWorkItemTransitions status) ∧ Moved s s' r.workItem.1)) ∧
    (∀ (c : ScheduleCall) now s r s', Reachable s → Returns (c.perform now) s r s' →
      (r.statusCode = 404 ∧ s' = s) ∨ ∃ item, r.workItem = some item ∧
        ((r.statusCode = 409 ∧ Denied s s' item.1.workItemId) ∨
          (r.statusCode = 200 ∧ Moved s s' item.1))) ∧
    (∀ o requests evidence responses s, (∀ r ∈ requests, ∀ e id, r.1 ≠ Request.ingest e id) →
      Returns (runAll o requests) { Store.empty with runEvidence := evidence } responses s →
      LedgerAgrees s) := by
  refine ⟨?_, ?_, ?_, ?_, ?_⟩
  · intro o requests s hs
    exact (solo_runAll o requests s hs.rowsOk).mono fun _ _ hR => hR.1
  · intro o requests s id status hs ht hst
    -- a step keeps a terminal status, so the whole run does
    exact ((solo_runAll o requests s hs.rowsOk).mono (S := fun s s' =>
      s.statusAt id = some status → s'.statusAt id = some status)
      fun _ _ hR h => terminal_kept hR.1 ht h).run (fun _ h => h) (fun hab hbc h => hbc (hab h)) hst
  · intro c now s r s' hs h
    rw [c.perform_eq] at h
    exact transition_outcome hs.rowsOk h
  · intro c now s r s' _ h
    exact schedule_outcome h
  · intro o requests evidence responses s hno h
    have hrun : Keeps Recorded (runAll o requests) := Program.keeps_forEach fun r hr =>
      recorded_rule.request (fun _ _ => trivial)
        (fun e id now heq => absurd heq (hno r hr e id)) (fun _ _ _ => trivial) o r.2
    exact (hrun _ _ _ ⟨rowsOk_empty _ evidence, fun id status hst => by cases hst⟩ h).2

/-! ## A small run -/

/-- The time at which the runs on fixed inputs happen. -/
def epoch : DateTime := ⟨0, some 0⟩

/-- A queued work item that anyone may take. -/
def sampleItem : WorkItem where
  workItemId := "w1"
  runId := "r1"
  title := "task"
  role := "builder"
  createdAt := epoch
  updatedAt := epoch

theorem sampleItem_valid : Model.Valid sampleItem := ⟨rfl, by decide⟩

def sampleCaller : Caller := ⟨"operator", "operator", "control-plane"⟩

def sampleOutside : Outside := ⟨fun _ => "", fun _ => "", fun _ => ""⟩

/-- Create an item, try to start it (refused: it is not assigned), and cancel it. -/
def sampleRequests : List (Request × DateTime) := [
  (.createWorkItem ⟨sampleItem, sampleItem_valid⟩ sampleCaller none, epoch),
  (.transition (.start "w1" sampleCaller), epoch),
  (.transition (.cancel "w1" sampleCaller), epoch)]

/-- The small run returns, and the ledger agrees with the cancelled item after it. -/
theorem workItems_follow_transitions_sample :
    ∃ responses s, Returns (runAll sampleOutside sampleRequests) Store.empty responses s ∧
      LedgerAgrees s ∧ s.statusAt "w1" = some .cancelled := by
  obtain ⟨responses, h⟩ := Program.returns_run (p := runAll sampleOutside sampleRequests)
    (s := Store.empty) rfl
  refine ⟨responses, _, h, workItems_follow_transitions.2.2.2.2 sampleOutside sampleRequests
    Table.empty responses _ ?_ h, rfl⟩
  intro r hr e id
  simp only [sampleRequests, List.mem_cons, List.not_mem_nil, or_false] at hr
  rcases hr with rfl | rfl | rfl <;> exact fun h => by cases h

end Vad
