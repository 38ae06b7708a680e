/-
  What the scheduler chooses.

  `schedule_next` makes two choices, one after the other: the first waiting item of the listing, and
  the first client of those that may work on it.

  1. **The keys** — the listing orders by the columns `priority`, `created_at`, `work_item_id`, so
     its key (`listKey`) compares the *text* of `created_at`; the key one would expect (`dueKey`)
     compares the instant.  The clients have one key (`loadKey`): active leases, name, id.
  2. **The call** — `scheduleNext_spec`: it finds nothing to do, denies because nobody can work on
     the item with the least `listKey`, or assigns that item to the client with the least `loadKey`.
  3. **The choice** — so the client is always optimal, and the item is optimal exactly when the
     least waiting item by text is the least by instant (`schedulerChoice_optimal_iff`).
-/
import Vad.Lib.Latest
import Vad.Server.Ownership
import Vad.Server.RepeatedScan

namespace Vad

open Keyed (Table)
open Atomic (Program)
open Atomic.Program (Returns returns_bind returns_pure)

/-! ## What there is to choose from -/

/-- An item that waits, of the run if one is named. -/
structure WaitingItem (s : Store) (runId : Option String) (item : WorkItem) : Prop where
  stored : s.itemAt item.workItemId = some item
  waits : schedulable item.status = true
  inRun : ∀ run, runId = some run → item.runId = run

/-- A client that may work on the item: registered, active, trusted, and capable. -/
structure Able (s : Store) (item : WorkItem) (m : ClientManifest) : Prop where
  registered : s.clientManifests.find? m.clientId = some (manifestRow m)
  active : s.runtimeStatus m.clientId = some .active
  trusted : m.trustState = .trusted
  capable : ∀ capability, item.requestedCapability = some capability →
    capability ∈ m.supportedCapabilities

/-- The number of active leases that a client holds. -/
def leaseLoad (s : Store) (clientId : String) : Nat :=
  (s.taskLeases.rows.filter fun l =>
    l.payload.clientId = clientId && l.payload.status = .active).length

/-! ## The keys -/

/-- The key by which the listing orders items: `created_at` is compared as a text. -/
def listKey (item : WorkItem) : Int ×ₗ String ×ₗ String :=
  toLex (item.priority, toLex (item.createdAt.isoformat, item.workItemId))

/-- The key with `created_at` as an instant. -/
def dueKey (item : WorkItem) : Int ×ₗ Int ×ₗ String :=
  toLex (item.priority, toLex (item.createdAt.instant, item.workItemId))

/-- The key of a client: its active leases, its name and its id. -/
def loadKey (s : Store) (m : ClientManifest) : Nat ×ₗ String ×ₗ String :=
  toLex (leaseLoad s m.clientId, toLex (m.displayName, m.clientId))

/-! ## The clients -/

section Clients

variable {s s' : Store}

/-- A loop of reads gives the list of what was read. -/
theorem returns_forEach_reads {α β : Type} {f : β → Db α} {g : β → α}
    (hf : ∀ b, Returns (f b) s (g b) s) : ∀ l : List β, Returns (Program.forEach l f) s (l.map g) s := by
  intro l
  induction l with
  | nil => exact returns_pure.mpr ⟨rfl, rfl⟩
  | cons b l ih =>
    exact returns_bind.mpr ⟨g b, s, hf b, returns_bind.mpr ⟨l.map g, s, ih,
      returns_pure.mpr ⟨rfl, rfl⟩⟩⟩

/-- The leases that the sort key counts. -/
theorem listed_leaseLoad (hs : RowsOk (fun _ => True) s) (clientId : String) :
    ∃ leases, Returns (listTaskLeases (some clientId) (some .active)) s leases s ∧
      leases.length = leaseLoad s clientId := by
  have hrow : ∀ l ∈ s.taskLeases.rows, l = leaseRow l.payload ∧ GoodLease (fun _ => True) l.payload :=
    hs.leases
  have hmatch : ∀ l ∈ s.taskLeases.rows, leaseMatches (some clientId) (some .active) l =
      (decide (l.payload.clientId = clientId) && decide (l.payload.status = .active)) := by
    intro l hl
    rw [(hrow l hl).1]
    rfl
  obtain ⟨leases, hleases, hvals⟩ := @fetchedAll_of_valid _ _ _ LeaseRow.payload
    (s.taskLeases.select (leaseMatches (some clientId) (some .active)) leaseOrder)
    (fun l hl => by
      obtain ⟨hin, hp⟩ := Table.mem_select.mp hl
      rw [hmatch l hin, Bool.and_eq_true, decide_eq_true_eq, decide_eq_true_eq] at hp
      exact (hrow l hin).2.2.1 hp.2)
  refine ⟨leases, returns_storeCall.mpr (returns_selectTaskLeases.mpr ⟨hleases, rfl⟩), ?_⟩
  have hlength := congrArg List.length hvals
  rw [List.length_map, List.length_map] at hlength
  rw [hlength, (Table.select_perm ..).length_eq]
  unfold leaseLoad
  exact congrArg List.length (List.filter_congr hmatch)

/-- The sort puts a client with the least key first. -/
theorem returns_sortedByLoad_first (hs : RowsOk (fun _ => True) s)
    (snapshots : List ClientStatusSnapshot) :
    ∃ sorted, Returns (sortedByLoad snapshots) s sorted s ∧ (∀ x, x ∈ sorted ↔ x ∈ snapshots) ∧
      ∀ x rest, sorted = x :: rest → ∀ y ∈ snapshots,
        loadKey s x.manifest.1 ≤ loadKey s y.manifest.1 := by
  let keyed : List (Nat × ClientStatusSnapshot) :=
    snapshots.map fun x => (leaseLoad s x.manifest.1.clientId, x)
  have hloop : Returns (Program.forEach snapshots fun snapshot => do
      let leases ← listTaskLeases (some snapshot.manifest.1.clientId) (some .active)
      pure (leases.length, snapshot)) s keyed s := by
    refine returns_forEach_reads (fun x => ?_) snapshots
    obtain ⟨leases, hleases, hlength⟩ := listed_leaseLoad hs x.manifest.1.clientId
    exact returns_bind.mpr ⟨leases, s, hleases, returns_pure.mpr ⟨by rw [hlength], rfl⟩⟩
  refine ⟨_, returns_bind.mpr ⟨keyed, s, hloop, returns_pure.mpr ⟨rfl, rfl⟩⟩, fun x => ?_, ?_⟩
  · rw [List.mem_map]
    constructor
    · rintro ⟨k, hk, rfl⟩
      obtain ⟨y, hy, rfl⟩ := List.mem_map.mp ((List.mem_insertionSort _).mp hk)
      exact hy
    · intro hx
      exact ⟨_, (List.mem_insertionSort _).mpr (List.mem_map.mpr ⟨x, hx, rfl⟩), rfl⟩
  · intro x rest hfirst y hy
    cases hsorted : keyed.insertionSort (fun a b => eligibleOrder a b = true) with
    | nil => rw [hsorted] at hfirst; cases hfirst
    | cons k more =>
      rw [hsorted, List.map_cons] at hfirst
      obtain ⟨rfl, -⟩ := List.cons.inj hfirst
      obtain ⟨⟨hk, -⟩, hleast⟩ := @Latest.first_of_sorted _ _ _
        (fun k : Nat × ClientStatusSnapshot =>
          toLex (k.1, toLex (k.2.manifest.1.displayName, k.2.manifest.1.clientId))) _
        (fun a b => orderedBy_three ..) (fun _ => true) _ _ _ ((List.filter_true _).trans hsorted)
      obtain ⟨z, -, rfl⟩ := List.mem_map.mp hk
      exact hleast _ (List.mem_map.mpr ⟨y, hy, rfl⟩) rfl

/-- The snapshot of a client is eligible when the client is able. -/
theorem eligible_of_able {item : WorkItem} {m : Checked ClientManifest} (h : Able s item m.1) :
    eligible item (snapshotOf m (s.clientHeartbeats.find? m.1.clientId)) = true := by
  have hmanifest : (snapshotOf m (s.clientHeartbeats.find? m.1.clientId)).manifest = m := by
    cases s.clientHeartbeats.find? m.1.clientId <;> rfl
  have hstatus : (snapshotOf m (s.clientHeartbeats.find? m.1.clientId)).status = .active := by
    have hactive := h.active
    unfold Store.runtimeStatus at hactive
    cases hbeat : s.clientHeartbeats.find? m.1.clientId with
    | none => rw [hbeat] at hactive; cases hactive
    | some beat => rw [hbeat] at hactive; exact Option.some.inj hactive
  unfold eligible supportsRequestedCapability
  rw [hmanifest, hstatus, h.trusted]
  simp only [decide_true, Bool.true_and, Option.all_eq_true]
  exact fun capability hcap => by simpa using h.capable capability hcap

/-- A listed client that is eligible is able. -/
theorem able_of_eligible (hs : RowsOk (fun _ => True) s) {item : WorkItem}
    {statuses : List ClientStatusSnapshot} {x : ClientStatusSnapshot}
    (h : joinedSnapshots s (s.clientManifests.select (fun _ => true) manifestOrder) = .ok statuses)
    (hx : x ∈ statuses) (heligible : eligible item x = true) : Able s item x.manifest.1 := by
  obtain ⟨hregistered, hactive, htrusted, hcapable⟩ := selectable hs h hx heligible
  refine ⟨hregistered, hactive, htrusted, fun capability hcap => ?_⟩
  rw [hcap] at hcapable
  simpa using hcapable

/-- What `_eligible_clients` gives: the clients that are able, one with the least key first. -/
structure AbleClients (s : Store) (item : WorkItem) (clients : List ClientStatusSnapshot) : Prop
    where
  able : ∀ x ∈ clients, Able s item x.manifest.1
  all : ∀ m, Able s item m → clients ≠ []
  first : ∀ x rest, clients = x :: rest → ∀ m, Able s item m →
    loadKey s x.manifest.1 ≤ loadKey s m

theorem returns_eligibleClients_able (hs : RowsOk (fun _ => True) s) (item : WorkItem) :
    ∃ clients, Returns (eligibleClients item) s clients s ∧ AbleClients s item clients := by
  obtain ⟨statuses, hstatuses, hall⟩ := lists_all hs
  obtain ⟨sorted, hsorted, hmem, hfirst⟩ := returns_sortedByLoad_first hs
    (statuses.filter (eligible item))
  have hlisted : ∀ m, Able s item m → ∃ x ∈ statuses.filter (eligible item), x.manifest.1 = m := by
    intro m hm
    obtain ⟨checked, hpayload, hin⟩ := hall _ (Table.mem_of_find? hm.registered)
    have hchecked : checked.1 = m := hpayload
    subst hchecked
    refine ⟨_, List.mem_filter.mpr ⟨hin, eligible_of_able hm⟩, ?_⟩
    show (snapshotOf checked (s.clientHeartbeats.find? checked.1.clientId)).manifest.1 = checked.1
    cases s.clientHeartbeats.find? checked.1.clientId <;> rfl
  refine ⟨sorted, returns_bind.mpr ⟨statuses, s, returns_listClientStatuses.mpr ⟨hstatuses, rfl⟩,
    hsorted⟩, fun x hx => ?_, fun m hm hnil => ?_, fun x rest hx m hm => ?_⟩
  · obtain ⟨hin, heligible⟩ := List.mem_filter.mp ((hmem x).mp hx)
    exact able_of_eligible hs hstatuses hin heligible
  · obtain ⟨x, hx, -⟩ := hlisted m hm
    have hin := (hmem x).mpr hx
    rw [hnil] at hin
    exact List.not_mem_nil hin
  · obtain ⟨y, hy, rfl⟩ := hlisted m hm
    exact hfirst x rest hx y hy

end Clients

/-! ## The items -/

section Items

variable {s s' : Store} {runId : Option String}

/-- An item that waits and comes first in the listing. -/
structure FirstWaiting (s : Store) (runId : Option String) (item : WorkItem) : Prop extends
    WaitingItem s runId item where
  first : ∀ other, WaitingItem s runId other → listKey item ≤ listKey other

/-- The rows that the listing reads, and the items that wait. -/
theorem waiting_iff_row (hs : RowsOk (fun _ => True) s) {item : WorkItem} :
    WaitingItem s runId item ↔ ∃ row ∈ s.workItems.rows, row.payload = item ∧
      workItemMatches runId none none row = true ∧ schedulable row.payload.status = true := by
  have hmatch : ∀ row ∈ s.workItems.rows, (workItemMatches runId none none row = true ↔
      ∀ run, runId = some run → row.payload.runId = run) := by
    intro row hrow
    rw [(hs.items row hrow).columns]
    simp only [workItemMatches, workItemRow, Option.all_none, Bool.and_true, Option.all_eq_true]
    exact ⟨fun h run hr => of_decide_eq_true (h run hr), fun h run hr => decide_eq_true (h run hr)⟩
  constructor
  · rintro ⟨hstored, hwaits, hrun⟩
    obtain ⟨row, hrow, rfl⟩ := Option.map_eq_some_iff.mp hstored
    have hin := Table.mem_of_find? hrow
    exact ⟨row, hin, rfl, (hmatch row hin).mpr hrun, hwaits⟩
  · rintro ⟨row, hin, rfl, hrun, hwaits⟩
    refine ⟨?_, hwaits, (hmatch row hin).mp hrun⟩
    rw [Store.itemAt, (hs.items row hin).id, Table.mem_rows_iff.mp hin]
    rfl

/-- The key of a row, in its columns. -/
def rowKey (r : WorkItemRow) : Int ×ₗ String ×ₗ String :=
  toLex (r.priority, toLex (r.createdAt, r.workItemId))

theorem rowKey_eq {r : WorkItemRow} (h : ItemRowOk r) : rowKey r = listKey r.payload := by
  rw [h.columns]
  rfl

/-- The items that `schedule_next` picks from, the first of them first. -/
theorem returns_waiting (hs : RowsOk (fun _ => True) s) (runId : Option String) :
    ∃ items, Returns (listWorkItems runId) s items s ∧
      (items.filter (fun item => schedulable item.1.status) = [] →
        ∀ item, ¬ WaitingItem s runId item) ∧
      ∀ item rest, items.filter (fun item => schedulable item.1.status) = item :: rest →
        FirstWaiting s runId item.1 := by
  have hin : ∀ row ∈ s.workItems.select (workItemMatches runId none none) workItemOrder,
      row ∈ s.workItems.rows := fun row hrow => (Table.mem_select.mp hrow).1
  obtain ⟨items, hitems, hvals⟩ := @fetchedAll_of_valid _ _ _ WorkItemRow.payload
    (s.workItems.select (workItemMatches runId none none) workItemOrder)
    (fun row hrow => (hs.items row (hin row hrow)).valid)
  -- the filter can be taken on the rows
  have hfilter : (items.filter fun item => schedulable item.1.status).map Subtype.val =
      ((s.workItems.select (workItemMatches runId none none) workItemOrder).filter
        fun row => schedulable row.payload.status).map WorkItemRow.payload := by
    have hboth := congrArg (List.filter fun item : WorkItem => schedulable item.status) hvals
    rw [List.filter_map, List.filter_map] at hboth
    exact hboth
  refine ⟨items, returns_listWorkItems.mpr ⟨hitems, rfl⟩, fun hnil item hwaiting => ?_,
    fun item rest hcons => ?_⟩
  · obtain ⟨row, hrow, -, hmatch, hwaits⟩ := (waiting_iff_row hs).mp hwaiting
    rw [hnil, List.map_nil] at hfilter
    have hempty := List.map_eq_nil_iff.mp hfilter.symm
    have hselected : row ∈ s.workItems.select (workItemMatches runId none none) workItemOrder :=
      Table.mem_select.mpr ⟨hrow, hmatch⟩
    exact List.filter_eq_nil_iff.mp hempty row hselected hwaits
  · rw [hcons, List.map_cons] at hfilter
    obtain ⟨row, more, hrows, hpayload, -⟩ := List.map_eq_cons_iff.mp hfilter.symm
    obtain ⟨⟨hrow, hwaits⟩, hleast⟩ := @Latest.first_of_sorted _ _ _ rowKey _
      (fun a b => orderedBy_three ..) _ _ _ _ hrows
    obtain ⟨hrow, hmatch⟩ := List.mem_filter.mp hrow
    refine ⟨(waiting_iff_row hs).mpr ⟨row, hrow, hpayload, hmatch, hwaits⟩, fun other hother => ?_⟩
    obtain ⟨row', hrow', rfl, hmatch', hwaits'⟩ := (waiting_iff_row hs).mp hother
    have hle := hleast row' (List.mem_filter.mpr ⟨hrow', hmatch'⟩) hwaits'
    rw [rowKey_eq (hs.items row hrow), rowKey_eq (hs.items row' hrow'), hpayload] at hle
    exact hle

/-- Two items that come first are one. -/
theorem FirstWaiting.unique {a b : WorkItem} (ha : FirstWaiting s runId a)
    (hb : FirstWaiting s runId b) : a = b := by
  have hkey : listKey a = listKey b := le_antisymm (ha.first b hb.toWaitingItem) (hb.first a ha.toWaitingItem)
  have hid : a.workItemId = b.workItemId :=
    (Prod.mk.inj (Prod.mk.inj hkey).2).2
  have hstored := ha.stored
  rw [hid, hb.stored] at hstored
  exact (Option.some.inj hstored).symm

end Items

/-! ## The call -/

section Call

variable {s s' : Store} {runId : Option String}

/-- A client that may work on the item and comes first. -/
structure FirstAble (s : Store) (item : WorkItem) (m : ClientManifest) : Prop extends
    Able s item m where
  first : ∀ other, Able s item other → loadKey s m ≤ loadKey s other

/-- What `schedule_next` did when it assigned the item to the client. -/
structure AssignedNext (s : Store) (runId : Option String) (now : DateTime)
    (r : SchedulerDecisionResult) (item : WorkItem) (m : ClientManifest) : Prop where
  head : FirstWaiting s runId item
  client : FirstAble s item m
  code : r.statusCode = 200
  selected : r.selectedClientId = some m.clientId
  moved : ∃ moved, r.workItem = some moved ∧
    moved.1 = movedItem item .assigned { assignedClientId := some m.clientId } now

/-- What `schedule_next` did when nobody can work on the first item. -/
structure DeniedNext (s : Store) (runId : Option String) (r : SchedulerDecisionResult)
    (item : WorkItem) : Prop where
  head : FirstWaiting s runId item
  nobody : ∀ m, ¬ Able s item m
  code : r.statusCode = 409

theorem assigned_mem_of_schedulable {status : WorkItemStatus} (h : schedulable status = true) :
    .assigned ∈ allowedWorkItemTransitions status := by
  revert h
  cases status <;> decide

/-- Scheduling an item that waits denies, because nobody is able, or assigns it to the first client
    that is. -/
theorem returns_scheduleFirst (hs : RowsOk (fun _ => True) s) {item : WorkItem}
    (hitem : FirstWaiting s runId item) {caller : Caller} {now : DateTime}
    {r : SchedulerDecisionResult}
    (h : Returns (scheduleWorkItem item.workItemId caller now) s r s') :
    DeniedNext s runId r item ∨ ∃ m, AssignedNext s runId now r item m := by
  obtain ⟨loaded, s₁, hread, htail⟩ := returns_bind.mp h
  obtain ⟨hload, hs₁⟩ := returns_loadWorkItem.mp hread
  subst hs₁
  have hloaded : loaded.1 = item :=
    Option.some.inj ((Loaded.itemAt hs hload).1.symm.trans hitem.stored)
  subst hloaded
  unfold scheduleFrom at htail
  rw [if_pos hitem.waits] at htail
  obtain ⟨clients, s₂, hclients, hrest⟩ := returns_bind.mp htail
  obtain ⟨known, hknown, hable⟩ := returns_eligibleClients_able hs loaded.1
  obtain ⟨rfl, rfl⟩ := hknown.unique hclients
  cases known with
  | nil => exact Or.inl ⟨hitem, fun m hm => hable.all m hm rfl, (returns_denySchedule hrest).code⟩
  | cons selected more =>
    obtain ⟨assignment, s₃, hassign, hret⟩ := returns_bind.mp hrest
    obtain ⟨rfl, rfl⟩ := returns_pure.mp hret
    obtain ⟨current, hcurrent, hmove⟩ := transition_cases hassign
    have hsame : current = loaded :=
      Subtype.ext (Option.some.inj ((Loaded.itemAt hs hcurrent).1.symm.trans hitem.stored))
    subst hsame
    rcases hmove with hdenied | hmoved
    · exact absurd (assigned_mem_of_schedulable hitem.waits) hdenied.forbidden
    · exact Or.inr ⟨selected.manifest.1, hitem,
        ⟨hable.able selected (List.mem_cons_self ..), hable.first selected more rfl⟩, hmoved.code,
        rfl, assignment.workItem, rfl, transitionedItem_val hmoved.item⟩

/-- `schedule_next`: nothing waits, or nobody can work on the first item, or it is assigned. -/
theorem scheduleNext_spec (hs : RowsOk (fun _ => True) s) {caller : Caller} {now : DateTime}
    {r : SchedulerDecisionResult} (h : Returns (scheduleNext runId caller now) s r s') :
    (r = nothingQueued ∧ ∀ item, ¬ WaitingItem s runId item) ∨
      ∃ item, DeniedNext s runId r item ∨ ∃ m, AssignedNext s runId now r item m := by
  obtain ⟨items, s₁, hlist, htail⟩ := returns_bind.mp h
  obtain ⟨known, hknown, hnone, hfirst⟩ := returns_waiting hs runId
  obtain ⟨rfl, rfl⟩ := hknown.unique hlist
  split at htail
  · rename_i hnil
    exact Or.inl ⟨(returns_pure.mp htail).1, hnone hnil⟩
  · rename_i item rest hcons
    exact Or.inr ⟨item.1, returns_scheduleFirst hs (hfirst item rest hcons) htail⟩

end Call

/-! ## The choice -/

/-- The item and the client are the best there are: nothing that waits is due before the item, and
    nobody who can work on it comes before the client. -/
structure OptimalChoice (s : Store) (runId : Option String) (item : WorkItem) (m : ClientManifest) :
    Prop where
  waiting : WaitingItem s runId item
  due : ∀ other, WaitingItem s runId other → dueKey item ≤ dueKey other
  able : Able s item m
  lightest : ∀ other, Able s item other → loadKey s m ≤ loadKey s other

/-- One item comes first among those that wait, whether `created_at` is compared as a text or as an
    instant. -/
def TimesAgree (s : Store) (runId : Option String) : Prop :=
  ∃ item, WaitingItem s runId item ∧ ∀ other, WaitingItem s runId other →
    listKey item ≤ listKey other ∧ dueKey item ≤ dueKey other

/-- What the result names: the item that was stored under its id, and a registered client. -/
def ChoseOptimally (s : Store) (runId : Option String) (r : SchedulerDecisionResult) : Prop :=
  ∃ moved item m, r.workItem = some moved ∧ s.itemAt moved.1.workItemId = some item ∧
    r.selectedClientId = some m.clientId ∧ OptimalChoice s runId item m

/-- From every reachable store: when `schedule_next` assigns, its choice is optimal exactly when
    comparing `created_at` as a text and as an instant agree on the first item. -/
theorem schedulerChoice_optimal_iff {s s' : Store} (hs : Reachable s) {runId : Option String}
    {caller : Caller} {now : DateTime} {r : SchedulerDecisionResult}
    (h : Returns (scheduleNext runId caller now) s r s') (hcode : r.statusCode = 200) :
    ChoseOptimally s runId r ↔ TimesAgree s runId := by
  obtain ⟨item, m, hassigned⟩ : ∃ item m, AssignedNext s runId now r item m := by
    rcases scheduleNext_spec hs.rowsOk h with ⟨rfl, -⟩ | ⟨item, hdenied | ⟨m, hassigned⟩⟩
    · cases hcode
    · rw [hdenied.code] at hcode
      cases hcode
    · exact ⟨item, m, hassigned⟩
  obtain ⟨moved, hmoved, hval⟩ := hassigned.moved
  have hid : moved.1.workItemId = item.workItemId := by
    rw [hval]
    rfl
  constructor
  · rintro ⟨moved', item', m', hmoved', hstored, -, hoptimal⟩
    obtain rfl := Option.some.inj (hmoved.symm.trans hmoved')
    rw [hid, hassigned.head.stored] at hstored
    obtain rfl := Option.some.inj hstored
    exact ⟨item, hassigned.head.toWaitingItem, fun other hother =>
      ⟨hassigned.head.first other hother, hoptimal.due other hother⟩⟩
  · rintro ⟨first, hwaiting, hleast⟩
    have hsame : first = item :=
      FirstWaiting.unique ⟨hwaiting, fun other hother => (hleast other hother).1⟩ hassigned.head
    subst hsame
    refine ⟨moved, first, m, hmoved, hid ▸ hwaiting.stored, hassigned.selected, hwaiting,
      fun other hother => (hleast other hother).2, hassigned.client.toAble, hassigned.client.first⟩

/-- Register an active client that can do the work, and create two items. -/
def twoItems (a b : Checked WorkItem) : List (Request × DateTime) := [
  (.register ⟨sampleManifest, sampleManifest_valid⟩, epoch),
  (.heartbeat sampleHeartbeat, epoch),
  (.createWorkItem a sampleCaller none, epoch),
  (.createWorkItem b sampleCaller none, epoch)]

/-- The store that these requests leave when each runs to its end. -/
def twoItemStore (a b : Checked WorkItem) : Store :=
  ((poolOf sampleOutside Store.empty (twoItems a b)).exec
    ((List.range 4).flatMap (List.replicate 6))).state

theorem twoItemStore_reachable (a b : Checked WorkItem) : Reachable (twoItemStore a b) :=
  ⟨sampleOutside, Table.empty, twoItems a b, _, rfl⟩

/-- Created at ten in a zone two hours ahead of UTC. -/
def aheadItem : Checked WorkItem :=
  ⟨{ sampleItem with createdAt := ⟨36000000000, some 7200⟩ }, rfl, by decide⟩

/-- Created at nine UTC, an hour later. -/
def utcItem : Checked WorkItem :=
  ⟨{ sampleItem with workItemId := "w2", createdAt := ⟨32400000000, some 0⟩ }, rfl, by decide⟩

/-- Created at eight UTC. -/
def earlyItem : Checked WorkItem :=
  ⟨{ sampleItem with createdAt := ⟨28800000000, some 0⟩ }, rfl, by decide⟩

/-- What waits in a store is among the payloads of its rows. -/
theorem WaitingItem.mem_payloads {s : Store} {runId : Option String} {item : WorkItem}
    (h : WaitingItem s runId item) : item ∈ s.workItems.rows.map WorkItemRow.payload := by
  obtain ⟨row, hrow, rfl⟩ := Option.map_eq_some_iff.mp h.stored
  exact List.mem_map_of_mem (Table.mem_of_find? hrow)

/-- Two items created in one zone: the choice is optimal. -/
theorem schedulerChoice_oneZone : ∃ r s',
    Returns (scheduleNext none sampleCaller epoch) (twoItemStore earlyItem utcItem) r s' ∧
      ChoseOptimally (twoItemStore earlyItem utcItem) none r := by
  obtain ⟨r, hret⟩ := Program.returns_run (p := scheduleNext none sampleCaller epoch)
    (s := twoItemStore earlyItem utcItem) (by decide)
  have hcode : (((scheduleNext none sampleCaller epoch).run (twoItemStore earlyItem utcItem)).1.map
      SchedulerDecisionResult.statusCode).toOption = some 200 := by decide
  rw [show (scheduleNext none sampleCaller epoch).run (twoItemStore earlyItem utcItem) = _ from hret]
    at hcode
  refine ⟨r, _, hret, (schedulerChoice_optimal_iff (twoItemStore_reachable _ _) hret
    (Option.some.inj hcode)).mpr ⟨earlyItem.1, ⟨by decide, rfl, fun _ h => by cases h⟩, ?_⟩⟩
  intro other hother
  have hrows : (twoItemStore earlyItem utcItem).workItems.rows.map WorkItemRow.payload =
      [earlyItem.1, utcItem.1] := by decide
  have hmem := hother.mem_payloads
  rw [hrows] at hmem
  rcases List.mem_cons.mp hmem with rfl | hmem
  · exact ⟨le_refl _, le_refl _⟩
  · obtain rfl := List.mem_singleton.mp hmem
    exact ⟨by decide, by decide⟩

/-- Two items created in two zones: the one created an hour later is assigned. -/
theorem laterItem_assigned : ∃ r s',
    Returns (scheduleNext none sampleCaller epoch) (twoItemStore aheadItem utcItem) r s' ∧
      r.statusCode = 200 ∧ ¬ ChoseOptimally (twoItemStore aheadItem utcItem) none r := by
  obtain ⟨r, hret⟩ := Program.returns_run (p := scheduleNext none sampleCaller epoch)
    (s := twoItemStore aheadItem utcItem) (by decide)
  have hanswer : (((scheduleNext none sampleCaller epoch).run (twoItemStore aheadItem utcItem)).1.map
      fun r => (r.statusCode, r.workItem.map fun item => item.1.workItemId)).toOption =
      some (200, some "w2") := by decide
  rw [show (scheduleNext none sampleCaller epoch).run (twoItemStore aheadItem utcItem) = _ from hret]
    at hanswer
  obtain ⟨hcode, hid⟩ := Prod.mk.inj (Option.some.inj hanswer)
  refine ⟨r, _, hret, hcode, ?_⟩
  rintro ⟨moved, item, m, hmoved, hstored, -, hoptimal⟩
  rw [hmoved] at hid
  rw [show moved.1.workItemId = "w2" from Option.some.inj hid] at hstored
  have hsecond : (twoItemStore aheadItem utcItem).itemAt "w2" = some utcItem.1 := by decide
  obtain rfl := Option.some.inj (hsecond.symm.trans hstored)
  have hdue := hoptimal.due aheadItem.1 ⟨by decide, rfl, fun _ h => by cases h⟩
  exact absurd hdue (by decide)

end Vad
