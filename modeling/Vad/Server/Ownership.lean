/-
  Who owns a work item.

  The owner and the lease of an item are two optional fields that nothing in the service ties to
  its status: `update_work_item` keeps what its caller does not name, and `transition` clears them
  only on the way to REQUEUED.

  1. **The property** — `OwnershipConsistent`: an item in ASSIGNED, RUNNING or VERIFYING has a
     client, one in QUEUED or REQUEUED has neither client nor lease, and an item that the scheduler
     assigns carries no lease but its new client's.
  2. **The step** — `run_transition_items` says what a transition does to the items: it saves one
     item, or none.  A saved item is the loaded one with the named fields replaced
     (`transitionedItem_val`), so it is well owned exactly when the call minds the owner
     (`ownedItem_iff_mindsOwner`).
  3. **The run** — scheduling and recovery always mind the owner, and every other request leaves
     the items alone or creates one that nobody owns (`owned_scheduling`).  So the property holds
     throughout a run exactly when every transition call of it minds the owner
     (`ownership_consistent_iff`): the detours that do not are those back to QUEUED with a client or
     a lease, and those into ASSIGNED or RUNNING without one.
-/
import Vad.Server.StaleRecovery
import Vad.Server.StuckItems

namespace Vad

open Keyed (Table)
open Atomic (Program)
open Atomic.Program (Safe Solo Within Returns returns_bind returns_pure)

/-! ## The property -/

/-- The statuses in which somebody works on an item. -/
def WorkItemStatus.owned (status : WorkItemStatus) : Bool :=
  status = .assigned || status = .running || status = .verifying

/-- What the status of an item says about its client and its lease. -/
structure OwnedItem (item : WorkItem) : Prop where
  client : item.status.owned = true → item.assignedClientId ≠ none
  free : schedulable item.status = true → item.assignedClientId = none ∧ item.leaseId = none

/-- Every stored item is well owned. -/
def Owned (s : Store) : Prop := ∀ id item, s.itemAt id = some item → OwnedItem item

/-- The client holds the lease: it is stored under this id, active, and the client's. -/
def HoldsLease (s : Store) (clientId leaseId : String) : Prop :=
  ∃ row, s.taskLeases.find? leaseId = some row ∧ row.payload.clientId = clientId ∧
    row.payload.status = .active

/-- A scheduler assignment that succeeds leaves the item without a lease, or with one that the
    selected client holds. -/
def LeasesFollow (s : Store) : Prop :=
  ∀ (c : ScheduleCall) now r s', Returns (c.perform now) s r s' → r.statusCode = 200 →
    ∃ item clientId, r.workItem = some item ∧ r.selectedClientId = some clientId ∧
      ∀ leaseId, item.1.leaseId = some leaseId → HoldsLease s' clientId leaseId

/-- Ownership is consistent. -/
structure OwnershipConsistent (s : Store) : Prop where
  owned : Owned s
  leases : LeasesFollow s

/-! ## What a transition does to the items -/

/-- The item that `transition` saves, as data. -/
def movedItem (current : WorkItem) (target : WorkItemStatus) (change : WorkItemChange)
    (now : DateTime) : WorkItem :=
  let updated := updatedData current { change with status := some target } now
  if target = .requeued then updated.withoutOwner else updated

theorem transitionedItem_val {current item : Checked WorkItem} {target : WorkItemStatus}
    {change : WorkItemChange} {now : DateTime}
    (h : transitionedItem current target change now = .ok item) :
    item.1 = movedItem current.1 target change now := by
  unfold transitionedItem at h
  unfold movedItem
  split at h
  · cases h
  · rename_i updated hupdated
    have hval : updated.1 = updatedData current.1 { change with status := some target } now :=
      build_val (fun _ => rfl) hupdated
    split at h
    · rename_i htarget
      cases h
      simp only [if_pos htarget, hval]
    · rename_i htarget
      cases h
      simp only [if_neg htarget, hval]

/-- A transition call that is carried out: its item is stored, the edge is allowed, and the changed
    data passes the checks of the model and the foreign keys. -/
structure CarriedOut (s : Store) (id : String) (target : WorkItemStatus) (change : WorkItemChange)
    (now : DateTime) (current : WorkItem) : Prop where
  stored : s.itemAt id = some current
  edge : target ∈ allowedWorkItemTransitions current.status
  valid : Model.Valid (updatedData current { change with status := some target } now)
  references : referencesHold s (movedItem current target change now) = true

section Step

variable {P : Option String → Prop} {s : Store} {id : String} {target : WorkItemStatus}
  {change : WorkItemChange} {now : DateTime}

theorem CarriedOut.transitionedItem {current : WorkItem}
    (h : CarriedOut s id target change now current) (hvalid : Model.Valid current) :
    ∃ item, transitionedItem ⟨current, hvalid⟩ target change now = .ok item ∧
      item.1 = movedItem current target change now := by
  have hbuild : updateWorkItem current { change with status := some target } now =
      .ok ⟨_, h.valid⟩ := Model.build_of_valid h.valid
  have hok : ∃ item, Vad.transitionedItem ⟨current, hvalid⟩ target change now = .ok item := by
    unfold Vad.transitionedItem
    rw [hbuild]
    by_cases htarget : target = .requeued
    · exact ⟨_, if_pos htarget⟩
    · exact ⟨_, if_neg htarget⟩
  obtain ⟨item, hitem⟩ := hok
  exact ⟨item, hitem, transitionedItem_val hitem⟩

/-- One item is replaced, and the others stay. -/
def Replaces (id : String) (item : WorkItem) (s s' : Store) : Prop :=
  ∀ k, s'.itemAt k = if k = id then some item else s.itemAt k

/-- Storing the moved item replaces the loaded one. -/
theorem replaces_putItemAndState {current : WorkItem} (hstored : s.itemAt id = some current)
    (hid : current.workItemId = id) :
    Replaces id (movedItem current target change now) s
      (s.putItemAndState (movedItem current target change now)) := by
  intro k
  have hmoved : (movedItem current target change now).workItemId = id := by
    unfold movedItem
    rw [← hid]
    by_cases htarget : target = .requeued
    · rw [if_pos htarget]
      rfl
    · rw [if_neg htarget]
      rfl
  obtain ⟨row, hrow, -⟩ := Option.map_eq_some_iff.mp hstored
  have hat := @itemAt_putItem s (movedItem current target change now) ⟨row, hmoved.symm ▸ hrow⟩ k
  rw [hmoved] at hat
  exact hat

/-- Call by call: a transition leaves the items alone, but for the one call that stores the moved
    item of a transition that is carried out. -/
theorem within_transition_items (hs : RowsOk P s) (id : String) (target : WorkItemStatus)
    (caller : Caller) (change : WorkItemChange) (summary : Option String) (now : DateTime) :
    Within (fun a b => ItemsKept a b ∨ ∃ current, CarriedOut s id target change now current ∧
      Replaces id (movedItem current target change now) s b)
      (transition id target caller change summary now) s := by
  refine within_transition_of hs (fun _ _ h => Or.inl h) id target caller change summary now ?_
  intro current item hcurrent hid hallowed hitem hstored
  have hval := transitionedItem_val hitem
  have hreferences := (returns_storeWorkItem.mp hstored).2.1
  rw [hval] at hreferences
  refine Or.inr ⟨current.1, ⟨hcurrent, hallowed, ?_, hreferences⟩, ?_⟩
  · unfold transitionedItem updateWorkItem at hitem
    split at hitem
    · cases hitem
    · rename_i updated hupdated
      have hv := build_val (fun _ => rfl) hupdated
      rw [← hv]
      exact updated.2
  · rw [hval]
    exact replaces_putItemAndState hcurrent hid

/-- A transition that is carried out leaves the moved item behind, whatever its event comes to. -/
theorem run_transition_carriedOut (hs : RowsOk P s) {current : WorkItem}
    (h : CarriedOut s id target change now current) (caller : Caller) (summary : Option String) :
    Replaces id (movedItem current target change now) s
      ((transition id target caller change summary now).run s).2 := by
  obtain ⟨row, hrow, hpayload⟩ := Option.map_eq_some_iff.mp h.stored
  have hok := hs.items row (Table.mem_of_find? hrow)
  have hvalid : Model.Valid current := hpayload ▸ hok.valid
  have hid : current.workItemId = id := hpayload ▸ hok.id.trans (Table.key_of_find? hrow)
  have hload : (loadWorkItem id).run s = (.ok ⟨current, hvalid⟩, s) :=
    returns_loadWorkItem.mpr ⟨⟨row, hrow, hpayload.symm ▸ Model.build_of_valid hvalid⟩, rfl⟩
  obtain ⟨item, hitem, hval⟩ := h.transitionedItem hvalid
  have hstore : (storeWorkItem item).run s = (.ok item, s.putItemAndState item.1) := by
    refine returns_storeWorkItem.mpr ⟨⟨row, ⟨current, hvalid⟩, ?_, ?_⟩, hval ▸ h.references, rfl,
      rfl⟩
    · rw [(transitionedItem_spec hitem).2.1, hid]
      exact hrow
    · rw [hpayload]
      exact Model.build_of_valid hvalid
  unfold transition transitionFrom
  rw [Program.run_bind, hload]
  dsimp only
  rw [if_pos (transitionDecision_allow.mpr h.edge)]
  unfold performTransition
  rw [hitem]
  show Replaces id _ s ((storeWorkItem item >>= fun saved => _).run s).2
  rw [Program.run_bind, hstore]
  dsimp only
  have hkept : ItemsKept (s.putItemAndState item.1)
      ((recordTransition item caller summary (transitionDecision current.status target) now).run
        (s.putItemAndState item.1)).2 :=
    ((itemsKept_recordTransition item caller summary _ now).solo _ trivial |>.mono
      fun _ _ hR => hR.1).run (fun _ _ => rfl) (fun hab hbc k => (hbc k).trans (hab k))
  intro k
  rw [hkept k, hval]
  exact replaces_putItemAndState h.stored hid k

end Step

/-! ## The owner across a transition -/

/-- A call minds the owner: towards ASSIGNED, and towards RUNNING when the item waited for a human,
    the call or the item names a client; towards QUEUED neither names a client or a lease. -/
def MindsOwner (target : WorkItemStatus) (change : WorkItemChange) (current : WorkItem) : Prop :=
  match target with
  | .assigned => change.assignedClientId ≠ none ∨ current.assignedClientId ≠ none
  | .running => current.status = .waitingForHuman →
      change.assignedClientId ≠ none ∨ current.assignedClientId ≠ none
  | .queued => (change.assignedClientId = none ∧ change.leaseId = none) ∧
      current.assignedClientId = none ∧ current.leaseId = none
  | _ => True

section Owner

variable {current : WorkItem} {target : WorkItemStatus} {change : WorkItemChange}
  {now : DateTime}

theorem orElse_ne_none {a b : Option String} : (a <|> b) ≠ none ↔ a ≠ none ∨ b ≠ none := by
  cases a <;> simp

theorem orElse_eq_none {a b : Option String} : (a <|> b) = none ↔ a = none ∧ b = none := by
  cases a <;> simp

theorem movedItem_status : (movedItem current target change now).status = target := by
  unfold movedItem
  by_cases htarget : target = .requeued
  · rw [if_pos htarget]
    rfl
  · rw [if_neg htarget]
    rfl

/-- Short of REQUEUED, the moved item keeps what the call does not name. -/
theorem movedItem_kept (htarget : target ≠ .requeued) :
    (movedItem current target change now).assignedClientId =
        (change.assignedClientId <|> current.assignedClientId) ∧
      (movedItem current target change now).leaseId = (change.leaseId <|> current.leaseId) := by
  unfold movedItem
  rw [if_neg htarget]
  exact ⟨rfl, rfl⟩

theorem running_source {status : WorkItemStatus}
    (h : .running ∈ allowedWorkItemTransitions status) :
    status = .assigned ∨ status = .waitingForHuman := by
  revert h
  cases status <;> decide

theorem verifying_source {status : WorkItemStatus}
    (h : .verifying ∈ allowedWorkItemTransitions status) : status = .running := by
  revert h
  cases status <;> decide

/-- Along an allowed edge, a well owned item stays so exactly when the call minds the owner. -/
theorem ownedItem_iff_mindsOwner (hcurrent : OwnedItem current)
    (hedge : target ∈ allowedWorkItemTransitions current.status) :
    OwnedItem (movedItem current target change now) ↔ MindsOwner target change current := by
  by_cases hrequeued : target = .requeued
  · subst hrequeued
    refine ⟨fun _ => trivial, fun _ => ⟨fun h => ?_, fun _ => ⟨rfl, rfl⟩⟩⟩
    rw [movedItem_status] at h
    cases h
  obtain ⟨hclient, hlease⟩ := @movedItem_kept current _ change now
    hrequeued
  -- the two fields of `OwnedItem` in terms of the call and the loaded item
  have hiff : OwnedItem (movedItem current target change now) ↔
      (target.owned = true → change.assignedClientId ≠ none ∨ current.assignedClientId ≠ none) ∧
      (schedulable target = true → (change.assignedClientId = none ∧
        current.assignedClientId = none) ∧ change.leaseId = none ∧ current.leaseId = none) := by
    rw [← orElse_ne_none, ← orElse_eq_none, ← orElse_eq_none, ← hclient, ← hlease]
    constructor
    · rintro ⟨h1, h2⟩
      rw [movedItem_status] at h1 h2
      exact ⟨h1, h2⟩
    · rintro ⟨h1, h2⟩
      exact ⟨by rw [movedItem_status]; exact h1, by rw [movedItem_status]; exact h2⟩
  rw [hiff]
  cases target with
  | requeued => exact absurd rfl hrequeued
  | assigned => exact ⟨fun h => h.1 rfl, fun h => ⟨fun _ => h, fun hs => by cases hs⟩⟩
  | running =>
    refine ⟨fun h _ => h.1 rfl, fun h => ⟨fun _ => ?_, fun hs => by cases hs⟩⟩
    rcases running_source hedge with hassigned | hwaiting
    · exact Or.inr (hcurrent.client (by rw [hassigned]; rfl))
    · exact h hwaiting
  | verifying =>
    refine ⟨fun _ => trivial, fun _ => ⟨fun _ => Or.inr (hcurrent.client ?_), ?_⟩⟩
    · rw [verifying_source hedge]
      rfl
    · exact fun hs => (nomatch hs)
  | queued =>
    constructor
    · rintro ⟨-, h⟩
      obtain ⟨⟨h1, h2⟩, h3, h4⟩ := h rfl
      exact ⟨⟨h1, h3⟩, h2, h4⟩
    · rintro ⟨⟨h1, h3⟩, h2, h4⟩
      exact ⟨fun hs => (nomatch hs), fun _ => ⟨⟨h1, h2⟩, h3, h4⟩⟩
  | _ => exact ⟨fun _ => trivial, fun _ => ⟨fun hs => (nomatch hs), fun hs => (nomatch hs)⟩⟩

end Owner

/-! ## What requests do to the owners -/

/-- The rows are in order and every item is well owned. -/
def OwnedRows (s : Store) : Prop := RowsOk (fun _ => True) s ∧ Owned s

section Requests

variable {s s' : Store}

theorem Owned.of_kept (hs : Owned s) (h : ItemsKept s s') : Owned s' := fun id item hitem =>
  hs id item (h id ▸ hitem)

theorem Owned.of_replaces (hs : Owned s) {id : String} {item : WorkItem} (hitem : OwnedItem item)
    (h : Replaces id item s s') : Owned s' := by
  intro k other hother
  rw [h k] at hother
  by_cases hk : k = id
  · rw [if_pos hk] at hother
    cases hother
    exact hitem
  · rw [if_neg hk] at hother
    exact hs k other hother

/-- From here, each call of the program leaves the items alone or well owned. -/
abbrev LeavesOwned {α : Type} (p : Db α) (s : Store) : Prop :=
  Within (fun a b => Owned a → Owned b) p s

/-- Every program that keeps the rows in order and the items well owned, call by call. -/
abbrev KeepsOwned {α : Type} (p : Db α) : Prop := Solo OwnedRows Any p

theorem within_ownedRows {α : Type} {p : Db α} (hrows : Safe (RowsOk fun _ => True) Any p)
    (hs : OwnedRows s) (h : LeavesOwned p s) :
    Within (fun a b => Any a b ∧ (OwnedRows a → OwnedRows b)) p s :=
  ((hrows.solo s hs.1).and h).mono fun _ _ hR => ⟨trivial, fun ha => ⟨hR.1.2 ha.1, hR.2 ha.2⟩⟩

theorem keepsOwned_of_kept {α : Type} {p : Db α} (hrows : Safe (RowsOk fun _ => True) Any p)
    (hkept : ItemsKeptProgram p) : KeepsOwned p := fun s hs =>
  within_ownedRows hrows hs ((hkept.solo s trivial).mono fun _ _ hR ha => ha.of_kept hR.1)

/-- A transition that minds the owner, if it is carried out, leaves the items well owned. -/
theorem leavesOwned_transition {id : String} {target : WorkItemStatus} {change : WorkItemChange}
    {now : DateTime} (hs : OwnedRows s)
    (hminds : ∀ current, CarriedOut s id target change now current →
      MindsOwner target change current) (caller : Caller) (summary : Option String) :
    LeavesOwned (transition id target caller change summary now) s := by
  refine (within_transition_items hs.1 id target caller change summary now).mono fun a b hR ha => ?_
  rcases hR with hkept | ⟨current, hout, hreplaces⟩
  · exact ha.of_kept hkept
  · have hitem : OwnedItem (movedItem current target change now) :=
      (ownedItem_iff_mindsOwner (hs.2 id current hout.stored) hout.edge).mpr (hminds current hout)
    exact hs.2.of_replaces hitem hreplaces

/-- A created item that nobody owns is well owned. -/
theorem leavesOwned_createWorkItem {item : Checked WorkItem} (hitem : OwnedItem item.1)
    (caller : Caller) (summary : Option String) (now : DateTime) :
    LeavesOwned (createWorkItem item caller summary now) s := by
  have hkept : ∀ {α : Type} {p : Db α} {t : Store}, ItemsKeptProgram p → LeavesOwned p t :=
    fun hp => (hp.solo _ trivial).mono fun _ _ hR ha => ha.of_kept hR.1
  refine Program.within_bind (Program.within_atomic.mpr fun ha => ?_) fun saved s₁ _ =>
    hkept (Program.safe_bind (Program.safe_atomic fun _ _ => ⟨fun _ => rfl, trivial⟩) fun _ =>
      Program.safe_bind (itemsKept_appendEvent _) fun _ => Program.safe_pure _)
  show Owned ((saveWorkItem item).run s).2
  rcases run_saveWorkItem item s with ⟨t, ht, -, hrun⟩ | ⟨e, hrun⟩
  · rw [hrun]
    refine @Owned.of_replaces _ _ ha item.1.workItemId _ hitem fun k => ?_
    show ((t.find? k).map _) = _
    rw [Table.find?_insert ht]
    by_cases hk : k = item.1.workItemId
    · rw [if_pos hk, if_pos (show (workItemRow item.1).workItemId = k from hk.symm)]
      rfl
    · rw [if_neg hk, if_neg (show ¬ (workItemRow item.1).workItemId = k from fun h => hk h.symm)]
      rfl
  · rw [hrun]
    exact ha

/-- Scheduling and recovery keep the items well owned: they name a client when they assign, and
    requeue otherwise. -/
theorem keepsOwned_scheduling : SchedulingRule (fun {_} p => KeepsOwned p) where
  done _ := fun _ _ => trivial
  bind hp hk := Program.solo_bind hp hk
  query f := keepsOwned_of_kept (anyRowsOk.query f) (itemsKept_of_quiet (quiet_query f))
  appendEvent fields h := keepsOwned_of_kept (anyRowsOk.appendEvent fields h)
    (itemsKept_appendEvent fields)
  assign id caller client summary now s hs := by
    refine within_ownedRows (anyRowsOk.transition _ _ _ _ _ _) hs
      (leavesOwned_transition hs ?_ caller summary)
    exact fun current _ => Or.inl (Option.some_ne_none client)
  requeue id caller summary now s hs := by
    refine within_ownedRows (anyRowsOk.transition _ _ _ _ _ _) hs
      (leavesOwned_transition hs ?_ caller summary)
    exact fun current _ => trivial

/-- An item is created queued or planned, and nobody owns it. -/
def CreatesFree (r : Request) : Prop :=
  ∀ item caller summary, r = .createWorkItem item caller summary →
    (item.1.status = .queued ∨ item.1.status = .planned) ∧
      item.1.assignedClientId = none ∧ item.1.leaseId = none

/-- If the request is a transition that is carried out, it minds the owner. -/
def RequestMindsOwner (s : Store) (r : Request × DateTime) : Prop :=
  ∀ c, r.1 = .transition c → ∀ current,
    CarriedOut s c.workItemId c.args.target c.args.change r.2 current →
      MindsOwner c.args.target c.args.change current

/-- Call by call, a request that minds the owner leaves the items well owned. -/
theorem within_request_owned (o : Outside) {r : Request × DateTime} (hs : OwnedRows s)
    (hfree : CreatesFree r.1) (hminds : RequestMindsOwner s r) :
    Within (fun a b => Any a b ∧ (OwnedRows a → OwnedRows b)) (r.1.perform o r.2) s := by
  have hrule := keepsOwned_scheduling
  have hquiet : ∀ {α : Type} {p : Db α}, Safe (RowsOk fun _ => True) Any p → QuietProgram p →
      KeepsOwned p := fun hrows hq => keepsOwned_of_kept hrows (itemsKept_of_quiet hq)
  have hlease : ∀ l, GoodLease (fun _ => True) l → KeepsOwned (saveTaskLease l) := fun l hl =>
    hquiet (anyRowsOk.saveTaskLease l hl) (quiet_offClients.saveTaskLease l)
  obtain ⟨r, now⟩ := r
  cases r with
  | register m =>
    have hwrite := hquiet (anyRowsOk.registerClientManifest m)
      (quiet_offClients.registerClientManifest m)
    exact hrule.map (hrule.register hwrite now) _ s hs
  | unregister id =>
    have hwrite := hquiet (anyRowsOk.unregisterClientManifest id)
      (quiet_offClients.unregisterClientManifest id)
    exact hrule.map (hrule.unregister hwrite now) _ s hs
  | heartbeat b =>
    have hwrite := hquiet (anyRowsOk.recordClientHeartbeat b)
      (quiet_offClients.recordClientHeartbeat b)
    exact hrule.map (hrule.heartbeat hwrite) _ s hs
  | staleScan reference seconds auto =>
    have hmark : ∀ id, KeepsOwned (markClientStale id) := fun id =>
      hquiet (anyRowsOk.markClientStale id) (quiet_offClients.markClientStale id)
    exact hrule.map (hrule.markStaleClientsWithRecovery hmark reference seconds auto now) _ s hs
  | acquire q =>
    have hnew := goodLease_of_valid (P := fun _ => True) (fun _ _ => trivial) (newTaskLease q now).2
    exact hrule.map (hrule.acquire (hlease _ hnew)) _ s hs
  | renew id q => exact hrule.map (hrule.renew (fun _ _ => trivial) hlease id q now) _ s hs
  | release id q => exact hrule.map (hrule.release hlease id q trivial now) _ s hs
  | expire id => exact hrule.map (hrule.expire (fun _ _ => trivial) hlease id now) _ s hs
  | createWorkItem item caller summary =>
    obtain ⟨hstatus, hclient, hno⟩ := hfree item caller summary rfl
    have hitem : OwnedItem item.1 := by
      refine ⟨fun howned => ?_, fun _ => ⟨hclient, hno⟩⟩
      rcases hstatus with h | h <;> rw [h] at howned <;> cases howned
    refine Program.within_bind (within_ownedRows (anyRowsOk.createWorkItem _ _ _ _) hs
      (leavesOwned_createWorkItem hitem caller summary now)) fun _ _ _ => trivial
  | transition c =>
    refine Program.within_bind ?_ fun _ _ _ => trivial
    rw [c.perform_eq]
    exact within_ownedRows (anyRowsOk.transition _ _ _ _ _ _) hs
      (leavesOwned_transition hs (hminds c rfl) c.args.caller c.args.summary)
  | schedule c => exact hrule.map (hrule.scheduleCall c now) _ s hs
  | ingest e id =>
    have hkeep : KeepsOwned (ingest e id now) :=
      keepsOwned_of_kept (safe_ingest e id now) (itemsKept_ingest e id now)
    exact hrule.map hkeep _ s hs
  | approve q =>
    have hwrite : ∀ e hid, KeepsOwned (saveApprovalEvent e hid) := fun e hid =>
      keepsOwned_of_kept (anyRowsOk.saveApprovalEvent e hid)
        (Program.safe_atomic fun _ _ => ⟨fun _ => rfl, trivial⟩)
    exact hrule.map (hrule.approve hwrite o.computeHash q now) _ s hs
  | propose q =>
    have hwrite : ∀ p hid, (∀ n, Model.Valid (p (.generated n))) →
        KeepsOwned (saveDiffProposal p hid) := fun p hid hp =>
      keepsOwned_of_kept (anyRowsOk.saveDiffProposal p hid hp)
        (Program.safe_atomic fun _ _ => ⟨fun _ => rfl, trivial⟩)
    exact hrule.map (hrule.propose hwrite o.sha256 o.str q now) _ s hs

end Requests

/-! ## The scheduler -/

/-- From a store whose items are well owned, an item that is scheduled has no lease. -/
theorem scheduled_without_lease {s s' : Store} (hs : OwnedRows s) {id : String} {caller : Caller}
    {now : DateTime} {r : SchedulerDecisionResult}
    (hret : Returns (scheduleWorkItem id caller now) s r s') (hcode : r.statusCode = 200) :
    ∃ item clientId, r.workItem = some item ∧ r.selectedClientId = some clientId ∧
      item.1.leaseId = none := by
  obtain ⟨item, hload, hdenied | ⟨selected, assignment, hdone⟩⟩ := schedule_cases hret
  · rw [hdenied.code] at hcode
    cases hcode
  · have hitem := Loaded.itemAt hs.1 hload
    obtain ⟨summary, hassign⟩ := hdone.assigned
    rw [hdone.code] at hcode
    obtain ⟨current, hcurrent, hdenied | hmoved⟩ := transition_cases hassign
    · rw [hdenied.code] at hcode
      cases hcode
    · -- the transition loads the very item that was found to be waiting
      rw [hitem.2] at hcurrent
      obtain rfl : current = item := by
        have hagain := (Loaded.itemAt hs.1 hcurrent).1.symm.trans hitem.1
        exact Subtype.ext (Option.some.inj hagain)
      refine ⟨assignment.workItem, _, hdone.answer, hdone.client, ?_⟩
      have hfree := (hs.2 id current.1 hitem.1).free hdone.waiting
      rw [transitionedItem_val hmoved.item, (movedItem_kept (by decide)).2]
      exact hfree.2

theorem leasesFollow_of_owned {s : Store} (hs : OwnedRows s) : LeasesFollow s := by
  have hitem : ∀ {id caller now r s'}, Returns (scheduleWorkItem id caller now) s r s' →
      r.statusCode = 200 → ∃ item clientId, r.workItem = some item ∧
        r.selectedClientId = some clientId ∧
        ∀ leaseId, item.1.leaseId = some leaseId → HoldsLease s' clientId leaseId := by
    intro id caller now r s' hret hcode
    obtain ⟨item, clientId, hanswer, hclient, hnone⟩ := scheduled_without_lease hs hret hcode
    refine ⟨item, clientId, hanswer, hclient, fun leaseId hlease => ?_⟩
    rw [hnone] at hlease
    cases hlease
  have hnext : ∀ {runId caller now r s'}, Returns (scheduleNext runId caller now) s r s' →
      r.statusCode = 200 → ∃ id, Returns (scheduleWorkItem id caller now) s r s' := by
    intro runId caller now r s' hret hcode
    rcases scheduleNext_cases hret with ⟨rfl, -⟩ | h
    · cases hcode
    · exact h
  intro c now r s' hret hcode
  cases c with
  | workItem id caller => exact hitem hret hcode
  | next runId caller =>
    obtain ⟨id, hscheduled⟩ := hnext hret hcode
    exact hitem hscheduled hcode
  | receiveNextWork runId caller =>
    obtain ⟨id, hscheduled⟩ := hnext hret hcode
    exact hitem hscheduled hcode

theorem OwnedRows.consistent {s : Store} (hs : OwnedRows s) : OwnershipConsistent s :=
  ⟨hs.2, leasesFollow_of_owned hs⟩

/-! ## Runs -/

/-- Every transition call of the run that is carried out minds the owner. -/
def MindsOwners (o : Outside) : List (Request × DateTime) → Store → Prop
  | [], _ => True
  | r :: rest, s => RequestMindsOwner s r ∧ MindsOwners o rest (afterRequest o s r)

/-- If the items are well owned after a request too, the request minded the owner. -/
theorem requestMindsOwner_of_owned {o : Outside} {s : Store} {r : Request × DateTime}
    (hs : OwnedRows s) (h : Owned (afterRequest o s r)) : RequestMindsOwner s r := by
  obtain ⟨r, now⟩ := r
  rintro c rfl current hout
  have hafter : afterRequest o s (.transition c, now) = ((c.perform now).run s).2 := by
    show ((do let a ← c.perform now; pure (Response.workItem a) : Db Response).run s).2 = _
    rw [Program.run_map]
  have hreplaces := run_transition_carriedOut hs.1 hout c.args.caller c.args.summary
  rw [← c.perform_eq, ← hafter] at hreplaces
  have hitem := h c.workItemId _ ((hreplaces c.workItemId).trans (if_pos rfl))
  exact (ownedItem_iff_mindsOwner (hs.2 _ _ hout.stored) hout.edge).mp hitem

theorem throughRequests_iff {o : Outside} :
    ∀ {requests : List (Request × DateTime)} {s : Store}, (∀ r ∈ requests, CreatesFree r.1) →
      OwnedRows s →
      (ThroughRequests o OwnershipConsistent requests s ↔ MindsOwners o requests s) := by
  intro requests
  induction requests with
  | nil => exact fun _ hs => ⟨fun _ => trivial, fun _ => hs.consistent⟩
  | cons r rest ih =>
    intro s hfree hs
    have hfirst := hfree r (List.mem_cons_self ..)
    have hrest : ∀ x ∈ rest, CreatesFree x.1 := fun x hx => hfree x (List.mem_cons_of_mem r hx)
    have hrows := rowsOk_afterRequest (o := o) r s hs.1
    constructor
    · rintro ⟨-, -, hlater⟩
      have howned := hlater.first.owned
      exact ⟨requestMindsOwner_of_owned hs howned, (ih hrest ⟨hrows, howned⟩).mp hlater⟩
    · rintro ⟨hminds, hlater⟩
      have hcalls := (within_request_owned o hs hfirst hminds).mono fun _ _ hR => hR.2
      have hafter : OwnedRows (afterRequest o s r) :=
        hcalls.run (fun _ h => h) (fun hab hbc ha => hbc (hab ha)) hs
      exact ⟨hs.consistent, (hcalls.holds hs).mono fun _ _ ht => ht.consistent,
        (ih hrest hafter).mpr hlater⟩

theorem ownedRows_empty (evidence : Table RunEvidenceRow.runId) :
    OwnedRows { Store.empty with runEvidence := evidence } :=
  ⟨rowsOk_empty _ evidence, fun _ _ h => by cases h⟩

/-- Along every sequential run whose items are created queued or planned and free, ownership is
    consistent in every store reached exactly when every transition call that is carried out minds
    the owner. -/
theorem ownership_consistent_iff (o : Outside) (evidence : Table RunEvidenceRow.runId)
    (requests : List (Request × DateTime)) (hfree : ∀ r ∈ requests, CreatesFree r.1) :
    ThroughRequests o OwnershipConsistent requests { Store.empty with runEvidence := evidence } ↔
      MindsOwners o requests { Store.empty with runEvidence := evidence } :=
  throughRequests_iff hfree (ownedRows_empty evidence)

/-- Register a client and create a queued item, then make these calls. -/
def itemRun (calls : List TransitionCall) : List (Request × DateTime) :=
  (.register ⟨sampleManifest, sampleManifest_valid⟩, epoch) ::
    (.createWorkItem ⟨sampleItem, sampleItem_valid⟩ sampleCaller none, epoch) ::
    calls.map fun c => (.transition c, epoch)

theorem itemRun_free (calls : List TransitionCall) : ∀ r ∈ itemRun calls, CreatesFree r.1 := by
  intro r hr item caller summary hcreate
  rcases List.mem_cons.mp hr with rfl | hr
  · cases hcreate
  rcases List.mem_cons.mp hr with rfl | hr
  · cases hcreate
    exact ⟨Or.inl rfl, rfl, rfl⟩
  obtain ⟨c, -, rfl⟩ := List.mem_map.mp hr
  cases hcreate

/-- A run whose item waits for a human on the way and resumes with its client, then is requeued. -/
theorem ownership_consistent_resumed :
    ThroughRequests sampleOutside OwnershipConsistent
      (itemRun [.assign "w1" sampleCaller "c1" none none, .waitForHuman "w1" sampleCaller,
        .start "w1" sampleCaller, .requeue "w1" sampleCaller none])
      { Store.empty with runEvidence := Table.empty } := by
  refine (ownership_consistent_iff sampleOutside Table.empty _ (itemRun_free _)).mpr ?_
  refine ⟨fun c hc => (nomatch hc), fun c hc => (nomatch hc), ?_, ?_, ?_, ?_, trivial⟩
  · intro c hc current _
    cases hc
    exact Or.inl (Option.some_ne_none _)
  · intro c hc current _
    cases hc
    exact trivial
  · intro c hc current hout
    cases hc
    refine fun _ => Or.inr ?_
    have howner := congrArg (Option.map WorkItem.assignedClientId) hout.stored
    have hstored : Option.map WorkItem.assignedClientId ((afterRequests sampleOutside
        { Store.empty with runEvidence := Table.empty } (itemRun
          [.assign "w1" sampleCaller "c1" none none,
            .waitForHuman "w1" sampleCaller])).itemAt "w1") =
        some (some "c1") := by decide
    rw [← Option.some.inj (hstored.symm.trans howner)]
    exact Option.some_ne_none _
  · intro c hc current _
    cases hc
    exact trivial

/-- A queued item that waits for a human and is started runs without a client; an assigned one that
    is blocked and queued again keeps its client. -/
theorem owner_lost_or_kept :
    ¬ ThroughRequests sampleOutside OwnershipConsistent
      (itemRun [.waitForHuman "w1" sampleCaller, .start "w1" sampleCaller])
      { Store.empty with runEvidence := Table.empty } ∧
    ¬ ThroughRequests sampleOutside OwnershipConsistent
      (itemRun [.assign "w1" sampleCaller "c1" none none, .block "w1" sampleCaller "no",
        .transition "w1" .queued sampleCaller {} none])
      { Store.empty with runEvidence := Table.empty } := by
  constructor
  · intro h
    have hitem : ((afterRequests sampleOutside { Store.empty with runEvidence := Table.empty }
        (itemRun [.waitForHuman "w1" sampleCaller, .start "w1" sampleCaller])).itemAt "w1") =
        some { sampleItem with status := .running } := by decide
    exact (h.last.owned _ _ hitem).client rfl rfl
  · intro h
    have hitem : ((afterRequests sampleOutside { Store.empty with runEvidence := Table.empty }
        (itemRun [.assign "w1" sampleCaller "c1" none none, .block "w1" sampleCaller "no",
          .transition "w1" .queued sampleCaller {} none])).itemAt "w1") =
        some { sampleItem with
          assignedClientId := some "c1"
          blockedReason := some "no" } := by decide
    have hfree := ((h.last.owned _ _ hitem).free rfl).1
    cases hfree

end Vad
