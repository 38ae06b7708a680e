/-
  The head of the scheduler's queue.

  `schedule_next` takes the first waiting item and then looks for a client.  An item that nobody can
  work on therefore holds up the items behind it (`blocked_by_head`): the scheduler is not
  work-conserving over the queue, only at its head.

  1. **An assignment goes through** (`succeeds_transition`) when the transition is carried out and
     its event passes; for the scheduler that leaves the lease of the item and the names of the
     caller to be asked for (`carriedOut_assignment`).
  2. **The head is served** (`head_of_line`): 404 says that nothing waits, 409 that nobody can work
     on the first item, and the first item is assigned when somebody can.
-/
import Vad.Server.SchedulerChoice

namespace Vad

open Keyed (Table)
open Atomic (Program)
open Atomic.Program (Returns returns_bind returns_pure)

/-! ## An assignment that goes through -/

/-- The names under which a caller acts pass the checks of an event. -/
structure CallerOk (caller : Caller) : Prop where
  clientId : safeIdentifier 1 160 caller.clientId = true
  actor : safeIdentifier 1 160 caller.actor = true
  role : safeIdentifier 1 80 caller.role = true

section Assignment

variable {s : Store} {caller : Caller} {now : DateTime}

/-- A transition that is carried out answers 200 with the moved item, if its event passes. -/
theorem succeeds_transition (hs : RowsOk (fun _ => True) s) {id : String}
    {target : WorkItemStatus} {change : WorkItemChange} {current : WorkItem}
    (h : CarriedOut s id target change now current) (hcaller : CallerOk caller)
    {summary : Option String} (hsummary : optionally (lengthWithin 0 500) summary = true) :
    ∃ r s', Returns (transition id target caller change summary now) s r s' ∧
      r.statusCode = 200 ∧ r.workItem.1 = movedItem current target change now := by
  obtain ⟨row, hrow, rfl⟩ := Option.map_eq_some_iff.mp h.stored
  have hok := hs.items row (Table.mem_of_find? hrow)
  have hload : Returns (loadWorkItem id) s ⟨row.payload, hok.valid⟩ s :=
    returns_loadWorkItem.mpr ⟨⟨row, hrow, Model.build_of_valid hok.valid⟩, rfl⟩
  obtain ⟨moved, hmoved, hval⟩ := h.transitionedItem hok.valid
  have hid : moved.1.workItemId = id :=
    (transitionedItem_spec hmoved).2.1.trans (hok.id.trans (Table.key_of_find? hrow))
  have hstore : Returns (storeWorkItem moved) s moved (s.putItemAndState moved.1) :=
    returns_storeWorkItem.mpr ⟨⟨row, _, by rw [hid]; exact hrow, Model.build_of_valid hok.valid⟩,
      hval ▸ h.references, rfl, rfl⟩
  have hplain : PlainCall caller {} summary :=
    ⟨hcaller.clientId, hcaller.actor, hcaller.role, rfl, rfl, rfl, rfl, hsummary⟩
  obtain ⟨r, s', hrecord, hcode⟩ := succeeds_recordTransition (s := s.putItemAndState moved.1)
    (transitionDecision row.payload.status target) (hs.putItemAndState moved.2).ledgerLists
    (workItemEvent_ok moved.2 hplain now _)
  refine ⟨r, s', returns_bind.mpr ⟨_, s, hload, ?_⟩, hcode, ?_⟩
  · unfold transitionFrom
    rw [if_pos (transitionDecision_allow.mpr h.edge)]
    exact returns_bind.mpr ⟨moved, s, returns_done.mpr ⟨hmoved, rfl⟩,
      returns_bind.mpr ⟨moved, _, hstore, hrecord⟩⟩
  · rw [(returns_recordTransition hrecord).2.1]
    exact hval

/-- Assigning a waiting item to a client that is able is carried out, if the lease that the item
    names is stored. -/
theorem carriedOut_assignment (hs : RowsOk (fun _ => True) s) {runId : Option String}
    {item : WorkItem} {m : ClientManifest} (hitem : WaitingItem s runId item) (hable : Able s item m)
    (hlease : item.leaseId.all s.taskLeases.has = true) :
    CarriedOut s item.workItemId .assigned { assignedClientId := some m.clientId } now item where
  stored := hitem.stored
  edge := assigned_mem_of_schedulable hitem.waits
  valid := by
    obtain ⟨row, hrow, hpayload⟩ := Option.map_eq_some_iff.mp hitem.stored
    have hvalid := (hs.items row (Table.mem_of_find? hrow)).valid
    rw [hpayload] at hvalid
    have hmanifest := (hs.manifests _ (Table.mem_of_find? hable.registered)).2
    have hclient := failedFields_eq_nil.mp hmanifest.2 _ (List.mem_cons_self ..)
    refine ⟨rfl, failedFields_eq_nil.mpr ?_⟩
    have hchecks := failedFields_eq_nil.mp hvalid.2
    simp only [Model.checks, List.forall_mem_cons] at hchecks ⊢
    obtain ⟨hid, hrun, htitle, htext, hrole, hcap, hprio, -, hrest⟩ := hchecks
    exact ⟨hid, hrun, htitle, htext, hrole, hcap, hprio, safeIdentifier_loosen hclient, hrest⟩
  references := by
    have hclient : s.clientManifests.has m.clientId = true :=
      Table.has_iff.mpr ⟨_, hable.registered⟩
    show (s.clientManifests.has m.clientId && item.leaseId.all s.taskLeases.has) = true
    rw [hclient, hlease]
    rfl

theorem length_of_safeIdentifier {lo hi : Nat} {value : String}
    (h : safeIdentifier lo hi value = true) : value.length ≤ hi := by
  simp only [safeIdentifier, lengthWithin, Bool.and_eq_true, decide_eq_true_eq] at h
  exact h.1.2

/-- The summary of a scheduler assignment is not too long. -/
theorem assignSummary_ok {id clientId : String} (hid : id.length ≤ 160)
    (hclient : clientId.length ≤ 160) : optionally (lengthWithin 0 500) (some (orDefault
      (some ("Scheduler assigned work item " ++ id ++ " to " ++ clientId ++ "."))
      ("Work item " ++ id ++ " assigned to " ++ clientId ++ "."))) = true := by
  have hwords : "Scheduler assigned work item ".length = 29 ∧ " to ".length = 4 ∧
      "Work item ".length = 10 ∧ " assigned to ".length = 13 ∧ ".".length = 1 := by decide
  have hlength : ∀ text : String, text.length ≤ 500 → lengthWithin 0 500 text = true := by
    intro text h
    simp only [lengthWithin, Bool.and_eq_true, decide_eq_true_eq]
    exact ⟨Nat.zero_le _, h⟩
  show lengthWithin 0 500 (orDefault _ _) = true
  unfold orDefault
  dsimp only
  split
  · apply hlength
    simp only [String.length_append, hwords]
    omega
  · apply hlength
    simp only [String.length_append, hwords]
    omega

end Assignment

/-! ## The head is served -/

/-- Something waits that somebody can work on. -/
def HasWork (s : Store) (runId : Option String) : Prop :=
  ∃ item m, WaitingItem s runId item ∧ Able s item m

/-- The scheduler is work-conserving here: a 404 or 409 says that there is no work to give out, and
    if there is, an item is assigned. -/
structure WorkConserving (s : Store) (runId : Option String) (caller : Caller) (now : DateTime) :
    Prop where
  fails : ∀ r s', Returns (scheduleNext runId caller now) s r s' →
    r.statusCode = 404 ∨ r.statusCode = 409 → ¬ HasWork s runId
  assigns : HasWork s runId → ∃ r s', Returns (scheduleNext runId caller now) s r s' ∧
    r.statusCode = 200

/-- The call serves the head of the queue: a 404 says that nothing waits, a 409 that nobody can work
    on the first item, and the first item is assigned if somebody can, its lease is stored, and the
    caller's names pass. -/
structure ServesHead (s : Store) (runId : Option String) (caller : Caller) (now : DateTime) :
    Prop where
  empty : ∀ r s', Returns (scheduleNext runId caller now) s r s' → r.statusCode = 404 →
    ∀ item, ¬ WaitingItem s runId item
  stuck : ∀ r s', Returns (scheduleNext runId caller now) s r s' → r.statusCode = 409 →
    ∃ item, FirstWaiting s runId item ∧ ∀ m, ¬ Able s item m
  served : ∀ item m, FirstWaiting s runId item → Able s item m →
    item.leaseId.all s.taskLeases.has = true → CallerOk caller →
    ∃ r s' moved, Returns (scheduleNext runId caller now) s r s' ∧ r.statusCode = 200 ∧
      r.workItem = some moved ∧ moved.1.workItemId = item.workItemId ∧ moved.1.status = .assigned

section Head

variable {s : Store} {runId : Option String} {caller : Caller} {now : DateTime}

/-- The first item is assigned if somebody can work on it. -/
theorem returns_assignment (hs : RowsOk (fun _ => True) s) {item : WorkItem} {m : ClientManifest}
    (hitem : FirstWaiting s runId item) (hable : Able s item m)
    (hlease : item.leaseId.all s.taskLeases.has = true) (hcaller : CallerOk caller) :
    ∃ r s' moved, Returns (scheduleWorkItem item.workItemId caller now) s r s' ∧
      r.statusCode = 200 ∧ r.workItem = some moved ∧ moved.1.workItemId = item.workItemId ∧
      moved.1.status = .assigned := by
  obtain ⟨row, hrow, hpayload⟩ := Option.map_eq_some_iff.mp hitem.stored
  have hok := hs.items row (Table.mem_of_find? hrow)
  subst hpayload
  have hload : Returns (loadWorkItem row.payload.workItemId) s ⟨row.payload, hok.valid⟩ s :=
    returns_loadWorkItem.mpr ⟨⟨row, hrow, Model.build_of_valid hok.valid⟩, rfl⟩
  obtain ⟨clients, hclients, hall⟩ := returns_eligibleClients_able hs row.payload
  cases clients with
  | nil => exact absurd rfl (hall.all m hable)
  | cons selected rest =>
    have hselected := hall.able selected (List.mem_cons_self ..)
    have hid := failedFields_eq_nil.mp hok.valid.2 _ (List.mem_cons_self ..)
    have hclient := failedFields_eq_nil.mp
      (hs.manifests _ (Table.mem_of_find? hselected.registered)).2.2 _ (List.mem_cons_self ..)
    obtain ⟨assignment, s', hassign, hcode, hmoved⟩ := @succeeds_transition _ _ now hs _ _ _ _
      (carriedOut_assignment hs hitem.toWaitingItem hselected hlease) hcaller _
      (assignSummary_ok (length_of_safeIdentifier hid) (length_of_safeIdentifier hclient))
    obtain ⟨r, hr, hanswer⟩ : ∃ r, Returns (assignSelected ⟨row.payload, hok.valid⟩ selected caller
        now) s r s' ∧ r.statusCode = assignment.statusCode ∧
          r.workItem = some assignment.workItem :=
      ⟨_, returns_bind.mpr ⟨assignment, s', hassign, returns_pure.mpr ⟨rfl, rfl⟩⟩, rfl, rfl⟩
    refine ⟨r, s', assignment.workItem, returns_bind.mpr ⟨_, s, hload, ?_⟩,
      hanswer.1.trans hcode, hanswer.2, ?_, ?_⟩
    · unfold scheduleFrom
      rw [if_pos hitem.waits]
      exact returns_bind.mpr ⟨_, s, hclients, hr⟩
    · rw [hmoved]
      rfl
    · rw [hmoved]
      rfl

/-- From every reachable store, `schedule_next` serves the head of the queue. -/
theorem head_of_line (hs : Reachable s) (runId : Option String) (caller : Caller)
    (now : DateTime) : ServesHead s runId caller now where
  empty r s' hret hcode := by
    rcases scheduleNext_spec hs.rowsOk hret with ⟨-, hnone⟩ | ⟨item, hdenied | ⟨m, hassigned⟩⟩
    · exact hnone
    · rw [hdenied.code] at hcode
      cases hcode
    · rw [hassigned.code] at hcode
      cases hcode
  stuck r s' hret hcode := by
    rcases scheduleNext_spec hs.rowsOk hret with ⟨rfl, -⟩ | ⟨item, hdenied | ⟨m, hassigned⟩⟩
    · cases hcode
    · exact ⟨item, hdenied.head, hdenied.nobody⟩
    · rw [hassigned.code] at hcode
      cases hcode
  served item m hitem hable hlease hcaller := by
    obtain ⟨items, hlist, hnone, hfirst⟩ := returns_waiting hs.rowsOk runId
    obtain ⟨r, s', moved, hret, hdone⟩ := @returns_assignment _ _ _ now hs.rowsOk _ _ hitem hable
      hlease hcaller
    refine ⟨r, s', moved, returns_bind.mpr ⟨items, s, hlist, ?_⟩, hdone⟩
    cases hwaiting : items.filter (fun item => schedulable item.1.status) with
    | nil => exact absurd hitem.toWaitingItem (hnone hwaiting item)
    | cons head rest =>
      have hhead : head.1 = item := (hfirst head rest hwaiting).unique hitem
      dsimp only
      rw [hhead]
      exact hret

end Head

/-- An item that asks for a capability that no client has. -/
def pickyItem : Checked WorkItem :=
  ⟨{ sampleItem with requestedCapability := some "review" }, rfl, by decide⟩

/-- A registered client is found under its id, with its own columns. -/
theorem registered_of_payload {s : Store} (hs : RowsOk (fun _ => True) s) {m : ClientManifest}
    (h : (s.clientManifests.find? m.clientId).map ManifestRow.payload = some m) :
    s.clientManifests.find? m.clientId = some (manifestRow m) := by
  obtain ⟨row, hrow, hpayload⟩ := Option.map_eq_some_iff.mp h
  rw [hrow, (hs.manifests row (Table.mem_of_find? hrow)).1, hpayload]

theorem sampleCaller_ok : CallerOk sampleCaller := ⟨by decide, by decide, by decide⟩

/-- The head of a queue of two is assigned. -/
theorem head_of_line_two : ∃ r s' moved,
    Returns (scheduleNext none sampleCaller epoch) (twoItemStore earlyItem utcItem) r s' ∧
      r.statusCode = 200 ∧ r.workItem = some moved ∧ moved.1.workItemId = "w1" ∧
      moved.1.status = .assigned := by
  refine (head_of_line (twoItemStore_reachable earlyItem utcItem) none sampleCaller epoch).served
    earlyItem.1 sampleManifest ⟨⟨by decide, rfl, fun _ h => by cases h⟩, fun other hother => ?_⟩
    ⟨registered_of_payload (twoItemStore_reachable earlyItem utcItem).rowsOk (by decide),
      by decide, rfl, fun _ h => by cases h⟩ rfl sampleCaller_ok
  have hrows : (twoItemStore earlyItem utcItem).workItems.rows.map WorkItemRow.payload =
      [earlyItem.1, utcItem.1] := by decide
  have hmem := hother.mem_payloads
  rw [hrows] at hmem
  rcases List.mem_cons.mp hmem with rfl | hmem
  · exact le_refl _
  · obtain rfl := List.mem_singleton.mp hmem
    exact by decide

/-- The first item waits for a capability that nobody has; the second one could be done, and is not
    assigned. -/
theorem blocked_by_head : Reachable (twoItemStore pickyItem utcItem) ∧
    ¬ WorkConserving (twoItemStore pickyItem utcItem) none sampleCaller epoch := by
  refine ⟨twoItemStore_reachable pickyItem utcItem, fun h => ?_⟩
  obtain ⟨r, s', hret, hcode⟩ := h.assigns ⟨utcItem.1, sampleManifest,
    ⟨by decide, rfl, fun _ h => by cases h⟩,
    ⟨registered_of_payload (twoItemStore_reachable pickyItem utcItem).rowsOk (by decide),
      by decide, rfl, fun _ h => by cases h⟩⟩
  have hanswer : (((scheduleNext none sampleCaller epoch).run (twoItemStore pickyItem utcItem)).1.map
      SchedulerDecisionResult.statusCode).toOption = some 409 := by decide
  rw [hret] at hanswer
  rw [show r.statusCode = 409 from Option.some.inj hanswer] at hcode
  cases hcode

end Vad
