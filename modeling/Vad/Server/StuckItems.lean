/-
  Which allowed transitions can be made.

  A transition writes the item as its payload has it, so it also writes the client and the lease
  that the payload names.  Unregistering a client takes its row and its leases away, and clears the
  columns that referred to them, but not the payload; from then on every transition of the item
  that keeps its owner breaks a foreign key.  `allowedTransition_succeeds_iff` is the exact
  condition: an allowed transition with valid arguments succeeds if and only if it requeues the
  item, or the client and the lease of the payload are still there.
-/
import Vad.Server.ReadBack

namespace Vad

open Keyed (Table)
open Atomic (Program)
open Atomic.Program (Returns returns_bind returns_pure)

/-- Arguments of `transition` that pass: the author's identifiers are safe, a summary is short, and
    a digest or a reason is well formed; no new owner and no new lease is named. -/
structure PlainCall (caller : Caller) (change : WorkItemChange) (summary : Option String) :
    Prop where
  clientId : safeIdentifier 1 160 caller.clientId = true
  actor : safeIdentifier 1 160 caller.actor = true
  role : safeIdentifier 1 80 caller.role = true
  owner : change.assignedClientId = none
  lease : change.leaseId = none
  digest : optionally isDigest change.evidenceDigest = true
  reason : optionally (safeText 0 500) change.blockedReason = true
  summary : optionally (lengthWithin 0 500) summary = true

section Plain

variable {caller : Caller} {change : WorkItemChange} {summary : Option String}

theorem optionally_orElse {check : String → Bool} {a b : Option String}
    (ha : optionally check a = true) (hb : optionally check b = true) :
    optionally check (a <|> b) = true := by
  cases a with
  | none => exact hb
  | some x => exact ha

/-- Plain arguments make a valid item of a valid one. -/
theorem updatedData_valid {item : WorkItem} (h : Model.Valid item)
    (hcall : PlainCall caller change summary) (target : WorkItemStatus) (now : DateTime) :
    Model.Valid (updatedData item { change with status := some target } now) := by
  refine ⟨rfl, failedFields_eq_nil.mpr ?_⟩
  have h := failedFields_eq_nil.mp h.2
  simp only [Model.checks, List.forall_mem_cons] at h ⊢
  obtain ⟨hid, hrun, htitle, htext, hrole, hcap, hprio, howner, hlease, hdigest, hreason, hgov,
    hnil⟩ := h
  refine ⟨hid, hrun, htitle, htext, hrole, hcap, hprio, ?_, ?_,
    optionally_orElse hcall.digest hdigest, optionally_orElse hcall.reason hreason, hgov, hnil⟩
  · simp only [updatedData, hcall.owner]
    exact howner
  · simp only [updatedData, hcall.lease]
    exact hlease

/-- The item that a plain transition saves: owner and lease are cleared by `requeued`, and the
    payload's own otherwise. -/
theorem transitionedItem_plain {current : Checked WorkItem}
    (hcall : PlainCall caller change summary) (target : WorkItemStatus) (now : DateTime) :
    ∃ item, transitionedItem current target change now = .ok item ∧
      item.1.assignedClientId = (if target = .requeued then none else current.1.assignedClientId) ∧
      item.1.leaseId = if target = .requeued then none else current.1.leaseId := by
  have hbuild := Model.build_of_valid (updatedData_valid current.2 hcall target now)
  unfold transitionedItem updateWorkItem
  rw [hbuild]
  by_cases htarget : target = .requeued
  · simp only [if_pos htarget]
    exact ⟨_, rfl, rfl, rfl⟩
  · simp only [if_neg htarget]
    exact ⟨_, rfl, by simp [updatedData, hcall.owner], by simp [updatedData, hcall.lease]⟩

/-- The references of the item that a plain transition saves. -/
theorem referencesHold_plain {s : Store} {current item : WorkItem} {target : WorkItemStatus}
    (howner : item.assignedClientId = if target = .requeued then none else current.assignedClientId)
    (hlease : item.leaseId = if target = .requeued then none else current.leaseId) :
    referencesHold s item = true ↔ target = .requeued ∨ referencesHold s current = true := by
  unfold referencesHold
  rw [howner, hlease]
  by_cases htarget : target = .requeued
  · simp [htarget]
  · simp [htarget]

/-! ## The event of a transition -/

theorem statusValue_length (status : WorkItemStatus) : status.value.length ≤ 17 := by
  cases status <;> decide

/-- The summary that `transition` makes of an id of at most 160 characters is not too long. -/
theorem transitionSummary_ok {item : WorkItem} (hid : item.workItemId.length ≤ 160)
    (h : optionally (lengthWithin 0 500) summary = true) :
    lengthWithin 1 500 (transitionSummary item summary) = true := by
  have hdefault : lengthWithin 1 500 ("Work item " ++ item.workItemId ++ " transitioned to " ++
      item.status.value ++ ".") = true := by
    have hstatus := statusValue_length item.status
    have hword : "Work item ".length = 10 ∧ " transitioned to ".length = 17 ∧ ".".length = 1 := by
      decide
    simp only [lengthWithin, String.length_append, hword, Bool.and_eq_true, decide_eq_true_eq]
    omega
  unfold transitionSummary orDefault
  cases summary with
  | none => exact hdefault
  | some text =>
    by_cases hempty : text = ""
    · simpa only [if_pos hempty] using hdefault
    · simp only [if_neg hempty]
      simp only [optionally, Option.all_some, lengthWithin, Bool.and_eq_true, decide_eq_true_eq] at h ⊢
      refine ⟨Nat.one_le_iff_ne_zero.mpr fun hzero => hempty ?_, h.2⟩
      exact String.length_eq_zero_iff.mp hzero

/-- The event of a plain transition passes its checks. -/
theorem workItemEvent_ok {item : WorkItem} (h : Model.Valid item)
    (hcall : PlainCall caller change summary) (now : DateTime) (n : Nat) :
    (workItemEvent item caller (transitionSummary item summary) now n).ok = true := by
  have h := failedFields_eq_nil.mp h.2
  simp only [Model.checks, List.forall_mem_cons] at h
  obtain ⟨hid, hrun, -, -, -, -, -, -, -, hdigest, -⟩ := h
  have hlength : item.workItemId.length ≤ 160 := by
    simp only [safeIdentifier, lengthWithin, Bool.and_eq_true, decide_eq_true_eq] at hid
    exact hid.1.2
  unfold EventFields.ok
  rw [decide_eq_true_eq, failedFields_eq_nil]
  simp only [EventFields.checks, List.forall_mem_cons]
  exact ⟨hcall.clientId, rfl, safeIdentifier_loosen hrun, safeIdentifier_loosen hid, hcall.actor, hcall.role, hdigest,
    transitionSummary_ok hlength hcall.summary, fun _ hx => absurd hx List.not_mem_nil⟩

end Plain

/-! ## The condition -/

/-- A call that answers 200. -/
def Succeeds (p : Db WorkItemTransitionResult) (s : Store) : Prop :=
  ∃ r s', Returns p s r s' ∧ r.statusCode = 200

/-- Recording a transition succeeds when the ledger lists and the event passes. -/
theorem succeeds_recordTransition {s : Store} {saved : Checked WorkItem} {caller : Caller}
    {summary : Option String} (decision : PolicyDecision) {now : DateTime} (hlists : s.ledgerLists)
    (hevent : (workItemEvent saved.1 caller (transitionSummary saved.1 summary) now
      (s.eventCount + 1)).ok = true) :
    Succeeds (recordTransition saved caller summary decision now) s := by
  have hmirror : Returns (upsertRunTaskState (RunTaskState.fromWorkItem saved)) s ()
      (s.putState (RunTaskState.ofItem saved.1)) := returns_upsertRunTaskState.mpr rfl
  have happend := (returns_appendEvent (s := s.putState (RunTaskState.ofItem saved.1))).mpr
    ⟨hlists, hevent, (rfl : (⟨⟨_, .generated s.controlPlaneEvents.drawn⟩,
      (valid_generated_iff _ _).mpr hevent⟩ : Checked ControlPlaneEvent).1 = _), rfl⟩
  exact ⟨_, _, returns_bind.mpr ⟨(), _, hmirror,
    returns_bind.mpr ⟨_, _, happend, returns_pure.mpr ⟨rfl, rfl⟩⟩⟩, rfl⟩

/-- From every reachable store, an allowed transition of a stored item with valid arguments answers
    200 exactly when it requeues the item, or the client and the lease that the item names are
    stored. -/
theorem allowedTransition_succeeds_iff {s : Store} (hs : Reachable s) {id : String}
    {item : WorkItem} (hitem : s.itemAt id = some item) {target : WorkItemStatus}
    (hedge : target ∈ allowedWorkItemTransitions item.status) {caller : Caller}
    {change : WorkItemChange} {summary : Option String} (hcall : PlainCall caller change summary)
    (now : DateTime) :
    Succeeds (transition id target caller change summary now) s ↔
      target = .requeued ∨ referencesHold s item = true := by
  have hrows := hs.rowsOk
  obtain ⟨row, hrow, rfl⟩ := Option.map_eq_some_iff.mp hitem
  have hok := hrows.items row (Table.mem_of_find? hrow)
  have hid : row.payload.workItemId = id := hok.id.trans (Table.key_of_find? hrow)
  have hload : Returns (loadWorkItem id) s ⟨row.payload, hok.valid⟩ s :=
    returns_loadWorkItem.mpr ⟨⟨row, hrow, Model.build_of_valid hok.valid⟩, rfl⟩
  obtain ⟨moved, hmoved, howner, hlease⟩ :=
    @transitionedItem_plain _ _ _ ⟨row.payload, hok.valid⟩ hcall target now
  have hspec := transitionedItem_spec hmoved
  rw [← referencesHold_plain howner hlease]
  constructor
  · rintro ⟨r, s', hret, hcode⟩
    obtain ⟨current, hcurrent, hdenied | hdone⟩ := transition_cases hret
    · rw [hdenied.code] at hcode
      cases hcode
    · obtain ⟨current', s₁, hfirst, htail⟩ := returns_bind.mp hret
      obtain ⟨rfl, rfl⟩ := hload.unique hfirst
      unfold transitionFrom at htail
      rw [if_pos (transitionDecision_allow.mpr hedge)] at htail
      obtain ⟨updated, s₂, hbuild, hrest⟩ := returns_bind.mp htail
      obtain ⟨hupdated, rfl⟩ := returns_done.mp hbuild
      cases hmoved.symm.trans hupdated
      obtain ⟨saved, s₃, hstore, -⟩ := returns_bind.mp hrest
      exact (returns_storeWorkItem.mp hstore).2.1
  · intro hreferences
    have hstore : Returns (storeWorkItem moved) s moved (s.putItemAndState moved.1) :=
      returns_storeWorkItem.mpr ⟨⟨row, _, by rw [hspec.2.1, hid]; exact hrow,
        Model.build_of_valid hok.valid⟩, hreferences, rfl, rfl⟩
    obtain ⟨r, s', hrecord, hcode⟩ := succeeds_recordTransition
      (s := s.putItemAndState moved.1) (transitionDecision row.payload.status target)
      (hrows.putItemAndState moved.2).ledgerLists (workItemEvent_ok moved.2 hcall now _)
    refine ⟨r, s', returns_bind.mpr ⟨_, s, hload, ?_⟩, hcode⟩
    unfold transitionFrom
    rw [if_pos (transitionDecision_allow.mpr hedge)]
    exact returns_bind.mpr ⟨moved, s, returns_done.mpr ⟨hmoved, rfl⟩,
      returns_bind.mpr ⟨moved, _, hstore, hrecord⟩⟩

/-! ## An item whose client is gone -/

/-- Register a client, give it a work item, and unregister the client. -/
def orphaning : List (Request × DateTime) := [
  (.register ⟨sampleManifest, sampleManifest_valid⟩, epoch),
  (.createWorkItem ⟨sampleItem, sampleItem_valid⟩ sampleCaller none, epoch),
  (.transition (.assign "w1" sampleCaller "c1" none none), epoch),
  (.unregister "c1", epoch)]

/-- The store that these requests leave when each runs to its end. -/
def orphanStore : Store :=
  ((poolOf sampleOutside Store.empty orphaning).exec
    ((List.range 4).flatMap (List.replicate 6))).state

theorem orphanStore_reachable : Reachable orphanStore :=
  ⟨sampleOutside, Table.empty, orphaning, _, rfl⟩

/-- The item that the requests leave: assigned to a client that is no more. -/
def orphanItem : WorkItem := { sampleItem with status := .assigned, assignedClientId := some "c1" }

theorem orphanItem_stored : orphanStore.itemAt "w1" = some orphanItem := by decide

theorem sampleCall_plain : PlainCall sampleCaller {} none :=
  ⟨rfl, rfl, rfl, rfl, rfl, rfl, rfl, rfl⟩

/-- The item cannot be started, although `assigned → running` is allowed. -/
theorem orphan_cannot_start :
    ∃ s id item target, Reachable s ∧ s.itemAt id = some item ∧
      target ∈ allowedWorkItemTransitions item.status ∧ PlainCall sampleCaller {} none ∧
      ¬ Succeeds (transition id target sampleCaller {} none epoch) s := by
  refine ⟨orphanStore, "w1", orphanItem, .running, orphanStore_reachable, orphanItem_stored,
    by decide, sampleCall_plain, ?_⟩
  rintro ⟨r, s', hret, -⟩
  have hraises : ((transition "w1" .running sampleCaller {} none epoch).run orphanStore).1.isOk =
      false := by decide +kernel
  rw [hret] at hraises
  cases hraises

/-- It can be requeued. -/
theorem orphan_can_requeue :
    Succeeds (transition "w1" .requeued sampleCaller {} none epoch) orphanStore :=
  (allowedTransition_succeeds_iff orphanStore_reachable orphanItem_stored (by decide)
    sampleCall_plain epoch).mpr (Or.inl rfl)

end Vad
