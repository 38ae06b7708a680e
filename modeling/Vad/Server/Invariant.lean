/-
  What every reachable store satisfies: each row's columns repeat its payload, and each payload
  passes the checks of its model.

  Two kinds of rows are exceptions, and the invariant says how far.  A work item whose client or
  lease was deleted has lost the column that named it, not the payload's field.  A released lease
  carries the reason of the release request, which need not pass the lease's own check; the
  parameter `P` is what the release requests are known to send.
-/
import Vad.Server.Requests

namespace Vad

open Keyed (Table Minted RecordId)
open Atomic (Program Pool)
open Atomic.Program (Safe)

/-- The columns of a work-item row repeat its payload; a deleted client or lease has left `NULL`. -/
structure ItemRowOk (r : WorkItemRow) : Prop where
  valid : Model.Valid r.payload
  columns : r = { workItemRow r.payload with
    assignedClientId := r.assignedClientId, leaseId := r.leaseId }
  assigned : r.assignedClientId = none ∨ r.assignedClientId = r.payload.assignedClientId

theorem ItemRowOk.id {r : WorkItemRow} (h : ItemRowOk r) : r.payload.workItemId = r.workItemId := by
  rw [h.columns]; rfl

theorem ItemRowOk.status {r : WorkItemRow} (h : ItemRowOk r) : r.status = r.payload.status := by
  rw [h.columns]; rfl

theorem itemRowOk_workItemRow {item : WorkItem} (h : Model.Valid item) :
    ItemRowOk (workItemRow item) := ⟨h, rfl, Or.inr rfl⟩

/-- Columns and payloads agree, and payloads pass their checks. -/
structure RowsOk (P : Option String → Prop) (s : Store) : Prop where
  manifests : ∀ r ∈ s.clientManifests.rows, r = manifestRow r.payload ∧ Model.Valid r.payload
  leases : ∀ r ∈ s.taskLeases.rows, r = leaseRow r.payload ∧ GoodLease P r.payload
  items : ∀ r ∈ s.workItems.rows, ItemRowOk r
  states : ∀ r ∈ s.runTaskStates.rows, r = runTaskStateRow r.payload ∧ Model.Valid r.payload
  events : ∀ r ∈ s.controlPlaneEvents.rows, r = eventRow r.payload ∧ Model.Valid r.payload
  proposals : ∀ r ∈ s.diffProposals.rows,
    r.proposalId = r.payload.proposalId ∧ Model.Valid r.payload

theorem rowsOk_empty (P : Option String → Prop) (evidence : Table RunEvidenceRow.runId) :
    RowsOk P { Store.empty with runEvidence := evidence } := by
  constructor <;> exact fun r hr => absurd hr List.not_mem_nil

namespace RowsOk

variable {P : Option String → Prop} {s : Store}

theorem ledgerLists (h : RowsOk P s) : s.ledgerLists := fun r hr => (h.events r hr).2

theorem putItem (h : RowsOk P s) {item : WorkItem} (hitem : Model.Valid item) :
    RowsOk P (s.putItem item) :=
  { h with items := Table.forall_replace h.items (itemRowOk_workItemRow hitem) }

theorem putState (h : RowsOk P s) {st : RunTaskState} (hst : Model.Valid st) :
    RowsOk P (s.putState st) :=
  { h with states := Table.forall_upsert h.states ⟨rfl, hst⟩ }

theorem putItemAndState (h : RowsOk P s) {item : WorkItem} (hitem : Model.Valid item) :
    RowsOk P (s.putItemAndState item) :=
  (h.putItem hitem).putState (RunTaskState.ofItem_valid hitem)

theorem putLease (h : RowsOk P s) {l : TaskLease} (hl : GoodLease P l) : RowsOk P (s.putLease l) :=
  { h with leases := Table.forall_upsert h.leases ⟨rfl, hl⟩ }

theorem putEvent (h : RowsOk P s) {e : EventFields} (he : e.ok = true) : RowsOk P (s.putEvent e) :=
  { h with events := Minted.forall_append h.events ⟨rfl, (valid_generated_iff e _).mpr he⟩ }

/-- Deleting a client takes its rows away and clears columns. -/
theorem deleteManifest (h : RowsOk P s) (id : String) : RowsOk P (deleteManifest id s) :=
  { h with
    manifests := Table.forall_keep h.manifests
    leases := Table.forall_keep h.leases
    items := by
      intro x hx
      obtain ⟨r, hr, rfl⟩ := List.mem_map.mp hx
      have hok := h.items r hr
      refine ⟨hok.valid, ?_, ?_⟩
      · rw [hok.columns]; rfl
      · show (if r.assignedClientId = some id then none else r.assignedClientId) = none ∨ _
        split
        · exact Or.inl rfl
        · exact hok.assigned }

end RowsOk

/-! ## Every request keeps it -/

section Rule

variable {P : Option String → Prop}

/-- Steps that are only asked to keep an invariant. -/
abbrev Any (_ _ : Store) : Prop := True

/-- An invariant and a relation that the same calls keep, together. -/
theorem CallRule.along {I : Store → Prop} {R : Store → Store → Prop}
    (h : CallRule (fun {_} p => Safe I Any p))
    (h' : CallRule (fun {_} p => Safe (fun _ => True) R p)) :
    CallRule (fun {_} p => Safe I R p) where
  done _ := trivial
  bind hp hk := Program.safe_bind hp hk
  query f := (h.query f).along (h'.query f)
  registerClientManifest m := (h.registerClientManifest m).along (h'.registerClientManifest m)
  recordClientHeartbeat b := (h.recordClientHeartbeat b).along (h'.recordClientHeartbeat b)
  appendEvent fields hf := (h.appendEvent fields hf).along (h'.appendEvent fields hf)
  createWorkItem item caller summary now :=
    (h.createWorkItem item caller summary now).along (h'.createWorkItem item caller summary now)
  transition id target caller change summary now :=
    (h.transition id target caller change summary now).along
      (h'.transition id target caller change summary now)
  saveDiffProposal p hid hp := (h.saveDiffProposal p hid hp).along (h'.saveDiffProposal p hid hp)
  saveApprovalEvent e hid := (h.saveApprovalEvent e hid).along (h'.saveApprovalEvent e hid)

theorem safe_query {α : Type} {I : Store → Prop} {R : Store → Store → Prop} (hR : ∀ s, R s s)
    (f : Store → Except PyError α) : Safe I R (query f) :=
  Program.safe_atomic fun s hs => ⟨hR s, hs⟩

/-- A method all of whose statements keep the invariant keeps it. -/
theorem safe_storeCall {α : Type} {I : Store → Prop} {p : Db α} (h : Safe I Any p) :
    Safe I Any (storeCall p) := Program.safe_atomic fun _ hs => ⟨trivial, h.run_keeps hs⟩

theorem safe_execute {I : Store → Prop} {f : Store → Except PyError Store}
    (h : ∀ s s', I s → f s = .ok s' → I s') : Safe I Any (execute f) := by
  refine Program.safe_atomic fun s hs => ⟨trivial, ?_⟩
  cases hf : f s with
  | ok s' => simpa using h s s' hs hf
  | error e => simpa using hs

theorem safe_selectClientManifest {I : Store → Prop} (id : String) :
    Safe I Any (selectClientManifest id) := safe_query (fun _ => trivial) _

theorem safe_upsertTaskLease {l : TaskLease} (hl : GoodLease P l) :
    Safe (RowsOk P) Any (upsertTaskLease l) :=
  Program.safe_bind (safe_selectClientManifest _) fun _ =>
    Program.safe_bind (safe_execute fun s s' hs h => by cases h; exact hs.putLease hl) fun _ =>
      trivial

theorem safe_appendEvent (fields : Nat → EventFields) : Safe (RowsOk P) Any (appendEvent fields) := by
  refine Program.safe_bind (safe_query (fun _ => trivial) _) fun events => ?_
  show Safe _ _ (if h : (fields (events.length + 1)).ok = true then _ else _)
  split
  · rename_i hok
    exact Program.safe_atomic fun s hs => ⟨trivial, hs.putEvent hok⟩
  · trivial

theorem safe_upsertStateRow (st : Checked RunTaskState) : Safe (RowsOk P) Any (upsertStateRow st) :=
  safe_execute fun s s' hs h => by cases h; exact hs.putState st.2

theorem safe_storeWorkItem (item : Checked WorkItem) : Safe (RowsOk P) Any (storeWorkItem item) := by
  refine safe_storeCall (Program.safe_bind (safe_query (fun _ => trivial) _) fun _ =>
    Program.safe_bind (safe_execute fun s s' hs h => ?_) fun _ =>
      Program.safe_bind (safe_upsertStateRow _) fun _ => trivial)
  split at h
  · cases h
    exact hs.putItem item.2
  · cases h

theorem safe_recordTransition (saved : Checked WorkItem) (caller : Caller)
    (summary : Option String) (decision : PolicyDecision) (now : DateTime) :
    Safe (RowsOk P) Any (recordTransition saved caller summary decision now) :=
  Program.safe_bind (safe_storeCall (safe_upsertStateRow _)) fun _ =>
    Program.safe_bind (safe_appendEvent _) fun _ => trivial

theorem safe_transition (id : String) (target : WorkItemStatus) (caller : Caller)
    (change : WorkItemChange) (summary : Option String) (now : DateTime) :
    Safe (RowsOk P) Any (transition id target caller change summary now) := by
  refine Program.safe_bind (safe_query (fun _ => trivial) _) fun current => ?_
  unfold transitionFrom
  split
  · refine Program.safe_bind trivial fun updated => ?_
    exact Program.safe_bind (safe_storeWorkItem _) fun saved =>
      safe_recordTransition saved caller summary _ now
  · exact Program.safe_bind (safe_appendEvent _) fun _ => trivial

theorem safe_createWorkItem (item : Checked WorkItem) (caller : Caller) (summary : Option String)
    (now : DateTime) : Safe (RowsOk P) Any (createWorkItem item caller summary now) := by
  refine Program.safe_bind (safe_storeCall ?_) fun saved =>
    Program.safe_bind (safe_storeCall (safe_upsertStateRow _)) fun _ =>
      Program.safe_bind (safe_appendEvent _) fun _ => trivial
  refine Program.safe_bind (safe_execute fun s s' hs h => ?_) fun _ =>
    Program.safe_bind (safe_upsertStateRow _) fun _ => trivial
  split at h
  · split at h
    · rename_i t ht
      cases h
      exact { hs with items := Table.forall_insert ht hs.items (itemRowOk_workItemRow item.2) }
    · cases h
  · cases h

/-- Expiring the leases of a client saves leases that pass all checks. -/
theorem safe_expireLeasesOf (hP : WeakerThanValid P) (clientId : String) :
    Safe (RowsOk P) Any (expireLeasesOf clientId) :=
  Program.safe_bind (safe_query (fun _ => trivial) _) fun _ =>
    Program.safe_forEach fun l _ => safe_upsertTaskLease
      (goodLease_of_valid hP (TaskLease.expiredWith_valid l.2 (by decide)))

theorem safe_markClientStale (hP : WeakerThanValid P) (clientId : String) :
    Safe (RowsOk P) Any (markClientStale clientId) := by
  refine safe_storeCall (Program.safe_bind (safe_selectClientManifest _) fun _ =>
    Program.safe_bind (safe_expireLeasesOf hP clientId) fun _ =>
      Program.safe_bind (safe_query (fun _ => trivial) _) fun _ =>
        Program.safe_bind (safe_execute fun s s' hs h => ?_) fun _ => trivial)
  cases h
  exact { hs with }

/-- The rule of the invariant: `RowsOk` survives every store call of every request, whatever other
    requests do in between. -/
theorem rowsOk_rule (hP : WeakerThanValid P) :
    RequestRule P (fun {_} p => Safe (RowsOk P) Any p) where
  done _ := trivial
  bind hp hk := Program.safe_bind hp hk
  query f := safe_query (fun _ => trivial) f
  registerClientManifest m := by
    refine safe_storeCall (Program.safe_bind (safe_execute fun s s' hs h => ?_) fun _ => trivial)
    split at h
    · rename_i t ht
      cases h
      exact { hs with manifests := Table.forall_insert ht hs.manifests ⟨rfl, m.2⟩ }
    · cases h
  unregisterClientManifest id := by
    refine safe_storeCall (Program.safe_bind (safe_selectClientManifest _) fun _ =>
      Program.safe_bind (safe_execute fun s s' hs h => ?_) fun _ => trivial)
    cases h
    exact hs.deleteManifest id
  recordClientHeartbeat b := by
    refine safe_storeCall (Program.safe_bind (safe_selectClientManifest _) fun _ =>
      Program.safe_bind (safe_execute fun s s' hs h => ?_) fun _ => trivial)
    cases h
    exact { hs with }
  markClientStale id := safe_markClientStale hP id
  saveTaskLease l hl := safe_storeCall (safe_upsertTaskLease hl)
  appendEvent fields _ := safe_appendEvent fields
  createWorkItem := safe_createWorkItem
  transition := safe_transition
  saveDiffProposal p hid hp := Program.safe_atomic fun s hs => ⟨trivial,
    { hs with proposals := Minted.forall_append hs.proposals ⟨rfl, hp _⟩ }⟩
  saveApprovalEvent e hid := Program.safe_atomic fun s hs => ⟨trivial, { hs with }⟩

theorem safe_ingest (e : EventFields) (eventId : Option RecordId) (now : DateTime) :
    Safe (RowsOk P) Any (ingest e eventId now) := by
  have hnumbered : ∀ f : EventFields, Safe (RowsOk P) Any (appendNumbered f) := by
    intro f
    unfold appendNumbered
    split
    · rename_i hok
      split
      · exact Program.safe_atomic fun s hs => ⟨trivial, hs.putEvent hok⟩
      · trivial
    · trivial
  unfold ingest
  simp only
  split
  · refine Program.safe_bind ?_ fun _ => trivial
    cases eventId with
    | none => exact hnumbered e
    | some id =>
      refine Program.safe_bind trivial fun event => safe_storeCall (Program.safe_bind
        (safe_execute fun s s' hs h => ?_) fun _ => trivial)
      split at h
      · split at h
        · rename_i t ht
          cases h
          exact { hs with events := Minted.forall_insert ht hs.events ⟨rfl, event.2⟩ }
        · cases h
      · cases h
  · exact Program.safe_bind (hnumbered _) fun _ => trivial

/-- Every request keeps the invariant among others; a release does so when its reason meets `P`. -/
theorem safe_request (hP : WeakerThanValid P) {r : Request}
    (hrelease : ∀ id q, r = .release id q → P q.1.reason) (o : Outside) (now : DateTime) :
    Safe (RowsOk P) Any (r.perform o now) :=
  (rowsOk_rule hP).request hP (fun e id now _ => safe_ingest e id now) hrelease o now

end Rule

/-- Reachable stores satisfy the invariant. -/
theorem Reachable.rowsOk {s : Store} (h : Reachable s) : RowsOk (fun _ => True) s := by
  obtain ⟨o, evidence, requests, schedule, rfl⟩ := h
  refine Pool.exec_safe (R := Any) schedule _ (rowsOk_empty _ evidence) fun p hp => ?_
  obtain ⟨r, -, rfl⟩ := List.mem_map.mp hp
  exact safe_request (fun _ _ => trivial) (fun _ _ _ => trivial) o r.2

end Vad
