/-
  The foreign keys of the tables, over any run of the control plane.

  Deleting a client takes away its heartbeat and its leases, and clears the columns of the work
  items that named the client or one of these leases; two tables and a column hang on a row of a
  third.  A request reads a client in one call and writes what refers to it in another, and in
  between the client may be gone.

  1. **Off the tables** (`LedgerOnly`) — what a request does to the ledger alone.
  2. **The invariant** (`References`) — every reference in a row is to a row.  The writers of leases
     and heartbeats look the client up in the call that writes, the writers of work items check both
     columns in it, and a deletion clears what it would leave dangling (`References.deleteManifest`).
  3. **Any run** (`references_hold`) — whatever requests run at once, and however far each gets.
-/
import Vad.Server.ReadBack

namespace Vad

open Keyed (Table RecordId)
open Atomic (Program Pool)
open Atomic.Program (Safe Preserves preserves_bind preserves_done preserves_forEach)

/-! ## Requests that touch the ledger alone -/

/-- A relation that is kept by whatever leaves all tables but the ledger alone. -/
structure LedgerOnly (R : Store → Store → Prop) : Prop where
  refl : ∀ s, R s s
  ledger : ∀ s events written, R s { s with
    controlPlaneEvents := events
    written := written }

namespace LedgerOnly

variable {R : Store → Store → Prop}

theorem query {α : Type} (h : LedgerOnly R) (f : Store → Except PyError α) :
    Safe (fun _ => True) R (query f) := safe_query h.refl f

theorem appendGenerated (h : LedgerOnly R) (e : EventFields) (hok : e.ok = true) :
    Safe (fun _ => True) R (appendGeneratedEvent e hok) :=
  Program.safe_atomic fun s _ => ⟨h.ledger s _ _, trivial⟩

theorem appendEvent (h : LedgerOnly R) (fields : Nat → EventFields) :
    Safe (fun _ => True) R (appendEvent fields) := by
  refine Program.safe_bind (h.query _) fun events => ?_
  show Safe _ _ (if h : (fields (events.length + 1)).ok = true then _ else _)
  split
  · rename_i hok
    exact h.appendGenerated _ hok
  · trivial

theorem appendNumbered (h : LedgerOnly R) (e : EventFields) :
    Safe (fun _ => True) R (appendNumbered e) := by
  unfold Vad.appendNumbered
  split
  · rename_i hok
    split
    · exact h.appendGenerated e hok
    · trivial
  · trivial

theorem appendControlPlaneEvent (h : LedgerOnly R) (e : Checked ControlPlaneEvent) :
    Safe (fun _ => True) R (appendControlPlaneEvent e) := by
  refine Program.safe_atomic fun s _ => ⟨?_, trivial⟩
  rw [Program.run_bind, run_execute]
  by_cases hnumber : e.1.sequence < 2 ^ 63
  · rw [if_pos hnumber]
    cases s.controlPlaneEvents.insert (eventRow e.1) with
    | none => exact h.refl s
    | some t => exact h.ledger s _ _
  · rw [if_neg hnumber]
    exact h.refl s

theorem ingest (h : LedgerOnly R) (e : EventFields) (eventId : Option RecordId) (now : DateTime) :
    Safe (fun _ => True) R (ingest e eventId now) := by
  unfold Vad.ingest
  simp only
  split
  · refine Program.safe_bind ?_ fun _ => Program.safe_pure _
    cases eventId with
    | none => exact h.appendNumbered e
    | some id => exact Program.safe_bind trivial fun event => h.appendControlPlaneEvent event
  · exact Program.safe_bind (h.appendNumbered _) fun _ => Program.safe_pure _

end LedgerOnly

/-! ## The invariant -/

/-- Every foreign key of a row names a row. -/
structure References (s : Store) : Prop where
  heartbeats : ∀ r ∈ s.clientHeartbeats.rows, s.clientManifests.has r.clientId = true
  leases : ∀ r ∈ s.taskLeases.rows, s.clientManifests.has r.clientId = true
  assigned : ∀ r ∈ s.workItems.rows, r.assignedClientId.all s.clientManifests.has = true
  leased : ∀ r ∈ s.workItems.rows, r.leaseId.all s.taskLeases.has = true

theorem all_mono {α : Type} {o : Option α} {p q : α → Bool} (hpq : ∀ a, p a = true → q a = true)
    (h : o.all p = true) : o.all q = true := by
  cases o with
  | none => rfl
  | some a => exact hpq a h

section Tables

variable {κ ρ : Type} [DecidableEq κ] {key : ρ → κ} {t : Table key}

theorem has_of_insert {u : Table key} {r : ρ} (h : t.insert r = some u) {k : κ}
    (hk : t.has k = true) : u.has k = true := by
  obtain ⟨x, hx⟩ := Table.has_iff.mp hk
  exact Table.has_iff.mpr ⟨x, Table.find?_of_insert h hx⟩

theorem has_of_upsert (r : ρ) {k : κ} (hk : t.has k = true) : (t.upsert r).has k = true := by
  obtain ⟨x, hx⟩ := Table.has_iff.mp hk
  rw [Table.has_iff]
  simp only [Table.find?_upsert]
  split
  · exact ⟨r, rfl⟩
  · exact ⟨x, hx⟩

/-- The rows that a deletion spares are found. -/
theorem has_of_keep {p : ρ → Bool} {k : κ} {x : ρ} (hx : t.find? k = some x) (hp : p x = true) :
    (t.keep p).has k = true := by
  rw [Table.has_iff]
  simp only [Table.find?_keep, hx]
  exact ⟨x, by simp [hp]⟩

end Tables

namespace References

variable {s : Store}

theorem deleteManifest (h : References s) (clientId : String) :
    References (deleteManifest clientId s) := by
  -- a client that is still there after the deletion
  have hspared : ∀ c, c ≠ clientId → s.clientManifests.has c = true →
      (Vad.deleteManifest clientId s).clientManifests.has c = true := by
    intro c hne hc
    obtain ⟨m, hm⟩ := Table.has_iff.mp hc
    have hkey : m.clientId = c := Table.key_of_find? hm
    exact has_of_keep hm (by simp [hkey, hne])
  refine ⟨fun r hr => ?_, fun r hr => ?_, fun r hr => ?_, fun r hr => ?_⟩
  · obtain ⟨hr, hne⟩ := Table.mem_rows_keep.mp hr
    exact hspared _ (by simpa using hne) (h.heartbeats r hr)
  · obtain ⟨hr, hne⟩ := Table.mem_rows_keep.mp hr
    exact hspared _ (by simpa using hne) (h.leases r hr)
  · obtain ⟨x, hx, rfl⟩ := List.mem_map.mp hr
    have hassigned := h.assigned x hx
    show (if x.assignedClientId = some clientId then none else x.assignedClientId).all _ = true
    cases hc : x.assignedClientId with
    | none => rfl
    | some c =>
      rw [hc] at hassigned
      by_cases hsame : c = clientId
      · rw [if_pos (by rw [hsame])]
        rfl
      · rw [if_neg (by simpa using hsame)]
        exact hspared c hsame hassigned
  · -- a lease that the row still names belongs to another client, and so it was spared
    obtain ⟨x, hx, rfl⟩ := List.mem_map.mp hr
    have hleased := h.leased x hx
    show (x.leaseId.filter fun l => !(s.taskLeases.find? l).any _).all _ = true
    cases hl : x.leaseId with
    | none => rfl
    | some l =>
      rw [hl] at hleased
      obtain ⟨row, hrow⟩ := Table.has_iff.mp hleased
      by_cases hsame : row.clientId = clientId
      · simp [hrow, hsame]
      · have hkept : (Vad.deleteManifest clientId s).taskLeases.has l = true :=
          has_of_keep hrow (by simpa using hsame)
        simpa [hrow, hsame] using hkept

theorem putLease (h : References s) {l : TaskLease} (hl : s.clientManifests.has l.clientId = true) :
    References (s.putLease l) :=
  { h with
    leases := Table.forall_upsert h.leases hl
    leased := fun r hr => all_mono (fun _ => has_of_upsert _) (h.leased r hr) }

/-- The row of an item whose references were checked. -/
theorem workItemRow {item : WorkItem} (hrefs : referencesHold s item = true) :
    (workItemRow item).assignedClientId.all s.clientManifests.has = true ∧
      (workItemRow item).leaseId.all s.taskLeases.has = true := by
  rw [referencesHold, Bool.and_eq_true] at hrefs
  exact hrefs

theorem putItem (h : References s) {item : WorkItem} (hrefs : referencesHold s item = true) :
    References (s.putItem item) :=
  { h with
    assigned := Table.forall_replace h.assigned (References.workItemRow hrefs).1
    leased := Table.forall_replace h.leased (References.workItemRow hrefs).2 }

end References

/-! ## Every call keeps it -/

/-- What keeps the four tables keeps the references. -/
structure SameKeyTables (s s' : Store) : Prop where
  clients : s'.clientManifests = s.clientManifests
  heartbeats : s'.clientHeartbeats = s.clientHeartbeats
  leases : s'.taskLeases = s.taskLeases
  items : s'.workItems = s.workItems

theorem SameKeyTables.references {s s' : Store} (h : SameKeyTables s s') (hs : References s) :
    References s' where
  heartbeats := by rw [h.clients, h.heartbeats]; exact hs.heartbeats
  leases := by rw [h.clients, h.leases]; exact hs.leases
  assigned := by rw [h.clients, h.items]; exact hs.assigned
  leased := by rw [h.leases, h.items]; exact hs.leased

theorem sameKeyTables_ledgerOnly : LedgerOnly SameKeyTables where
  refl _ := ⟨rfl, rfl, rfl, rfl⟩
  ledger _ _ _ := ⟨rfl, rfl, rfl, rfl⟩

/-- `p` keeps the references, whatever others do between its calls. -/
abbrev KeepsReferences {α : Type} (p : Db α) : Prop := Safe References Any p

theorem keepsReferences_of_same {α : Type} {p : Db α} (h : Safe (fun _ => True) SameKeyTables p) :
    KeepsReferences p := by
  induction p with
  | done r => trivial
  | call next cont ih =>
    intro s hs
    obtain ⟨hsame, -, hrest⟩ := h s trivial
    exact ⟨trivial, hsame.references hs, ih s hrest⟩

theorem keepsReferences_query {α : Type} (f : Store → Except PyError α) :
    KeepsReferences (query f) := safe_query (fun _ => trivial) f

theorem keepsReferences_storeCall {α : Type} {p : Db α} (h : Preserves References p) :
    KeepsReferences (storeCall p) := Program.safe_atomic fun s hs => ⟨trivial, h s hs⟩

theorem preserves_query {α : Type} {I : Store → Prop} (f : Store → Except PyError α) :
    Preserves I (query f) := fun _ hs => hs

theorem preserves_execute {I : Store → Prop} {f : Store → Except PyError Store}
    (h : ∀ s s', I s → f s = .ok s' → I s') : Preserves I (execute f) :=
  fun _ hs => (safe_execute h).run_keeps hs

theorem preserves_upsertStateRow (st : Checked RunTaskState) :
    Preserves References (upsertStateRow st) := by
  refine preserves_execute fun s s' hs h => ?_
  cases h
  exact { hs with }

/-- After a client has been looked up, the rest of the call knows that it is there. -/
theorem preserves_lookup {α : Type} {I : Store → Prop} {clientId : String}
    {k : Checked ClientManifest → Db α}
    (hk : ∀ m, Preserves (fun s => I s ∧ s.clientManifests.has clientId = true) (k m)) :
    Preserves I (selectClientManifest clientId >>= k) := by
  intro s hs
  have hquery : Program.run (selectClientManifest clientId) s =
      (fetched clientId ManifestRow.payload (s.clientManifests.find? clientId), s) := rfl
  rw [Program.run_bind, hquery]
  cases hfetched : fetched clientId ManifestRow.payload (s.clientManifests.find? clientId) with
  | error e => exact hs
  | ok m =>
    obtain ⟨r, hr, -⟩ := fetched_eq_ok.mp hfetched
    exact (hk m s ⟨hs, Table.has_iff.mpr ⟨r, hr⟩⟩).1

/-- A lease is written for a client that is there; other clients stay there, too. -/
theorem references_upsertTaskLease (l : TaskLease) (clientId : String) :
    Preserves (fun s => References s ∧ s.clientManifests.has clientId = true)
      (upsertTaskLease l) := by
  refine preserves_lookup fun m => ?_
  refine preserves_bind (preserves_execute fun s s' hs h => ?_) fun _ => preserves_done _
  cases h
  exact ⟨⟨hs.1.1.putLease hs.2, hs.1.2⟩, hs.2⟩

theorem keepsReferences_saveTaskLease (l : TaskLease) : KeepsReferences (saveTaskLease l) := by
  refine keepsReferences_storeCall (preserves_lookup fun m => ?_)
  refine preserves_bind (preserves_execute fun s s' hs h => ?_) fun _ => preserves_done _
  cases h
  exact ⟨hs.1.putLease hs.2, hs.2⟩

theorem keepsReferences_recordClientHeartbeat (b : Checked ClientHeartbeat) :
    KeepsReferences (recordClientHeartbeat b) := by
  refine keepsReferences_storeCall (preserves_lookup fun m => ?_)
  refine preserves_bind (preserves_execute fun s s' hs h => ?_) fun _ => preserves_done _
  cases h
  exact ⟨{ hs.1 with heartbeats := Table.forall_upsert hs.1.heartbeats hs.2 }, hs.2⟩

theorem keepsReferences_markClientStale (clientId : String) :
    KeepsReferences (markClientStale clientId) := by
  refine keepsReferences_storeCall (preserves_lookup fun m => ?_)
  have hexpire : Preserves (fun s => References s ∧ s.clientManifests.has clientId = true)
      (expireLeasesOf clientId) :=
    preserves_bind (preserves_query _) fun leases =>
      preserves_forEach fun l _ => references_upsertTaskLease _ clientId
  refine preserves_bind hexpire fun expired => preserves_bind (preserves_query _) fun row => ?_
  refine preserves_bind (preserves_execute fun s s' hs h => ?_) fun _ => preserves_done _
  cases h
  exact ⟨{ hs.1 with heartbeats := Table.forall_upsert hs.1.heartbeats hs.2 }, hs.2⟩

theorem keepsReferences_registerClientManifest (m : Checked ClientManifest) :
    KeepsReferences (registerClientManifest m) := by
  refine keepsReferences_storeCall
    (preserves_bind (preserves_execute fun s s' hs h => ?_) fun _ => preserves_done _)
  split at h
  · rename_i t ht
    cases h
    exact { hs with
      heartbeats := fun r hr => has_of_insert ht (hs.heartbeats r hr)
      leases := fun r hr => has_of_insert ht (hs.leases r hr)
      assigned := fun r hr => all_mono (fun _ => has_of_insert ht) (hs.assigned r hr) }
  · cases h

theorem keepsReferences_unregisterClientManifest (clientId : String) :
    KeepsReferences (unregisterClientManifest clientId) := by
  refine keepsReferences_storeCall (preserves_bind (preserves_query _) fun m => ?_)
  refine preserves_bind (preserves_execute fun s s' hs h => ?_) fun _ => preserves_done _
  cases h
  exact hs.deleteManifest clientId

theorem keepsReferences_storeWorkItem (item : Checked WorkItem) :
    KeepsReferences (storeWorkItem item) := by
  refine keepsReferences_storeCall (preserves_bind (preserves_query _) fun _ => ?_)
  refine preserves_bind (preserves_execute fun s s' hs h => ?_) fun _ =>
    preserves_bind (preserves_upsertStateRow _) fun _ => preserves_done _
  split at h
  · rename_i hrefs
    cases h
    exact hs.putItem hrefs
  · cases h

theorem keepsReferences_saveWorkItem (item : Checked WorkItem) :
    KeepsReferences (saveWorkItem item) := by
  refine keepsReferences_storeCall (preserves_bind (preserves_execute fun s s' hs h => ?_) fun _ =>
    preserves_bind (preserves_upsertStateRow _) fun _ => preserves_done _)
  split at h
  · rename_i hrefs
    split at h
    · rename_i t ht
      cases h
      exact { hs with
        assigned := Table.forall_insert ht hs.assigned (References.workItemRow hrefs).1
        leased := Table.forall_insert ht hs.leased (References.workItemRow hrefs).2 }
    · cases h
  · cases h

theorem keepsReferences_appendEvent (fields : Nat → EventFields) :
    KeepsReferences (appendEvent fields) :=
  keepsReferences_of_same (sameKeyTables_ledgerOnly.appendEvent fields)

theorem keepsReferences_upsertRunTaskState (st : Checked RunTaskState) :
    KeepsReferences (upsertRunTaskState st) :=
  keepsReferences_storeCall (preserves_upsertStateRow st)

theorem keepsReferences_transition (id : String) (target : WorkItemStatus) (caller : Caller)
    (change : WorkItemChange) (summary : Option String) (now : DateTime) :
    KeepsReferences (transition id target caller change summary now) := by
  refine Program.safe_bind (keepsReferences_query _) fun current => ?_
  unfold transitionFrom
  split
  · refine Program.safe_bind (p := Program.done _) trivial fun updated => ?_
    refine Program.safe_bind (keepsReferences_storeWorkItem _) fun saved => ?_
    refine Program.safe_bind (keepsReferences_upsertRunTaskState _) fun _ => ?_
    exact Program.safe_bind (keepsReferences_appendEvent _) fun _ => trivial
  · exact Program.safe_bind (keepsReferences_appendEvent _) fun _ => trivial

theorem references_rule : RequestRule (fun _ => True) (fun {_} p => KeepsReferences p) where
  done _ := trivial
  bind hp hk := Program.safe_bind hp hk
  query := keepsReferences_query
  registerClientManifest := keepsReferences_registerClientManifest
  unregisterClientManifest := keepsReferences_unregisterClientManifest
  recordClientHeartbeat := keepsReferences_recordClientHeartbeat
  markClientStale := keepsReferences_markClientStale
  saveTaskLease l _ := keepsReferences_saveTaskLease l
  appendEvent fields _ := keepsReferences_appendEvent fields
  createWorkItem item _ _ _ :=
    Program.safe_bind (keepsReferences_saveWorkItem item) fun _ =>
      Program.safe_bind (keepsReferences_upsertRunTaskState _) fun _ =>
        Program.safe_bind (keepsReferences_appendEvent _) fun _ => trivial
  transition := keepsReferences_transition
  saveDiffProposal _ _ _ := Program.safe_atomic fun _ hs => ⟨trivial, { hs with }⟩
  saveApprovalEvent _ _ := Program.safe_atomic fun _ hs => ⟨trivial, { hs with }⟩

/-! ## Any run -/

theorem references_empty (evidence : Table RunEvidenceRow.runId) :
    References { Store.empty with runEvidence := evidence } :=
  ⟨fun _ h => absurd h List.not_mem_nil, fun _ h => absurd h List.not_mem_nil,
    fun _ h => absurd h List.not_mem_nil, fun _ h => absurd h List.not_mem_nil⟩

/-- Requests that run at once over a store whose references hold, under any schedule of their store
    calls, leave no row that refers to a row that is not there. -/
theorem references_hold (o : Outside) {s : Store} (hs : References s)
    (requests : List (Request × DateTime)) (schedule : List Nat) :
    References ((poolOf o s requests).exec schedule).state := by
  refine Pool.exec_safe (R := Any) schedule _ hs fun p hp => ?_
  obtain ⟨r, -, rfl⟩ := List.mem_map.mp hp
  exact references_rule.request (fun _ _ => trivial)
    (fun e id now _ => keepsReferences_of_same (sameKeyTables_ledgerOnly.ingest e id now))
    (fun _ _ _ => trivial) o r.2

/-- A client is deleted while its request for a lease is between looking and saving. -/
theorem references_raced :
    References ((poolOf sampleOutside
      { Store.empty with clientManifests := Table.empty.upsert (manifestRow sampleManifest) }
      [(.acquire sampleAcquire, epoch), (.unregister "c1", epoch)]).exec [0, 0, 1, 0, 0, 1]).state :=
  references_hold sampleOutside
    ⟨fun _ h => absurd h List.not_mem_nil, fun _ h => absurd h List.not_mem_nil,
      fun _ h => absurd h List.not_mem_nil, fun _ h => absurd h List.not_mem_nil⟩ _ _

end Vad
