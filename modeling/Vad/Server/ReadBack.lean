/-
  Everything written can be read back.

  Rows are validated again on every load.  Two invariants make that harmless: payloads pass the
  checks of their models (`RowsOk`), and every row holds what was last written under its key
  (`History`, over the history variable `Store.written`).  Together they give `ReadableStore`:
  every load of a stored key and every unfiltered listing succeeds and returns what was last saved.

  One request breaks the first invariant.  A release request bounds its reason in length only, and
  the lease that is saved with it refuses control separators when it is loaded.  The condition
  `ReleaseReadable` excludes exactly the releases that store such a reason.
-/
import Vad.Server.Runs
import Vad.Server.WorkItemRuns

namespace Vad

open Keyed (Table Minted RecordId Tracks lastOf)
open Atomic (Program Pool)
open Atomic.Program (Safe Returns)

/-! ## What was last written -/

namespace Written

def manifest? : Written → Option ClientManifest
  | .manifest m => some m
  | _ => none

def lease? : Written → Option TaskLease
  | .lease l => some l
  | _ => none

def workItem? : Written → Option WorkItem
  | .workItem item => some item
  | _ => none

def runTaskState? : Written → Option RunTaskState
  | .runTaskState st => some st
  | _ => none

def event? : Written → Option ControlPlaneEvent
  | .event e => some e
  | _ => none

def proposal? : Written → Option DiffProposal
  | .proposal p => some p
  | _ => none

end Written

/-- The key of a run-task state. -/
def RunTaskState.key (st : RunTaskState) : String × String := (st.runId, st.taskId)

/-- Every row holds what was last written under its key. -/
structure History (s : Store) : Prop where
  manifests : Tracks Written.manifest? ClientManifest.clientId ManifestRow.payload
    s.clientManifests s.written
  leases : Tracks Written.lease? TaskLease.taskId LeaseRow.payload s.taskLeases s.written
  items : Tracks Written.workItem? WorkItem.workItemId WorkItemRow.payload s.workItems s.written
  states : Tracks Written.runTaskState? RunTaskState.key RunTaskStateRow.payload
    s.runTaskStates s.written
  events : Tracks Written.event? ControlPlaneEvent.eventId EventRow.payload
    s.controlPlaneEvents.table s.written
  proposals : Tracks Written.proposal? DiffProposal.proposalId DiffProposalRow.payload
    s.diffProposals.table s.written

theorem history_empty (evidence : Table RunEvidenceRow.runId) :
    History { Store.empty with runEvidence := evidence } :=
  ⟨.empty, .empty, .empty, .empty, .empty, .empty⟩

namespace History

variable {s : Store}

theorem putLease (h : History s) (l : TaskLease) : History (s.putLease l) :=
  ⟨h.manifests.skip rfl, h.leases.upsert rfl rfl, h.items.skip rfl, h.states.skip rfl,
    h.events.skip rfl, h.proposals.skip rfl⟩

theorem putState (h : History s) (st : RunTaskState) : History (s.putState st) :=
  ⟨h.manifests.skip rfl, h.leases.skip rfl, h.items.skip rfl, h.states.upsert rfl rfl,
    h.events.skip rfl, h.proposals.skip rfl⟩

theorem putItem (h : History s) (item : WorkItem) : History (s.putItem item) :=
  ⟨h.manifests.skip rfl, h.leases.skip rfl, h.items.replace rfl rfl, h.states.skip rfl,
    h.events.skip rfl, h.proposals.skip rfl⟩

theorem insertItem (h : History s) {item : WorkItem} {t : Table WorkItemRow.workItemId}
    (ht : s.workItems.insert (workItemRow item) = some t) :
    History { s with workItems := t, written := .workItem item :: s.written } :=
  ⟨h.manifests.skip rfl, h.leases.skip rfl, h.items.insert ht rfl rfl, h.states.skip rfl,
    h.events.skip rfl, h.proposals.skip rfl⟩

theorem insertManifest (h : History s) {m : ClientManifest} {t : Table ManifestRow.clientId}
    (ht : s.clientManifests.insert (manifestRow m) = some t) :
    History { s with clientManifests := t, written := .manifest m :: s.written } :=
  ⟨h.manifests.insert ht rfl rfl, h.leases.skip rfl, h.items.skip rfl, h.states.skip rfl,
    h.events.skip rfl, h.proposals.skip rfl⟩

theorem insertEvent (h : History s) {e : ControlPlaneEvent} {t : Minted EventRow.eventId}
    (ht : s.controlPlaneEvents.insert (eventRow e) = some t) :
    History { s with controlPlaneEvents := t, written := .event e :: s.written } :=
  ⟨h.manifests.skip rfl, h.leases.skip rfl, h.items.skip rfl, h.states.skip rfl,
    h.events.insert (Minted.insert_table ht) rfl rfl, h.proposals.skip rfl⟩

theorem putEvent (h : History s) (e : EventFields) : History (s.putEvent e) := by
  refine ⟨h.manifests.skip rfl, h.leases.skip rfl, h.items.skip rfl, h.states.skip rfl, ?_,
    h.proposals.skip rfl⟩
  exact h.events.insert (Minted.insert_append ..) rfl rfl

theorem putProposal (h : History s) (p : RecordId → DiffProposal)
    (hid : ∀ k, (p k).proposalId = k) :
    History { s with
      diffProposals := s.diffProposals.append (fun k => diffProposalRow "proposed" (p k)) hid
      written := .proposal (p (.generated s.diffProposals.drawn)) :: s.written } := by
  refine ⟨h.manifests.skip rfl, h.leases.skip rfl, h.items.skip rfl, h.states.skip rfl,
    h.events.skip rfl, ?_⟩
  exact h.proposals.insert (Minted.insert_append ..) rfl rfl

theorem deleteManifest (h : History s) (id : String) : History (deleteManifest id s) :=
  ⟨h.manifests.keep _, h.leases.keep _, h.items.mapRows (by intro r; rfl) fun _ => rfl, h.states, h.events,
    h.proposals⟩

end History

/-! ## Every request keeps the history -/

section Rule

theorem history_upsertTaskLease (l : TaskLease) : Safe History Any (upsertTaskLease l) :=
  Program.safe_bind (safe_selectClientManifest _) fun _ =>
    Program.safe_bind (safe_execute fun s s' hs h => by cases h; exact hs.putLease l) fun _ =>
      trivial

theorem history_upsertStateRow (st : Checked RunTaskState) : Safe History Any (upsertStateRow st) :=
  safe_execute fun s s' hs h => by cases h; exact hs.putState st.1

theorem history_appendGenerated {e : EventFields} (h : e.ok = true) :
    Safe History Any (appendGeneratedEvent e h) :=
  Program.safe_atomic fun _ hs => ⟨trivial, hs.putEvent e⟩

theorem history_appendEvent (fields : Nat → EventFields) : Safe History Any (appendEvent fields) := by
  refine Program.safe_bind (safe_query (fun _ => trivial) _) fun events => ?_
  show Safe _ _ (if h : (fields (events.length + 1)).ok = true then _ else _)
  split
  · exact history_appendGenerated _
  · trivial

theorem history_transition (id : String) (target : WorkItemStatus) (caller : Caller)
    (change : WorkItemChange) (summary : Option String) (now : DateTime) :
    Safe History Any (transition id target caller change summary now) := by
  refine Program.safe_bind (safe_query (fun _ => trivial) _) fun current => ?_
  unfold transitionFrom
  split
  · refine Program.safe_bind trivial fun item => Program.safe_bind (safe_storeCall ?_) fun _ =>
      Program.safe_bind (safe_storeCall (history_upsertStateRow _)) fun _ =>
        Program.safe_bind (history_appendEvent _) fun _ => trivial
    refine Program.safe_bind (safe_query (fun _ => trivial) _) fun _ =>
      Program.safe_bind (safe_execute fun s s' hs h => ?_) fun _ =>
        Program.safe_bind (history_upsertStateRow _) fun _ => trivial
    split at h
    · cases h
      exact hs.putItem item.1
    · cases h
  · exact Program.safe_bind (history_appendEvent _) fun _ => trivial

theorem history_createWorkItem (item : Checked WorkItem) (caller : Caller) (summary : Option String)
    (now : DateTime) : Safe History Any (createWorkItem item caller summary now) := by
  refine Program.safe_bind (safe_storeCall ?_) fun _ =>
    Program.safe_bind (safe_storeCall (history_upsertStateRow _)) fun _ =>
      Program.safe_bind (history_appendEvent _) fun _ => trivial
  refine Program.safe_bind (safe_execute fun s s' hs h => ?_) fun _ =>
    Program.safe_bind (history_upsertStateRow _) fun _ => trivial
  split at h
  · split at h
    · rename_i t ht
      cases h
      exact hs.insertItem ht
    · cases h
  · cases h

theorem history_rule : RequestRule (fun _ => True) (fun {_} p => Safe History Any p) where
  done _ := trivial
  bind hp hk := Program.safe_bind hp hk
  query f := safe_query (fun _ => trivial) f
  registerClientManifest m := by
    refine safe_storeCall (Program.safe_bind (safe_execute fun s s' hs h => ?_) fun _ => trivial)
    split at h
    · rename_i t ht
      cases h
      exact hs.insertManifest ht
    · cases h
  unregisterClientManifest id :=
    safe_storeCall (Program.safe_bind (safe_selectClientManifest _) fun _ =>
      Program.safe_bind (safe_execute fun s s' hs h => by cases h; exact hs.deleteManifest id)
        fun _ => trivial)
  recordClientHeartbeat b :=
    safe_storeCall (Program.safe_bind (safe_selectClientManifest _) fun _ =>
      Program.safe_bind (safe_execute fun s s' hs h => by cases h; exact { hs with }) fun _ =>
        trivial)
  markClientStale id :=
    safe_storeCall (Program.safe_bind (safe_selectClientManifest _) fun _ =>
      Program.safe_bind (Program.safe_bind (safe_query (fun _ => trivial) _) fun _ =>
        Program.safe_forEach fun l _ => history_upsertTaskLease _) fun _ =>
          Program.safe_bind (safe_query (fun _ => trivial) _) fun _ =>
            Program.safe_bind (safe_execute fun s s' hs h => by cases h; exact { hs with }) fun _ =>
              trivial)
  saveTaskLease l _ := safe_storeCall (history_upsertTaskLease l)
  appendEvent fields _ := history_appendEvent fields
  createWorkItem := history_createWorkItem
  transition := history_transition
  saveDiffProposal p hid _ := Program.safe_atomic fun s hs => ⟨trivial, hs.putProposal p hid⟩
  saveApprovalEvent e hid := Program.safe_atomic fun s hs => ⟨trivial, { hs with }⟩

theorem history_ingest (e : EventFields) (eventId : Option RecordId) (now : DateTime) :
    Safe History Any (ingest e eventId now) := by
  have hnumbered : ∀ f : EventFields, Safe History Any (appendNumbered f) := by
    intro f
    unfold appendNumbered
    split
    · split
      · exact history_appendGenerated _
      · trivial
    · trivial
  unfold ingest
  simp only
  split
  · refine Program.safe_bind ?_ fun _ => trivial
    cases eventId with
    | none => exact hnumbered e
    | some id =>
      refine Program.safe_bind trivial fun event => safe_storeCall (Program.safe_bind
        (safe_execute fun s s' hs h => ?_) fun _ => trivial)
      split at h
      · split at h
        · rename_i t ht
          cases h
          exact hs.insertEvent ht
        · cases h
      · cases h
  · exact Program.safe_bind (hnumbered _) fun _ => trivial

end Rule

/-! ## Reading back -/

section Reading

variable {α κ ρ : Type} [Model α]

/-- Every stored key loads, with the model last saved under it. -/
def LoadsBack (find : κ → Option ρ) (last : κ → Option α) (load : κ → Db (Checked α)) (s : Store) :
    Prop := ∀ k r, find k = some r → ∃ a, Returns (load k) s a s ∧ last k = some a.1

/-- The listing succeeds, gives the model last saved under each of its keys, and misses none. -/
def ListsBack (find : κ → Option ρ) (last : κ → Option α) (keyOf : α → κ)
    (list : Db (List (Checked α))) (s : Store) : Prop :=
  ∃ as, Returns list s as s ∧ (∀ a ∈ as, last (keyOf a.1) = some a.1) ∧
    ∀ k r, find k = some r → ∃ a ∈ as, keyOf a.1 = k

variable [DecidableEq κ] {rowKey : ρ → κ} {payload : ρ → α} {pick : Written → Option α}
  {keyOf : α → κ} {t : Table rowKey} {s : Store}

theorem loadsBack_of_tracks (hvalid : ∀ r ∈ t.rows, Model.Valid (payload r))
    (htracks : Tracks pick keyOf payload t s.written) {load : κ → Db (Checked α)}
    (hload : ∀ k a, Returns (load k) s a s ↔
      ∃ r, t.find? k = some r ∧ Model.build (payload r) = .ok a) :
    LoadsBack t.find? (lastOf pick keyOf s.written) load s := by
  intro k r hr
  have hval := hvalid r (Table.mem_of_find? hr)
  exact ⟨⟨payload r, hval⟩, (hload k _).mpr ⟨r, hr, Model.build_of_valid hval⟩, htracks k r hr⟩

theorem listsBack_of_tracks (hvalid : ∀ r ∈ t.rows, Model.Valid (payload r))
    (hkey : ∀ r ∈ t.rows, keyOf (payload r) = rowKey r)
    (htracks : Tracks pick keyOf payload t s.written) {p : ρ → Bool} (hp : ∀ r, p r = true)
    {le : ρ → ρ → Bool} {list : Db (List (Checked α))}
    (hlist : ∀ as, Returns list s as s ↔ fetchedAll payload (t.select p le) = .ok as) :
    ListsBack t.find? (lastOf pick keyOf s.written) keyOf list s := by
  obtain ⟨as, has, hmap⟩ := @fetchedAll_of_valid _ _ _ payload (t.select p le)
    fun r hr => hvalid r (Table.mem_select.mp hr).1
  refine ⟨as, (hlist as).mpr has, fun a ha => ?_, fun k r hr => ?_⟩
  · have hmem : a.1 ∈ (t.select p le).map payload := hmap ▸ List.mem_map_of_mem ha
    obtain ⟨r, hr, hpay⟩ := List.mem_map.mp hmem
    have hrow := (Table.mem_select.mp hr).1
    rw [← hpay, hkey r hrow]
    exact htracks _ r (Table.mem_rows_iff.mp hrow)
  · have hrow := Table.mem_of_find? hr
    have hmem : payload r ∈ as.map Subtype.val :=
      hmap ▸ List.mem_map_of_mem (Table.mem_select.mpr ⟨hrow, hp r⟩)
    obtain ⟨a, ha, hpay⟩ := List.mem_map.mp hmem
    exact ⟨a, ha, by rw [hpay, hkey r hrow, Table.key_of_find? hr]⟩

end Reading

/-- The joined listing succeeds when the manifests pass their checks. -/
theorem joinedSnapshots_of_valid (s : Store) {rows : List ManifestRow}
    (h : ∀ r ∈ rows, Model.Valid r.payload) :
    ∃ statuses, joinedSnapshots s rows = .ok statuses ∧
      ∀ c ∈ statuses, ∃ r ∈ rows, c.manifest.1 = r.payload := by
  induction rows with
  | nil => exact ⟨[], rfl, fun c hc => absurd hc List.not_mem_nil⟩
  | cons r rows ih =>
    obtain ⟨rest, hrest, hmem⟩ := ih fun x hx => h x (List.mem_cons_of_mem r hx)
    have hr := h r (List.mem_cons_self ..)
    refine ⟨snapshotOf ⟨r.payload, hr⟩ (s.clientHeartbeats.find? r.clientId) :: rest, ?_, ?_⟩
    · simp [joinedSnapshots, Model.build_of_valid hr, hrest]
    · intro c hc
      rcases List.mem_cons.mp hc with rfl | hc
      · refine ⟨r, List.mem_cons_self .., ?_⟩
        unfold snapshotOf
        split <;> rfl
      · obtain ⟨x, hx, hpay⟩ := hmem c hc
        exact ⟨x, List.mem_cons_of_mem r hx, hpay⟩

/-- Every load of a stored key and every unfiltered listing gives what was last saved. -/
structure ReadableStore (s : Store) : Prop where
  loadClient : LoadsBack s.clientManifests.find?
    (lastOf Written.manifest? ClientManifest.clientId s.written) loadClientManifest s
  listClients : ListsBack s.clientManifests.find?
    (lastOf Written.manifest? ClientManifest.clientId s.written) ClientManifest.clientId
    listClientManifests s
  listStatuses : ∃ statuses, Returns listClientStatuses s statuses s ∧ ∀ c ∈ statuses,
    lastOf Written.manifest? ClientManifest.clientId s.written c.manifest.1.clientId =
      some c.manifest.1
  loadLease : LoadsBack s.taskLeases.find? (lastOf Written.lease? TaskLease.taskId s.written)
    loadTaskLease s
  listLeases : ListsBack s.taskLeases.find? (lastOf Written.lease? TaskLease.taskId s.written)
    TaskLease.taskId listTaskLeases s
  loadItem : LoadsBack s.workItems.find? (lastOf Written.workItem? WorkItem.workItemId s.written)
    loadWorkItem s
  listItems : ListsBack s.workItems.find?
    (lastOf Written.workItem? WorkItem.workItemId s.written) WorkItem.workItemId listWorkItems s
  loadState : LoadsBack s.runTaskStates.find?
    (lastOf Written.runTaskState? RunTaskState.key s.written)
    (fun key => loadRunTaskState key.1 key.2) s
  listStates : ListsBack s.runTaskStates.find?
    (lastOf Written.runTaskState? RunTaskState.key s.written) RunTaskState.key listRunTaskStates s
  listEvents : ListsBack s.controlPlaneEvents.table.find?
    (lastOf Written.event? ControlPlaneEvent.eventId s.written) ControlPlaneEvent.eventId
    listControlPlaneEvents s
  loadProposal : LoadsBack s.diffProposals.table.find?
    (lastOf Written.proposal? DiffProposal.proposalId s.written) loadDiffProposal s
  listProposals : ListsBack s.diffProposals.table.find?
    (lastOf Written.proposal? DiffProposal.proposalId s.written) DiffProposal.proposalId
    listDiffProposals s

/-! ## Runs -/

/-- A release reason that `TaskLease` accepts: none, or a short text without control separators. -/
def ReadableReason (reason : Option String) : Prop := optionally (safeText 0 300) reason = true

theorem valid_of_goodLease {l : TaskLease} (h : GoodLease ReadableReason l) : Model.Valid l :=
  TaskLease.valid_of_same h.1 rfl rfl rfl rfl rfl h.2.2

/-- The two invariants together make a store readable. -/
theorem readable_of_invariants {s : Store} (hrows : RowsOk ReadableReason s) (hist : History s) :
    ReadableStore s := by
  have hread : ∀ {α : Type} (f : Store → Except PyError α) a,
      Returns (query f) s a s ↔ f s = .ok a := fun f a =>
    returns_query.trans ⟨fun h => h.1, fun h => ⟨h, rfl⟩⟩
  have hleases : ∀ r ∈ s.taskLeases.rows, Model.Valid r.payload := fun r hr =>
    valid_of_goodLease (hrows.leases r hr).2
  constructor
  · exact loadsBack_of_tracks (fun r hr => (hrows.manifests r hr).2) hist.manifests fun k a =>
      (hread _ a).trans fetched_eq_ok
  · exact listsBack_of_tracks (fun r hr => (hrows.manifests r hr).2)
      (fun r hr => by rw [(hrows.manifests r hr).1]; rfl) hist.manifests (fun _ => rfl)
      fun as => hread _ as
  · obtain ⟨statuses, hlist, hmem⟩ := @joinedSnapshots_of_valid s
      (s.clientManifests.select (fun _ => true) manifestOrder)
      fun r hr => (hrows.manifests r (Table.mem_select.mp hr).1).2
    refine ⟨statuses, (hread _ statuses).mpr hlist, fun c hc => ?_⟩
    obtain ⟨r, hr, hpay⟩ := hmem c hc
    have hrow := (Table.mem_select.mp hr).1
    rw [hpay, show r.payload.clientId = r.clientId by rw [(hrows.manifests r hrow).1]; rfl]
    exact hist.manifests _ r (Table.mem_rows_iff.mp hrow)
  · exact loadsBack_of_tracks hleases hist.leases fun k a => (hread _ a).trans fetched_eq_ok
  · exact listsBack_of_tracks hleases (fun r hr => by rw [(hrows.leases r hr).1]; rfl) hist.leases
      (fun _ => rfl) fun as => hread _ as
  · exact loadsBack_of_tracks (fun r hr => (hrows.items r hr).valid) hist.items fun k a =>
      (hread _ a).trans fetched_eq_ok
  · exact listsBack_of_tracks (fun r hr => (hrows.items r hr).valid)
      (fun r hr => (hrows.items r hr).id) hist.items (fun _ => rfl) fun as => hread _ as
  · exact loadsBack_of_tracks (fun r hr => (hrows.states r hr).2) hist.states fun k a =>
      (hread _ a).trans fetched_eq_ok
  · exact listsBack_of_tracks (fun r hr => (hrows.states r hr).2)
      (fun r hr => by rw [(hrows.states r hr).1]; rfl) hist.states (fun _ => rfl)
      fun as => hread _ as
  · exact listsBack_of_tracks (fun r hr => (hrows.events r hr).2)
      (fun r hr => by rw [(hrows.events r hr).1]; rfl) hist.events (fun _ => rfl)
      fun as => hread _ as
  · exact loadsBack_of_tracks (fun r hr => (hrows.proposals r hr).2) hist.proposals fun k a =>
      (hread _ a).trans fetched_eq_ok
  · exact listsBack_of_tracks (fun r hr => (hrows.proposals r hr).2)
      (fun r hr => (hrows.proposals r hr).1.symm) hist.proposals (fun _ => rfl)
      fun as => hread _ as

/-- A release by the holder of the active lease brings a readable reason. -/
def ReleaseReadable (s : Store) (r : Request) : Prop :=
  ∀ id q, r = .release id q → ∀ row, s.taskLeases.find? id = some row →
    row.payload.status = .active → row.payload.clientId = q.1.clientId →
    ReadableReason q.1.reason

/-- Every release of the run that stores its reason brings a readable one. -/
def ReleasesReadable (o : Outside) : List (Request × DateTime) → Store → Prop
  | [], _ => True
  | r :: rest, s => ReleaseReadable s r.1 ∧ ReleasesReadable o rest (afterRequest o s r)

/-- A release by somebody else, or of a lease that has ended, changes nothing. -/
theorem release_refused {s : Store} {id : String} {q : Checked TaskLeaseReleaseRequest}
    {now : DateTime} (h : ∀ row, s.taskLeases.find? id = some row →
      row.payload.status = .active → row.payload.clientId ≠ q.1.clientId) :
    ((release id q now).run s).2 = s := by
  unfold release
  rw [Program.run_bind]
  have hread : (loadTaskLease id).run s =
    (fetched id LeaseRow.payload (s.taskLeases.find? id), s) := rfl
  rw [hread]
  cases hload : fetched id LeaseRow.payload (s.taskLeases.find? id) with
  | error e => rfl
  | ok lease =>
    obtain ⟨row, hrow, hbuild⟩ := fetched_eq_ok.mp hload
    have hval := build_val (fun _ => rfl) hbuild
    have hno := h row hrow
    rw [← hval] at hno
    have herr : ∃ e, requireHolder lease.1 q.1.clientId = .error e := by
      unfold requireHolder
      split
      · exact ⟨_, rfl⟩
      · rename_i hclient
        split
        · exact ⟨_, rfl⟩
        · rename_i hactive
          exact absurd (not_not.mp hclient) (hno (not_not.mp hactive))
    obtain ⟨e, he⟩ := herr
    simp only [he]
    rfl

/-- One request keeps both invariants. -/
theorem invariants_step (o : Outside) {s : Store} {r : Request × DateTime}
    (hrows : RowsOk ReadableReason s) (hist : History s) (hr : ReleaseReadable s r.1) :
    RowsOk ReadableReason (afterRequest o s r) ∧ History (afterRequest o s r) := by
  have hweak : WeakerThanValid ReadableReason := fun _ h => h
  have hhist : History (afterRequest o s r) := (history_rule.request (fun _ _ => trivial)
    (fun e id now _ => history_ingest e id now) (fun _ _ _ => trivial) o r.2).run_keeps hist
  refine ⟨?_, hhist⟩
  by_cases hgood : ∀ id q, r.1 = .release id q → ReadableReason q.1.reason
  · exact (safe_request hweak hgood o r.2).run_keeps hrows
  · simp only [not_forall] at hgood
    obtain ⟨id, q, hreq, hbad⟩ := hgood
    have hrefused : afterRequest o s r = s := by
      unfold afterRequest
      rw [hreq]
      show ((do let a ← release id q r.2; pure (Response.lease a) : Db Response).run s).2 = s
      rw [Program.run_map]
      exact release_refused fun row hrow hactive hclient =>
        hbad (hr id q hreq row hrow hactive hclient)
    rw [hrefused]
    exact hrows

def sampleManifest : ClientManifest where
  clientId := "c1"
  displayName := "client"
  clientType := .codex
  version := "1"
  connectionMode := .mcp
  supportedCapabilities := ["code"]
  workspaceRoot := "/work"
  trustState := .trusted

theorem sampleManifest_valid : Model.Valid sampleManifest := ⟨rfl, by decide⟩

def sampleAcquire : Checked TaskLeaseAcquireRequest :=
  ⟨{ taskId := "t1", runId := "r1", clientId := "c1", role := "builder", actor := "ann" },
    rfl, by decide⟩

/-- Register, acquire, and release with the given reason. -/
def leaseRun (q : Checked TaskLeaseReleaseRequest) : List (Request × DateTime) := [
  (.register ⟨sampleManifest, sampleManifest_valid⟩, epoch),
  (.acquire sampleAcquire, epoch),
  (.release "t1" q, epoch)]

/-- A release reason of two lines passes the request's checks. -/
def twoLineRelease : Checked TaskLeaseReleaseRequest :=
  ⟨{ clientId := "c1", reason := some "done\nbye" }, rfl, by decide⟩

def oneLineRelease : Checked TaskLeaseReleaseRequest :=
  ⟨{ clientId := "c1", reason := some "done" }, rfl, by decide⟩

end Vad
