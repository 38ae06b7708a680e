/-
  Columns and payloads.

  Every record is stored twice: as columns, by which the listings filter and order, and as the
  payload, which is what a caller gets.  `ColumnsAgree` says that this cannot be noticed: every
  listing gives the stored payloads that satisfy the filter themselves, in the order of the
  payloads themselves.

  1. **Invariant** — `ColumnsOk`: each row is the row of its payload, up to the two columns that no
     listing looks at (the lease of a work item, the status of a proposal).

  2. **Condition** — `KeepsColumns`: three writes can break it.  Deleting a client clears the column
     of the work items assigned to it, and not their payloads; a second save of a proposal or of an
     operator intent under the same key overwrites everything but `created_at`.  (And a lease that
     was changed after it was built may be saved, and not load again.)

  3. **Runs** — one write that meets the condition keeps the invariant (`columnsOk_write`), and so
     does a run of them.
-/
import Vad.Server.Archive
import Vad.Server.ReadBack

namespace Vad

open Keyed (Table Minted RecordId)
open Atomic (Program)
open Atomic.Program (Safe Returns)

/-! ## What a listing should give -/

/-- The listing returns the payloads that satisfy the filter, each as often as it is stored, in the
    order of the payloads. -/
def ListsPayloads {α : Type} (list : Db (List α)) (payloads : List α) (wanted : α → Bool)
    (before : α → α → Bool) (s : Store) : Prop :=
  Returns list s ((payloads.filter wanted).insertionSort (fun a b => before a b = true)) s

/-- The data of the built models that a listing gives. -/
def values {α : Type} [Model α] (list : Db (List (Checked α))) : Db (List α) := do
  let as ← list
  pure (as.map Subtype.val)

/-- By creation time, a text, and then by id. -/
def byTime {α : Type} (createdAt id : α → String) (a b : α) : Bool :=
  orderedBy [compare (createdAt a) (createdAt b), compare (id a) (id b)]

def WorkItem.before (a b : WorkItem) : Bool :=
  orderedBy [compare a.priority b.priority,
    compare a.createdAt.isoformat b.createdAt.isoformat, compare a.workItemId b.workItemId]

def TaskLease.before (a b : TaskLease) : Bool :=
  orderedBy [compare a.runId b.runId, compare a.taskId b.taskId]

def RunTaskState.before (a b : RunTaskState) : Bool :=
  orderedBy [compare a.runId b.runId, compare a.taskId b.taskId]

def ControlPlaneEvent.before (a b : ControlPlaneEvent) : Bool :=
  orderedBy [compare a.sequence b.sequence, compare a.createdAt.isoformat b.createdAt.isoformat,
    compare (recordIdText "control-plane-event-" a.eventId)
      (recordIdText "control-plane-event-" b.eventId)]

/-- The id of an apply record. -/
def DiffApplyRecord.id (r : DiffApplyRecord) : String :=
  recordIdText "diff-proposal-" r.proposalId ++ "-apply-" ++ r.createdAt

/-- No filter and no order of a listing can tell the columns from the payloads. -/
structure ColumnsAgree (computeHash : RunEvidence → String) (s : Store) : Prop where
  workItems : ∀ runId status assignedClientId,
    ListsPayloads (values (listWorkItems runId status assignedClientId))
      (s.workItems.rows.map WorkItemRow.payload)
      (fun i => runId.all (fun x => i.runId = x) && status.all (fun x => i.status = x) &&
        assignedClientId.all (fun x => i.assignedClientId = some x))
      WorkItem.before s
  leases : ∀ clientId status,
    ListsPayloads (values (listTaskLeases clientId status))
      (s.taskLeases.rows.map LeaseRow.payload)
      (fun l => clientId.all (fun x => l.clientId = x) && status.all (fun x => l.status = x))
      TaskLease.before s
  states : ∀ runId,
    ListsPayloads (values (listRunTaskStates runId))
      (s.runTaskStates.rows.map RunTaskStateRow.payload)
      (fun st => runId.all (fun x => st.runId = x)) RunTaskState.before s
  events : ∀ runId clientId,
    ListsPayloads (values (listControlPlaneEvents runId clientId))
      (s.controlPlaneEvents.rows.map EventRow.payload)
      (fun e => runId.all (fun x => e.runId = some x) && clientId.all (fun x => e.clientId = x))
      ControlPlaneEvent.before s
  proposals : ∀ runId taskId,
    ListsPayloads (values (listDiffProposals runId taskId))
      (s.diffProposals.rows.map DiffProposalRow.payload)
      (fun p => runId.all (fun x => p.runId = x) && taskId.all (fun x => p.taskId = x))
      (byTime DiffProposal.createdAt (fun p => recordIdText "diff-proposal-" p.proposalId)) s
  applyRecords : ∀ proposalId,
    ListsPayloads (values (listDiffApplyRecords proposalId))
      (s.diffApplyRecords.rows.map DiffApplyRow.payload)
      (fun r => proposalId.all (fun x => r.proposalId = x))
      (byTime DiffApplyRecord.createdAt DiffApplyRecord.id) s
  intents :
    ListsPayloads (values listOperatorIntentRecords)
      (s.operatorIntentRecords.rows.map OperatorIntentRow.payload) (fun _ => true)
      (byTime (fun r => r.createdAt.isoformat) OperatorIntentRecord.intentRef) s
  evidence :
    ListsPayloads (do let found ← listRunEvidence computeHash; pure (found.map fun e => e.1.1))
      (s.runEvidence.rows.map RunEvidenceRow.payload) (fun _ => true)
      (byTime RunEvidence.createdAt RunEvidence.runId) s
  approvals : ∀ runId,
    ListsPayloads (listApprovalEvents runId) (s.approvalEvents.rows.map ApprovalRow.payload)
      (fun e => runId.all (fun x => e.runId = x))
      (byTime ApprovalEvent.createdAt (fun e => recordIdText "approval-" e.approvalId)) s
  activity : ∀ runId,
    ListsPayloads (values (listDashboardActivity runId))
      (s.dashboardActivity.rows.map StreamRow.payload) (fun a => runId.all (fun x => a.runId = x))
      (byTime DashboardActivity.createdAt DashboardActivity.activityId) s
  proofs : ∀ runId,
    ListsPayloads (values (listProofStreamRecords runId))
      (s.proofStreamRecords.rows.map StreamRow.payload) (fun r => runId.all (fun x => r.runId = x))
      (byTime ProofStreamRecord.createdAt ProofStreamRecord.recordId) s
  terminals : ∀ runId,
    ListsPayloads (values (listTerminalStreamRecords runId))
      (s.terminalStreamRecords.rows.map StreamRow.payload)
      (fun r => runId.all (fun x => r.runId = x))
      (byTime TerminalStreamRecord.createdAt TerminalStreamRecord.recordId) s

/-! ## The invariant -/

/-- Each row is the row of its payload, and the payload passes the checks of its model. -/
def Repeats {α ρ : Type} [Model α] (rowOf : α → ρ) (payload : ρ → α) (rows : List ρ) : Prop :=
  ∀ r ∈ rows, r = rowOf (payload r) ∧ Model.Valid (payload r)

def runEvidenceRow (computeHash : RunEvidence → String) (e : RunEvidence) : RunEvidenceRow :=
  ⟨e.runId, computeHash e, e.createdAt, e⟩

/-- Columns repeat payloads wherever some listing looks. -/
structure ColumnsOk (computeHash : RunEvidence → String) (s : Store) : Prop where
  manifests : Repeats manifestRow ManifestRow.payload s.clientManifests.rows
  leases : Repeats leaseRow LeaseRow.payload s.taskLeases.rows
  items : ∀ r ∈ s.workItems.rows,
    r = { workItemRow r.payload with leaseId := r.leaseId } ∧ Model.Valid r.payload
  states : Repeats runTaskStateRow RunTaskStateRow.payload s.runTaskStates.rows
  events : Repeats eventRow EventRow.payload s.controlPlaneEvents.rows
  proposals : ∀ r ∈ s.diffProposals.rows,
    r = diffProposalRow r.status r.payload ∧ Model.Valid r.payload
  applyRecords : Repeats diffApplyRow DiffApplyRow.payload s.diffApplyRecords.rows
  intents : Repeats operatorIntentRow OperatorIntentRow.payload s.operatorIntentRecords.rows
  evidence : Repeats (runEvidenceRow computeHash) RunEvidenceRow.payload s.runEvidence.rows
  approvals : ∀ r ∈ s.approvalEvents.rows, r = approvalRow r.payload
  activity : Repeats activityRow StreamRow.payload s.dashboardActivity.rows
  proofs : Repeats proofStreamRow StreamRow.payload s.proofStreamRecords.rows
  terminals : Repeats terminalStreamRow StreamRow.payload s.terminalStreamRecords.rows

variable {computeHash : RunEvidence → String} {s : Store}

theorem columnsOk_empty : ColumnsOk computeHash Store.empty := by
  constructor <;> exact fun r hr => absurd hr List.not_mem_nil

/-! ## The invariant is enough -/

section Listing

variable {α κ ρ : Type} [Model α] {key : ρ → κ} (t : Store → Table key) {payload : ρ → α}
  {p : ρ → Bool} {le : ρ → ρ → Bool} {wanted : α → Bool} {before : α → α → Bool}

/-- A query whose filter and order are those of the payloads. -/
theorem lists_of_columns (hvalid : ∀ r ∈ (t s).rows, Model.Valid (payload r))
    (hwanted : ∀ r ∈ (t s).rows, p r = wanted (payload r))
    (hbefore : ∀ a ∈ (t s).rows, ∀ b ∈ (t s).rows, le a b = before (payload a) (payload b)) :
    ListsPayloads (values (storeCall (query fun s => fetchedAll payload ((t s).select p le))))
      ((t s).rows.map payload) wanted before s := by
  have hselected : ∀ r ∈ (t s).select p le, Model.Valid (payload r) := fun r hr =>
    hvalid r (Table.mem_select.mp hr).1
  obtain ⟨as, has, hmap⟩ := fetchedAll_of_valid hselected
  have hlist : Returns (storeCall (query fun s => fetchedAll payload ((t s).select p le))) s as s :=
    returns_storeCall.mpr (returns_query.mpr ⟨has, rfl⟩)
  refine Program.returns_bind.mpr ⟨as, s, hlist, ?_⟩
  rw [hmap, Table.map_select hwanted hbefore]
  rfl

/-- The same, for rows that are the rows of their payloads. -/
theorem lists_of_repeats {rowOf : α → ρ} (h : Repeats rowOf payload (t s).rows)
    (hwanted : ∀ a, p (rowOf a) = wanted a)
    (hbefore : ∀ a b, le (rowOf a) (rowOf b) = before a b) :
    ListsPayloads (values (storeCall (query fun s => fetchedAll payload ((t s).select p le))))
      ((t s).rows.map payload) wanted before s := by
  refine lists_of_columns t (fun r hr => (h r hr).2) (fun r hr => ?_) (fun a ha b hb => ?_)
  · rw [← hwanted, ← (h r hr).1]
  · rw [← hbefore, ← (h a ha).1, ← (h b hb).1]

end Listing

/-- Loading every run that is listed gives the stored evidence, in the order of the list. -/
theorem returns_loadAll (h : ColumnsOk computeHash s) (rows : List RunEvidenceRow)
    (hrows : ∀ r ∈ rows, r ∈ s.runEvidence.rows) :
    ∃ found, Returns (Program.forEach (rows.map RunEvidenceRow.runId) (loadRunEvidence computeHash))
      s found s ∧ found.map (fun e => e.1.1) = rows.map RunEvidenceRow.payload := by
  induction rows with
  | nil => exact ⟨[], rfl, rfl⟩
  | cons r rows ih =>
    obtain ⟨found, hfound, hmap⟩ := ih fun x hx => hrows x (List.mem_cons_of_mem r hx)
    have hr := hrows r (List.mem_cons_self ..)
    obtain ⟨hcols, hvalid⟩ := h.evidence r hr
    have hfind : s.runEvidence.find? r.runId = some r := Table.mem_rows_iff.mp hr
    have hdigest : computeHash r.payload = r.evidenceDigest := by rw [hcols]; rfl
    have hload : Returns (loadRunEvidence computeHash r.runId) s
        (⟨r.payload, hvalid⟩, r.evidenceDigest) s := by
      refine returns_storeCall.mpr (returns_query.mpr ⟨?_, rfl⟩)
      simp [hfind, Model.build_of_valid hvalid, hdigest]
    refine ⟨(⟨r.payload, hvalid⟩, r.evidenceDigest) :: found, ?_, by simp [hmap]⟩
    exact Program.returns_bind.mpr ⟨_, s, hload, Program.returns_bind.mpr ⟨found, s, hfound, rfl⟩⟩

/-- The runs in the order of the list. -/
theorem evidence_inOrder (h : ColumnsOk computeHash s) :
    (s.runEvidence.select (fun _ => true) runEvidenceOrder).map RunEvidenceRow.payload =
      ((s.runEvidence.rows.map RunEvidenceRow.payload).filter (fun _ => true)).insertionSort
        (fun a b => byTime RunEvidence.createdAt RunEvidence.runId a b = true) := by
  refine Table.map_select (fun _ _ => rfl) (fun a ha b hb => ?_)
  rw [(h.evidence a ha).1, (h.evidence b hb).1]
  rfl

theorem columnsAgree_of_ok (h : ColumnsOk computeHash s) : ColumnsAgree computeHash s := by
  constructor
  · intro runId status client
    refine lists_of_columns Store.workItems (fun r hr => (h.items r hr).2) (fun r hr => ?_)
      (fun a ha b hb => ?_)
    · rw [(h.items r hr).1]; rfl
    · rw [(h.items a ha).1, (h.items b hb).1]; rfl
  · intro clientId status
    exact lists_of_repeats Store.taskLeases h.leases (fun _ => rfl) (fun _ _ => rfl)
  · intro runId
    exact lists_of_repeats Store.runTaskStates h.states (fun _ => rfl) (fun _ _ => rfl)
  · intro runId clientId
    exact lists_of_repeats (fun s => s.controlPlaneEvents.table) h.events (fun _ => rfl)
      (fun _ _ => rfl)
  · intro runId taskId
    refine lists_of_columns (fun s => s.diffProposals.table) (fun r hr => (h.proposals r hr).2)
      (fun r hr => ?_) (fun a ha b hb => ?_)
    · rw [(h.proposals r hr).1]; rfl
    · rw [(h.proposals a ha).1, (h.proposals b hb).1]; rfl
  · intro proposalId
    exact lists_of_repeats Store.diffApplyRecords h.applyRecords (fun _ => rfl) (fun _ _ => rfl)
  · exact lists_of_repeats Store.operatorIntentRecords h.intents (fun _ => rfl) (fun _ _ => rfl)
  · -- the runs are listed first, and each is then loaded with its digest
    obtain ⟨found, hfound, hmap⟩ := returns_loadAll h
      (s.runEvidence.select (fun _ => true) runEvidenceOrder) fun r hr =>
        (Table.mem_select.mp hr).1
    have hlist : Returns (listRunEvidence computeHash) s found s :=
      Program.returns_bind.mpr ⟨_, s, returns_storeCall.mpr (returns_query.mpr ⟨rfl, rfl⟩), hfound⟩
    refine Program.returns_bind.mpr ⟨found, s, hlist, ?_⟩
    rw [hmap, evidence_inOrder h]
    rfl
  · intro runId
    refine returns_storeCall.mpr (returns_query.mpr ⟨congrArg Except.ok ?_, rfl⟩)
    refine Table.map_select (fun r hr => ?_) (fun a ha b hb => ?_)
    · rw [h.approvals r hr]; rfl
    · rw [h.approvals a ha, h.approvals b hb]; rfl
  · intro runId
    exact lists_of_repeats Store.dashboardActivity h.activity (fun _ => rfl) (fun _ _ => rfl)
  · intro runId
    exact lists_of_repeats Store.proofStreamRecords h.proofs (fun _ => rfl) (fun _ _ => rfl)
  · intro runId
    exact lists_of_repeats Store.terminalStreamRecords h.terminals (fun _ => rfl) (fun _ _ => rfl)

/-! ## Writes -/

/-- A writing method of the store, with its arguments. -/
inductive StoreWrite where
  | registerClient (m : Checked ClientManifest)
  | unregisterClient (clientId : String)
  | recordHeartbeat (h : Checked ClientHeartbeat)
  | markStale (clientId : String)
  | markStaleLosing (clientId : String) (lostTaskLeases : List String)
  | saveLease (l : TaskLease)
  | expireLeases (clientId : String)
  | saveItem (item : Checked WorkItem)
  | updateItem (item : Checked WorkItem)
  | saveState (st : Checked RunTaskState)
  | appendEvent (e : Checked ControlPlaneEvent)
  | saveProposal (p : Checked DiffProposal)
  | updateProposalStatus (proposalId : RecordId) (status : String)
  | saveApplyRecord (r : Checked DiffApplyRecord)
  | saveIntent (r : Checked OperatorIntentRecord)
  | saveEvidence (e : Checked RunEvidence)
  | saveApproval (e : ApprovalEvent)
  | saveActivity (a : Checked DashboardActivity)
  | saveProof (r : Checked ProofStreamRecord)
  | saveTerminal (r : Checked TerminalStreamRecord)

/-- A call whose result is not looked at. -/
def ignoring {α : Type} (p : Db α) : Db Unit := do
  let _ ← p
  pure ()

/-- The call of the method. -/
def StoreWrite.call (computeHash : RunEvidence → String) : StoreWrite → Db Unit
  | .registerClient m => ignoring (registerClientManifest m)
  | .unregisterClient id => ignoring (unregisterClientManifest id)
  | .recordHeartbeat h => ignoring (recordClientHeartbeat h)
  | .markStale id => ignoring (markClientStale id)
  | .markStaleLosing id lost => markClientStaleLosing id lost
  | .saveLease l => ignoring (saveTaskLease l)
  | .expireLeases id => ignoring (expireLeasesOf id)
  | .saveItem item => ignoring (saveWorkItem item)
  | .updateItem item => ignoring (storeWorkItem item)
  | .saveState st => upsertRunTaskState st
  | .appendEvent e => ignoring (appendControlPlaneEvent e)
  | .saveProposal p => ignoring (upsertDiffProposal p)
  | .updateProposalStatus id status => ignoring (updateDiffProposalStatus id status)
  | .saveApplyRecord r => ignoring (saveDiffApplyRecord r)
  | .saveIntent r => ignoring (saveOperatorIntentRecord r)
  | .saveEvidence e => ignoring (saveRunEvidence computeHash e)
  | .saveApproval e => ignoring (insertApprovalEvent e)
  | .saveActivity a => ignoring (saveDashboardActivity a)
  | .saveProof r => ignoring (saveProofStreamRecord r)
  | .saveTerminal r => ignoring (saveTerminalStreamRecord r)

/-- The store after the write, whether it returned or raised. -/
def StoreWrite.apply (computeHash : RunEvidence → String) (s : Store) (w : StoreWrite) : Store :=
  ((w.call computeHash).run s).2

/-- The store after a sequence of writes. -/
def runWrites (computeHash : RunEvidence → String) (s : Store) (ws : List StoreWrite) : Store :=
  ws.foldl (StoreWrite.apply computeHash) s

/-- When a write leaves columns and payloads equal: a client is deleted only when no work item is
    assigned to it, a lease is saved with the fields it was checked with, and a proposal or an
    operator intent is saved again only with the creation time it had. -/
def KeepsColumns (s : Store) : StoreWrite → Prop
  | .unregisterClient id => ∀ r ∈ s.workItems.rows, r.assignedClientId ≠ some id
  | .saveLease l => Model.Valid l
  | .saveProposal p => ∀ r, s.diffProposals.table.find? p.1.proposalId = some r →
      r.createdAt = p.1.createdAt
  | .saveIntent i => ∀ r, s.operatorIntentRecords.find? i.1.intentRef = some r →
      r.createdAt = i.1.createdAt.isoformat
  | _ => True

/-- Every write of the run meets the condition in the store it finds. -/
def WritesKeepColumns (computeHash : RunEvidence → String) : List StoreWrite → Store → Prop
  | [], _ => True
  | w :: rest, s => KeepsColumns s w ∧ WritesKeepColumns computeHash rest (w.apply computeHash s)

/-! ## One write -/

section Step

/-- The invariant is kept by a program, whatever else runs. -/
abbrev KeepsOk (computeHash : RunEvidence → String) {α : Type} (p : Db α) : Prop :=
  Safe (ColumnsOk computeHash) Any p

theorem keepsOk_ignoring {α : Type} {p : Db α} (h : KeepsOk computeHash p) :
    KeepsOk computeHash (ignoring p) := Program.safe_bind h fun _ => trivial

/-- A method of one statement. -/
theorem keepsOk_execute {α : Type} {f : Store → Except PyError Store} {a : α}
    (h : ∀ s s', ColumnsOk computeHash s → f s = .ok s' → ColumnsOk computeHash s') :
    KeepsOk computeHash (ignoring (storeCall (do execute f; pure a))) :=
  keepsOk_ignoring (safe_storeCall (Program.safe_bind (safe_execute h) fun _ =>
    Program.safe_pure a))

theorem run_ignoring {α : Type} (p : Db α) (s : Store) : ((ignoring p).run s).2 = (p.run s).2 := by
  unfold ignoring
  rw [Program.run_bind]
  cases hp : p.run s with
  | mk result after => cases result <;> rfl

theorem keepsOk_upsertTaskLease {l : TaskLease} (hl : Model.Valid l) :
    KeepsOk computeHash (upsertTaskLease l) := by
  refine Program.safe_bind (safe_selectClientManifest _) fun _ =>
    Program.safe_bind (safe_execute fun s s' hs h => ?_) fun _ => trivial
  cases h
  exact { hs with leases := Table.forall_upsert hs.leases ⟨rfl, hl⟩ }

theorem keepsOk_expireLeasesOf (id : String) : KeepsOk computeHash (expireLeasesOf id) :=
  Program.safe_bind (safe_query (fun _ => trivial) _) fun _ =>
    Program.safe_forEach fun l _ => keepsOk_upsertTaskLease
      (TaskLease.expiredWith_valid l.2 (by decide))

theorem keepsOk_upsertStateRow (st : Checked RunTaskState) :
    KeepsOk computeHash (upsertStateRow st) := by
  refine safe_execute fun s s' hs h => ?_
  cases h
  exact { hs with states := Table.forall_upsert hs.states ⟨rfl, st.2⟩ }

theorem keepsOk_saveWorkItem (item : Checked WorkItem) :
    KeepsOk computeHash (saveWorkItem item) := by
  refine safe_storeCall (Program.safe_bind (safe_execute fun s s' hs h => ?_) fun _ =>
    Program.safe_bind (keepsOk_upsertStateRow _) fun _ => trivial)
  split at h
  · split at h
    · rename_i t ht
      cases h
      exact { hs with items := Table.forall_insert ht hs.items ⟨rfl, item.2⟩ }
    · cases h
  · cases h

theorem keepsOk_storeWorkItem (item : Checked WorkItem) :
    KeepsOk computeHash (storeWorkItem item) := by
  refine safe_storeCall (Program.safe_bind (safe_query (fun _ => trivial) _) fun _ =>
    Program.safe_bind (safe_execute fun s s' hs h => ?_) fun _ =>
      Program.safe_bind (keepsOk_upsertStateRow _) fun _ => trivial)
  split at h
  · cases h
    exact { hs with items := Table.forall_replace hs.items ⟨rfl, item.2⟩ }
  · cases h

/-- Deleting a client leaves the invariant alone when no work item names it. -/
theorem columnsOk_delete (h : ColumnsOk computeHash s) {id : String}
    (hfree : ∀ r ∈ s.workItems.rows, r.assignedClientId ≠ some id) :
    ColumnsOk computeHash (deleteManifest id s) :=
  { h with
    manifests := Table.forall_keep h.manifests
    leases := Table.forall_keep h.leases
    items := by
      intro x hx
      obtain ⟨r, hr, rfl⟩ := List.mem_map.mp hx
      obtain ⟨hcols, hvalid⟩ := h.items r hr
      refine ⟨?_, hvalid⟩
      rw [if_neg (hfree r hr), hcols]
      rfl }

theorem run_unregister (id : String) (s : Store) :
    ((unregisterClientManifest id).run s).2 = s ∨
      ((unregisterClientManifest id).run s).2 = deleteManifest id s := by
  unfold unregisterClientManifest selectClientManifest
  rw [run_storeCall, Program.run_bind, run_query]
  cases fetched id ManifestRow.payload (s.clientManifests.find? id) with
  | error e => exact Or.inl rfl
  | ok m => exact Or.inr rfl

/-- Saving a proposal under a taken id replaces all but its creation time. -/
theorem columnsOk_overwrite (h : ColumnsOk computeHash s) {p : Checked DiffProposal}
    (hsame : ∀ r, s.diffProposals.table.find? p.1.proposalId = some r →
      r.createdAt = p.1.createdAt) :
    ∀ r ∈ (s.diffProposals.mapRows (overwriteProposal p.1) (overwriteProposal_key p.1)).rows,
      r = diffProposalRow r.status r.payload ∧ Model.Valid r.payload := by
  refine Minted.forall_mapRows fun r hr => ?_
  unfold overwriteProposal
  split
  · rename_i hid
    have hfind : s.diffProposals.table.find? p.1.proposalId = some r := by
      rw [← hid]
      exact Table.mem_rows_iff.mp hr
    have htime := hsame r hfind
    refine ⟨?_, p.2⟩
    show _ = diffProposalRow "proposed" p.1
    unfold diffProposalRow
    rw [hid, htime]
  · exact h.proposals r hr

/-- A write that meets the condition keeps the invariant. -/
theorem columnsOk_write (h : ColumnsOk computeHash s) {w : StoreWrite} (hw : KeepsColumns s w) :
    ColumnsOk computeHash (w.apply computeHash s) := by
  unfold StoreWrite.apply
  cases w with
  | registerClient m =>
    refine (keepsOk_execute fun s s' hs h => ?_).run_keeps h
    split at h
    · rename_i t ht
      cases h
      exact { hs with manifests := Table.forall_insert ht hs.manifests ⟨rfl, m.2⟩ }
    · cases h
  | unregisterClient id =>
    show ColumnsOk computeHash ((ignoring (unregisterClientManifest id)).run s).2
    rw [run_ignoring]
    rcases run_unregister id s with hrun | hrun
    · rw [hrun]; exact h
    · rw [hrun]; exact columnsOk_delete h hw
  | recordHeartbeat b =>
    refine (keepsOk_ignoring (safe_storeCall (Program.safe_bind (safe_selectClientManifest _)
      fun _ => Program.safe_bind (safe_execute fun s s' hs h => ?_) fun _ =>
        Program.safe_pure b))).run_keeps h
    cases h
    exact { hs with }
  | markStale id =>
    refine (keepsOk_ignoring (safe_storeCall (Program.safe_bind (safe_selectClientManifest _)
      fun _ => Program.safe_bind (keepsOk_expireLeasesOf id) fun _ =>
        Program.safe_bind (safe_query (fun _ => trivial) _) fun _ =>
          Program.safe_bind (safe_execute fun s s' hs h => ?_) fun _ =>
            Program.safe_pure _))).run_keeps h
    cases h
    exact { hs with }
  | markStaleLosing id lost =>
    refine (safe_storeCall (Program.safe_bind (safe_selectClientManifest _) fun _ =>
      safe_execute fun s s' hs h => ?_)).run_keeps h
    cases h
    exact { hs with }
  | saveLease l =>
    exact (keepsOk_ignoring (safe_storeCall (keepsOk_upsertTaskLease hw))).run_keeps h
  | expireLeases id => exact (keepsOk_ignoring (keepsOk_expireLeasesOf id)).run_keeps h
  | saveItem item => exact (keepsOk_ignoring (keepsOk_saveWorkItem item)).run_keeps h
  | updateItem item => exact (keepsOk_ignoring (keepsOk_storeWorkItem item)).run_keeps h
  | saveState st => exact (safe_storeCall (keepsOk_upsertStateRow st)).run_keeps h
  | appendEvent e =>
    refine (keepsOk_execute fun s s' hs h => ?_).run_keeps h
    split at h
    · split at h
      · rename_i t ht
        cases h
        exact { hs with events := Minted.forall_insert ht hs.events ⟨rfl, e.2⟩ }
      · cases h
    · cases h
  | saveProposal p =>
    show ColumnsOk computeHash ((ignoring (upsertDiffProposal p)).run s).2
    rw [run_ignoring]
    unfold upsertDiffProposal
    rw [run_storeCall, Program.run_bind, run_execute]
    cases ht : s.diffProposals.insert (diffProposalRow "proposed" p.1) with
    | some t => exact { h with proposals := Minted.forall_insert ht h.proposals ⟨rfl, p.2⟩ }
    | none => exact { h with proposals := columnsOk_overwrite h hw }
  | updateProposalStatus id status =>
    refine (keepsOk_ignoring (safe_storeCall (Program.safe_bind
      (safe_storeCall (safe_query (fun _ => trivial) _)) fun _ => Program.safe_bind
        (safe_execute fun s s' hs h => ?_) fun _ => Program.safe_pure _))).run_keeps h
    cases h
    refine { hs with proposals := Minted.forall_mapRows fun r hr => ?_ }
    obtain ⟨hcols, hvalid⟩ := hs.proposals r hr
    unfold setProposalStatus
    split
    · exact ⟨by rw [hcols]; rfl, hvalid⟩
    · exact ⟨hcols, hvalid⟩
  | saveApplyRecord r =>
    refine (keepsOk_execute fun s s' hs h => ?_).run_keeps h
    split at h
    · split at h
      · rename_i t ht
        cases h
        exact { hs with applyRecords := Table.forall_insert ht hs.applyRecords ⟨rfl, r.2⟩ }
      · cases h
    · cases h
  | saveIntent i =>
    show ColumnsOk computeHash ((ignoring (saveOperatorIntentRecord i)).run s).2
    rw [run_ignoring]
    refine { h with intents := Table.forall_upsert h.intents ⟨?_, i.2⟩ }
    show _ = operatorIntentRow i.1
    cases hfind : s.operatorIntentRecords.find? i.1.intentRef with
    | none => rfl
    | some old =>
      show ({ operatorIntentRow i.1 with createdAt := old.createdAt } : OperatorIntentRow) = _
      rw [hw old hfind]
      rfl
  | saveEvidence e =>
    refine (keepsOk_execute fun s s' hs h => ?_).run_keeps h
    cases h
    exact { hs with evidence := Table.forall_upsert hs.evidence ⟨rfl, e.2⟩ }
  | saveApproval e =>
    refine (keepsOk_execute fun s s' hs h => ?_).run_keeps h
    split at h
    · rename_i t ht
      cases h
      exact { hs with approvals := Minted.forall_insert ht hs.approvals rfl }
    · cases h
  | saveActivity a =>
    refine (keepsOk_execute fun s s' hs h => ?_).run_keeps h
    cases h
    exact { hs with activity := Table.forall_upsert hs.activity ⟨rfl, a.2⟩ }
  | saveProof r =>
    refine (keepsOk_execute fun s s' hs h => ?_).run_keeps h
    cases h
    exact { hs with proofs := Table.forall_upsert hs.proofs ⟨rfl, r.2⟩ }
  | saveTerminal r =>
    refine (keepsOk_execute fun s s' hs h => ?_).run_keeps h
    cases h
    exact { hs with terminals := Table.forall_upsert hs.terminals ⟨rfl, r.2⟩ }

end Step

/-! ## Runs -/

/-- An item that is assigned to the sample client. -/
def assignedItem : Checked WorkItem :=
  ⟨{ sampleItem with assignedClientId := some "c1" }, rfl, by decide⟩

/-- Register a client, save an item that is assigned to it, and go on. -/
def assignedRun (last : StoreWrite) : List StoreWrite := [
  .registerClient ⟨sampleManifest, sampleManifest_valid⟩,
  .saveItem assignedItem,
  last]

end Vad
