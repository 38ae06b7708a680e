/-
  Applying diff proposals through the service (`vad/server/api/diff_proposals.py`).

  `DiffProposalService.apply` loads a proposal, applies it to a workspace, records the outcome and
  sets the status of the proposal to that outcome.  It looks neither at the status nor at the
  records that are there already.

  1. `applyProposal_cases` — a call leaves the store as it was, or adds the record of its
     application and sets the status to what the record says.

  2. **The gap** — so the status follows the last call, not the records: a proposal that was
     applied and is called again with a decision that denies is `denied` from then on, its applied
     record notwithstanding (`reapplied_denied`); and a patch that still fits is applied again.

  3. `proposals_applied_once` — along every run whose calls for an applied proposal would change
     nothing and are approved (or raise), a proposal has the status `applied` exactly when it has an
     applied record, in every state, and no later call for it changes a file.
-/
import Vad.Server.Archive
import Vad.Server.Effects
import Vad.Server.Records
import Vad.Repo.RepeatedSections
import Vad.Repo.DiffWorkflow

namespace Vad

open Keyed (Table Minted RecordId)
open Atomic (Program)
open Files (Paths Disk)

/-! ## The service -/

structure DiffProposalApplyResult where
  statusCode : Nat
  proposal : Option DiffProposal
  applyRecord : Option DiffApplyRecord
  decision : PolicyDecision

/-- What surrounds the service. -/
structure ProposalEnv where
  /-- The hexadecimal digest of bytes. -/
  sha256 : ByteArray → String
  /-- Python's text of an exception. -/
  str : PyError → String

/-- The store, and the files of all workspaces. -/
structure World (Loc : Type) where
  store : Store
  disk : Disk Loc

/-- An apply call: the workspace root decides what its paths lead to. -/
structure ApplyCall (Loc : Type) where
  proposalId : RecordId
  paths : Paths Loc
  verifier : PolicyDecision
  releaseGuardian : PolicyDecision
  now : DateTime

section Service

variable {Loc : Type} [DecidableEq Loc]

/-- The status that a record gives its proposal. -/
def statusOf (record : DiffApplyRecord) : String := if record.applied then "applied" else "denied"

/-- The answer to a call that was recorded. -/
def applyAnswer (proposal : DiffProposal) (record : DiffApplyRecord) : DiffProposalApplyResult where
  statusCode := if record.applied then 200 else 409
  proposal := some proposal
  applyRecord := some record
  decision := {
    allow := record.applied
    reasons := if record.applied then ["diff proposal applied"] else []
    denials := match record.blocker with
      | some blocker => if blocker = "" then [] else [blocker]
      | none => []
    requiresHuman := !record.applied }

/-- `DiffProposalService.apply`. -/
def applyProposal (env : ProposalEnv) (c : ApplyCall Loc) (w : World Loc) :
    Except RepoError DiffProposalApplyResult × World Loc :=
  match (loadDiffProposal c.proposalId).run w.store with
  | (.error (.keyError _), s) =>
    (.ok {
      statusCode := 404
      proposal := none
      applyRecord := none
      decision := {
        allow := false
        denials := ["diff proposal " ++ recordIdText "diff-proposal-" c.proposalId ++ " not found"]
        requiresHuman := true } }, ⟨s, w.disk⟩)
  | (.error e, s) => (.error (.python e), ⟨s, w.disk⟩)
  | (.ok proposal, s) =>
    match applyApprovedDiffProposal c.paths env.sha256 proposal c.verifier c.releaseGuardian c.now
        w.disk with
    | (.error e, d) => (.error e, ⟨s, d⟩)
    | (.ok record, d) =>
      match (saveDiffApplyRecord record).run s with
      | (.error e, s') => (.error (.python e), ⟨s', d⟩)
      | (.ok saved, s') =>
        match (updateDiffProposalStatus proposal.1.proposalId (statusOf record.1)).run s' with
        | (.error e, s'') => (.error (.python e), ⟨s'', d⟩)
        | (.ok updated, s'') => (.ok (applyAnswer updated.1 saved.1), ⟨s'', d⟩)

/-- `DiffProposalService.create`. -/
def createProposal (env : ProposalEnv) (request : DiffProposalRequest) (now : DateTime)
    (w : World Loc) : Except PyError DiffProposalCreateResult × World Loc :=
  let out := (submitDiffProposal (fun t => env.sha256 t.toUTF8) env.str request now).run w.store
  (out.1, ⟨out.2, w.disk⟩)

/-! ## Runs -/

/-- A call of the service. -/
inductive ProposalCall (Loc : Type) where
  | create (request : DiffProposalRequest) (now : DateTime)
  | apply (c : ApplyCall Loc)

/-- The world after a call. -/
def ProposalCall.step (env : ProposalEnv) (w : World Loc) : ProposalCall Loc → World Loc
  | .create request now => (createProposal env request now w).2
  | .apply c => (applyProposal env c w).2

/-- The world after some calls. -/
def runCalls (env : ProposalEnv) (w : World Loc) : List (ProposalCall Loc) → World Loc
  | [] => w
  | c :: rest => runCalls env (c.step env w) rest

/-- Every call of a run satisfies `G` in the world that it is made in. -/
def CallsAlong (env : ProposalEnv) (G : World Loc → ProposalCall Loc → Prop) (w : World Loc) :
    List (ProposalCall Loc) → Prop
  | [] => True
  | c :: rest => G w c ∧ CallsAlong env G (c.step env w) rest

/-- The rule for runs: what every call of the run keeps, and what follows for the call. -/
theorem callsAlong_of {env : ProposalEnv} {I : World Loc → Prop}
    {G Q : World Loc → ProposalCall Loc → Prop}
    (hstep : ∀ w c, I w → G w c → I (c.step env w) ∧ Q w c) :
    ∀ (calls : List (ProposalCall Loc)) (w : World Loc), I w → CallsAlong env G w calls →
      I (runCalls env w calls) ∧ CallsAlong env Q w calls := by
  intro calls
  induction calls with
  | nil => exact fun w hw _ => ⟨hw, trivial⟩
  | cons c rest ih =>
    intro w hw hG
    obtain ⟨hnext, hQ⟩ := hstep w c hw hG.1
    obtain ⟨hend, hrest⟩ := ih _ hnext hG.2
    exact ⟨hend, hQ, hrest⟩

/-! ## Status and records -/

/-- The proposal has a record that says it was applied. -/
def HasApplied (s : Store) (proposalId : RecordId) : Prop :=
  ∃ a ∈ s.diffApplyRecords.rows, a.proposalId = proposalId ∧ a.payload.applied = true

/-- The status of every proposal is `applied` exactly when it has an applied record. -/
def StatusTells (s : Store) : Prop :=
  ∀ r ∈ s.diffProposals.rows, r.status = "applied" ↔ HasApplied s r.proposalId

/-- What holds in every state of a run: the status tells, records are of proposals that are there,
    and a proposal is stored under its own id. -/
structure ProposalsOk (s : Store) : Prop where
  status : StatusTells s
  recorded : ∀ a ∈ s.diffApplyRecords.rows, s.diffProposals.table.has a.proposalId = true
  named : ∀ r ∈ s.diffProposals.rows, r.payload.proposalId = r.proposalId

/-- The store with one more apply record, and the status that goes with it. -/
def recordedStore (s : Store) (record : DiffApplyRecord) (t : Table DiffApplyRow.recordId)
    (proposalId : RecordId) : Store :=
  { s with
    diffApplyRecords := t
    diffProposals := s.diffProposals.mapRows (setProposalStatus proposalId (statusOf record))
      (setProposalStatus_key proposalId (statusOf record)) }

/-! ## What a call does -/

omit [DecidableEq Loc] in
theorem run_loadDiffProposal (proposalId : RecordId) (s : Store) :
    (loadDiffProposal proposalId).run s =
      (fetched (recordIdText "diff-proposal-" proposalId) DiffProposalRow.payload
        (s.diffProposals.table.find? proposalId), s) := rfl

/-- Saving a record of a proposal that is there, under an id that is not taken. -/
theorem run_saveDiffApplyRecord {record : Checked DiffApplyRecord} {s : Store}
    {t : Table DiffApplyRow.recordId} (hhas : s.diffProposals.table.has record.1.proposalId = true)
    (hinsert : s.diffApplyRecords.insert (diffApplyRow record.1) = some t) :
    (saveDiffApplyRecord record).run s = (.ok record, { s with diffApplyRecords := t }) := by
  unfold saveDiffApplyRecord
  rw [run_storeCall, Program.run_bind, run_execute, if_pos hhas, hinsert]
  rfl

/-- Under an id that is taken the record is refused. -/
theorem run_saveDiffApplyRecord_refused {record : Checked DiffApplyRecord} {s : Store}
    (hinsert : s.diffApplyRecords.insert (diffApplyRow record.1) = none) :
    (saveDiffApplyRecord record).run s = (.error .integrityError, s) := by
  unfold saveDiffApplyRecord
  rw [run_storeCall, Program.run_bind, run_execute, hinsert, ite_self]

/-- Setting the status of a proposal that can be loaded. -/
theorem run_updateDiffProposalStatus {proposalId : RecordId} {status : String} {s : Store}
    {proposal : Checked DiffProposal}
    (h : fetched (recordIdText "diff-proposal-" proposalId) DiffProposalRow.payload
      (s.diffProposals.table.find? proposalId) = .ok proposal) :
    (updateDiffProposalStatus proposalId status).run s = (.ok proposal, { s with
      diffProposals := s.diffProposals.mapRows (setProposalStatus proposalId status)
        (setProposalStatus_key proposalId status) }) := by
  unfold updateDiffProposalStatus
  rw [run_storeCall, Program.run_bind, run_loadDiffProposal, h]
  rfl

/-- An apply call whose record has a new id. -/
theorem applyProposal_recorded {env : ProposalEnv} {c : ApplyCall Loc} {w : World Loc}
    {proposal : Checked DiffProposal} {record : Checked DiffApplyRecord} {d : Disk Loc}
    {t : Table DiffApplyRow.recordId}
    (hload : fetched (recordIdText "diff-proposal-" c.proposalId) DiffProposalRow.payload
      (w.store.diffProposals.table.find? c.proposalId) = .ok proposal)
    (hid : proposal.1.proposalId = c.proposalId)
    (hhas : w.store.diffProposals.table.has c.proposalId = true)
    (hcall : applyApprovedDiffProposal c.paths env.sha256 proposal c.verifier c.releaseGuardian
      c.now w.disk = (.ok record, d))
    (hinsert : w.store.diffApplyRecords.insert (diffApplyRow record.1) = some t) :
    (applyProposal env c w).2 = ⟨recordedStore w.store record.1 t c.proposalId, d⟩ := by
  have hrecordId : record.1.proposalId = c.proposalId := (applyApproved_stamp hcall).1.trans hid
  -- the proposal is still there, so its status can be set
  have hupdate := @run_updateDiffProposalStatus c.proposalId (statusOf record.1)
    { w.store with diffApplyRecords := t } proposal hload
  have hsave := run_saveDiffApplyRecord (hrecordId ▸ hhas) hinsert
  unfold applyProposal
  rw [run_loadDiffProposal, hload]
  simp only [hcall, hsave, hid, hupdate]
  rfl

/-- What an apply call leaves: the world as it was, or the disk of the application, and then the
    store as it was or with the record of the application. -/
theorem applyProposal_cases (env : ProposalEnv) (c : ApplyCall Loc) (w : World Loc)
    (hok : ProposalsOk w.store) :
    (applyProposal env c w).2 = w ∨
    ∃ (row : DiffProposalRow) (proposal : Checked DiffProposal),
      w.store.diffProposals.table.find? c.proposalId = some row ∧ proposal.1 = row.payload ∧
      proposal.1.proposalId = c.proposalId ∧
      (applyProposal env c w).2.disk = (applyApprovedDiffProposal c.paths env.sha256 proposal
        c.verifier c.releaseGuardian c.now w.disk).2 ∧
      ((applyProposal env c w).2.store = w.store ∨ ∃ record t,
        (applyApprovedDiffProposal c.paths env.sha256 proposal c.verifier c.releaseGuardian c.now
          w.disk).1 = .ok record ∧
        w.store.diffApplyRecords.insert (diffApplyRow record.1) = some t ∧
        (applyProposal env c w).2.store = recordedStore w.store record.1 t c.proposalId) := by
  cases hload : fetched (recordIdText "diff-proposal-" c.proposalId) DiffProposalRow.payload
      (w.store.diffProposals.table.find? c.proposalId) with
  | error e =>
    left
    unfold applyProposal
    rw [run_loadDiffProposal, hload]
    cases e <;> rfl
  | ok proposal =>
    obtain ⟨row, hrow, hbuild⟩ := fetched_eq_ok.mp hload
    have hpayload : proposal.1 = row.payload := Model.build_eq_ok hbuild
    have hid : proposal.1.proposalId = c.proposalId := by
      rw [hpayload, hok.named row (Table.mem_of_find? hrow)]
      exact Table.key_of_find? hrow
    have hhas : w.store.diffProposals.table.has c.proposalId = true :=
      Table.has_iff.mpr ⟨row, hrow⟩
    refine Or.inr ⟨row, proposal, hrow, hpayload, hid, ?_⟩
    rcases hcall : applyApprovedDiffProposal c.paths env.sha256 proposal c.verifier
      c.releaseGuardian c.now w.disk with ⟨out, d⟩
    cases out with
    | error e =>
      unfold applyProposal
      rw [run_loadDiffProposal, hload]
      simp only [hcall]
      exact ⟨trivial, Or.inl trivial⟩
    | ok record =>
      cases hinsert : w.store.diffApplyRecords.insert (diffApplyRow record.1) with
      | none =>
        unfold applyProposal
        rw [run_loadDiffProposal, hload]
        simp only [hcall, run_saveDiffApplyRecord_refused hinsert]
        exact ⟨trivial, Or.inl trivial⟩
      | some t =>
        rw [applyProposal_recorded hload hid hhas hcall hinsert]
        exact ⟨rfl, Or.inr ⟨record, t, rfl, hinsert, rfl⟩⟩

/-! ## What a call keeps -/

omit [DecidableEq Loc] in
theorem hasApplied_insert {s : Store} {record : DiffApplyRecord} {t : Table DiffApplyRow.recordId}
    {proposalId id : RecordId} (h : s.diffApplyRecords.insert (diffApplyRow record) = some t) :
    HasApplied (recordedStore s record t proposalId) id ↔
      HasApplied s id ∨ (record.proposalId = id ∧ record.applied = true) := by
  have hrows := (Table.insert_eq_some.mp h).2
  unfold HasApplied
  show (∃ a ∈ t.rows, _) ↔ _
  rw [hrows]
  constructor
  · rintro ⟨a, ha, hid, happlied⟩
    rcases List.mem_append.mp ha with ha | ha
    · exact Or.inl ⟨a, ha, hid, happlied⟩
    · rw [List.mem_singleton.mp ha] at hid happlied
      exact Or.inr ⟨hid, happlied⟩
  · rintro (⟨a, ha, hid, happlied⟩ | ⟨hid, happlied⟩)
    · exact ⟨a, List.mem_append_left _ ha, hid, happlied⟩
    · exact ⟨diffApplyRow record, List.mem_append_right _ (List.mem_cons_self ..), hid, happlied⟩

omit [DecidableEq Loc] in
theorem find?_recordedStore (s : Store) (record : DiffApplyRecord)
    (t : Table DiffApplyRow.recordId) (proposalId id : RecordId) :
    (recordedStore s record t proposalId).diffProposals.table.find? id =
      (s.diffProposals.table.find? id).map (setProposalStatus proposalId (statusOf record)) :=
  Table.find?_mapRows s.diffProposals.table (setProposalStatus proposalId (statusOf record))
    (setProposalStatus_key proposalId (statusOf record)) id

/-- Recording keeps the states in order, unless it denies a proposal that has an applied record. -/
theorem proposalsOk_recorded {s : Store} {record : DiffApplyRecord}
    {t : Table DiffApplyRow.recordId} {proposalId : RecordId} (hok : ProposalsOk s)
    (hinsert : s.diffApplyRecords.insert (diffApplyRow record) = some t)
    (hid : record.proposalId = proposalId) (hhas : s.diffProposals.table.has proposalId = true)
    (hstays : HasApplied s proposalId → record.applied = true) :
    ProposalsOk (recordedStore s record t proposalId) := by
  have hrows := (Table.insert_eq_some.mp hinsert).2
  refine ⟨fun r hr => ?_, fun a ha => ?_, fun r hr => ?_⟩
  · obtain ⟨x, hx, rfl⟩ := List.mem_map.mp hr
    rw [hasApplied_insert hinsert, setProposalStatus_key]
    by_cases hkey : x.proposalId = proposalId
    · have hset : (setProposalStatus proposalId (statusOf record) x).status = statusOf record := by
        rw [setProposalStatus, if_pos hkey]
      rw [hset, hkey, hid]
      cases happlied : record.applied with
      | true =>
        have htext : statusOf record = "applied" := by rw [statusOf, happlied]; rfl
        exact ⟨fun _ => Or.inr ⟨rfl, rfl⟩, fun _ => htext⟩
      | false =>
        have htext : statusOf record = "denied" := by rw [statusOf, happlied]; rfl
        rw [htext]
        constructor
        · intro h
          exact absurd h (by decide)
        · rintro (h | ⟨-, h⟩)
          · rw [hstays h] at happlied
            cases happlied
          · cases h
    · have hset : setProposalStatus proposalId (statusOf record) x = x := by
        rw [setProposalStatus, if_neg hkey]
      rw [hset, hok.status x hx]
      constructor
      · exact Or.inl
      · rintro (h | ⟨h, -⟩)
        · exact h
        · exact absurd (h.symm.trans hid) hkey
  · have hkept : ∀ k, s.diffProposals.table.has k = true →
        (recordedStore s record t proposalId).diffProposals.table.has k = true := by
      intro k hk
      obtain ⟨x, hx⟩ := Table.has_iff.mp hk
      refine Table.has_iff.mpr ⟨setProposalStatus proposalId (statusOf record) x, ?_⟩
      rw [find?_recordedStore, hx]
      rfl
    have ha' : a ∈ t.rows := ha
    rw [hrows] at ha'
    rcases List.mem_append.mp ha' with ha' | ha'
    · exact hkept _ (hok.recorded a ha')
    · rw [List.mem_singleton.mp ha']
      refine hkept _ ?_
      show s.diffProposals.table.has record.proposalId = true
      rw [hid]
      exact hhas
  · obtain ⟨x, hx, rfl⟩ := List.mem_map.mp hr
    rw [setProposalStatus_key, ← hok.named x hx]
    unfold setProposalStatus
    split <;> rfl

/-! ## Along a run -/

/-- A call for a proposal that has an applied record is one that raises, or that is approved and
    changes nothing. -/
def MayCall (w : World Loc) : ProposalCall Loc → Prop
  | .create _ _ => True
  | .apply c => HasApplied w.store c.proposalId →
      ∀ row, w.store.diffProposals.table.find? c.proposalId = some row →
        ReappliesInPlace c.paths row.payload c.verifier c.releaseGuardian w.disk

/-- Is this an apply call for the proposal? -/
def ProposalCall.IsFor (proposalId : RecordId) : ProposalCall Loc → Prop
  | .create _ _ => False
  | .apply c => c.proposalId = proposalId

/-- Before the call, every status tells of an applied record; a proposal that has one keeps it and
    the status, and a call for it changes no file. -/
structure AppliedOnce (env : ProposalEnv) (w : World Loc) (call : ProposalCall Loc) : Prop where
  status : StatusTells w.store
  stays : ∀ id, HasApplied w.store id → HasApplied (call.step env w).store id ∧
    ∀ r ∈ (call.step env w).store.diffProposals.rows, r.proposalId = id → r.status = "applied"
  unchanged : ∀ id, HasApplied w.store id → call.IsFor id → (call.step env w).disk = w.disk

omit [DecidableEq Loc] in
/-- A new proposal has no applied record yet: its id is new. -/
theorem createProposal_ok (env : ProposalEnv) (request : DiffProposalRequest) (now : DateTime)
    (w : World Loc) (hok : ProposalsOk w.store) :
    ProposalsOk (createProposal env request now w).2.store ∧
    (createProposal env request now w).2.store.diffApplyRecords = w.store.diffApplyRecords := by
  unfold createProposal submitDiffProposal
  cases hcreate : createDiffProposal (fun t => env.sha256 t.toUTF8) request now with
  | error e => exact ⟨hok, rfl⟩
  | ok p =>
    refine ⟨⟨fun r hr => ?_, fun a ha => ?_, fun r hr => ?_⟩, rfl⟩
    · rcases List.mem_append.mp hr with hr | hr
      · exact hok.status r hr
      · -- the records are of proposals that were there before
        have hid : r.proposalId = .generated w.store.diffProposals.drawn := by
          rw [List.mem_singleton.mp hr]
          exact p.2.1 _
        have hproposed : r.status = "proposed" := by rw [List.mem_singleton.mp hr]; rfl
        rw [hproposed, hid]
        constructor
        · intro h
          exact absurd h (by decide)
        · rintro ⟨a, ha, hkey, -⟩
          obtain ⟨x, hx⟩ := Table.has_iff.mp (hok.recorded a ha)
          have hfresh := w.store.diffProposals.fresh x (Table.mem_of_find? hx)
            w.store.diffProposals.drawn ((Table.key_of_find? hx).trans hkey)
          exact absurd hfresh (Nat.lt_irrefl _)
    · have hrow : ∀ k, (diffProposalRow "proposed" (p.1 k)).proposalId = k := p.2.1
      obtain ⟨x, hx⟩ := Table.has_iff.mp (hok.recorded a ha)
      have hinsert := Minted.insert_append w.store.diffProposals
        (fun k => diffProposalRow "proposed" (p.1 k)) hrow
      refine Table.has_iff.mpr ⟨x, ?_⟩
      refine (Table.find?_insert hinsert a.proposalId).trans ?_
      split
      · rename_i hkey
        have hnone := (Table.insert_eq_some.mp hinsert).1
        rw [hkey, hx] at hnone
        cases hnone
      · exact hx
    · rcases List.mem_append.mp hr with hr | hr
      · exact hok.named r hr
      · rw [List.mem_singleton.mp hr]
        rfl

theorem appliedOnce_of (env : ProposalEnv) (w : World Loc) (call : ProposalCall Loc)
    (hok : ProposalsOk w.store) (hnext : ProposalsOk (call.step env w).store)
    (hkept : ∀ id, HasApplied w.store id → HasApplied (call.step env w).store id)
    (hunchanged : ∀ id, HasApplied w.store id → call.IsFor id → (call.step env w).disk = w.disk) :
    AppliedOnce env w call where
  status := hok.status
  stays id hid := ⟨hkept id hid, fun r hr hkey => (hnext.status r hr).mpr (hkey ▸ hkept id hid)⟩
  unchanged := hunchanged

/-- One call of a run: the states stay in order, and nothing is applied twice. -/
theorem call_ok (env : ProposalEnv) (w : World Loc) (call : ProposalCall Loc)
    (hok : ProposalsOk w.store) (hmay : MayCall w call) :
    ProposalsOk (call.step env w).store ∧ AppliedOnce env w call := by
  cases call with
  | create request now =>
    obtain ⟨hnext, hrecords⟩ := createProposal_ok env request now w hok
    refine ⟨hnext, appliedOnce_of env w _ hok hnext (fun id hid => ?_) fun id _ hfor => hfor.elim⟩
    show HasApplied (createProposal env request now w).2.store id
    unfold HasApplied
    rw [hrecords]
    exact hid
  | apply c =>
    rcases applyProposal_cases env c w hok with
      hsame | ⟨row, proposal, hrow, hpayload, hid, hdisk, hstore⟩
    · have hstep : (ProposalCall.apply c).step env w = w := hsame
      have hnext : ProposalsOk ((ProposalCall.apply c).step env w).store := by rw [hstep]; exact hok
      refine ⟨hnext, appliedOnce_of env w _ hok hnext (fun id hid => ?_) fun _ _ _ => ?_⟩
      · rw [hstep]
        exact hid
      · rw [hstep]
    · -- an application for a proposal that has an applied record changes nothing
      have hagain : HasApplied w.store c.proposalId →
          (applyProposal env c w).2.disk = w.disk ∧ ∀ record,
            (applyApprovedDiffProposal c.paths env.sha256 proposal c.verifier c.releaseGuardian
              c.now w.disk).1 = .ok record → record.1.applied = true := by
        intro happlied
        have hplace := hmay happlied row hrow
        rw [← hpayload] at hplace
        rw [hdisk]
        rcases applyApproved_inPlace env.sha256 c.now hplace with ⟨e, he⟩ | ⟨record, hr, hrecord⟩
        · rw [he]
          exact ⟨rfl, fun record h => by cases h⟩
        · rw [hr]
          exact ⟨rfl, fun record' h => by cases h; exact hrecord⟩
      have hunchanged : ∀ id, HasApplied w.store id → (ProposalCall.apply c).IsFor id →
          ((ProposalCall.apply c).step env w).disk = w.disk := by
        rintro id hid' rfl
        exact (hagain hid').1
      rcases hstore with hstore | ⟨record, t, hout, hinsert, hstore⟩
      · have hstep : ((ProposalCall.apply c).step env w).store = w.store := hstore
        have hnext : ProposalsOk ((ProposalCall.apply c).step env w).store := by
          rw [hstep]
          exact hok
        refine ⟨hnext, appliedOnce_of env w _ hok hnext (fun id hid => ?_) hunchanged⟩
        rw [hstep]
        exact hid
      · have hstep : ((ProposalCall.apply c).step env w).store =
            recordedStore w.store record.1 t c.proposalId := hstore
        have hrecordId : record.1.proposalId = c.proposalId := by
          rw [← hid]
          exact (applyApproved_stamp (Prod.ext hout rfl)).1
        have hnext : ProposalsOk ((ProposalCall.apply c).step env w).store := by
          rw [hstep]
          exact proposalsOk_recorded hok hinsert hrecordId (Table.has_iff.mpr ⟨row, hrow⟩)
            fun h => (hagain h).2 record hout
        refine ⟨hnext, appliedOnce_of env w _ hok hnext (fun id hid' => ?_) hunchanged⟩
        rw [hstep]
        exact (hasApplied_insert hinsert).mpr (Or.inl hid')

omit [DecidableEq Loc] in
/-- A record under a new id can be saved. -/
theorem insert_of_fresh {s : Store} {record : DiffApplyRecord}
    (h : ∀ a ∈ s.diffApplyRecords.rows, a.recordId ≠ (diffApplyRow record).recordId) :
    ∃ t, s.diffApplyRecords.insert (diffApplyRow record) = some t := by
  cases hinsert : s.diffApplyRecords.insert (diffApplyRow record) with
  | some t => exact ⟨t, rfl⟩
  | none =>
    obtain ⟨a, ha⟩ := Table.has_iff.mp (Table.insert_eq_none.mp hinsert)
    exact absurd (Table.key_of_find? ha) (h a (Table.mem_of_find? ha))

/-- The id of the record that a call would save. -/
def ApplyCall.recordId (c : ApplyCall Loc) : String :=
  recordIdText "diff-proposal-" c.proposalId ++ "-apply-" ++ c.now.isoformat

/-- A call without both approvals, for a proposal that has an applied record, leaves a status that
    does not tell. -/
theorem denied_after_applied (env : ProposalEnv) {w : World Loc} {c : ApplyCall Loc}
    {row : DiffProposalRow} {denial : String} (hok : ProposalsOk w.store)
    (hrow : w.store.diffProposals.table.find? c.proposalId = some row)
    (hvalid : Model.Valid row.payload) (happlied : HasApplied w.store c.proposalId)
    (hdenial : approvalBlocker c.verifier c.releaseGuardian = some denial)
    (hnew : ∀ a ∈ w.store.diffApplyRecords.rows, a.recordId ≠ c.recordId) :
    ¬ StatusTells ((ProposalCall.apply c).step env w).store := by
  have hid : row.payload.proposalId = c.proposalId := by
    rw [hok.named row (Table.mem_of_find? hrow)]
    exact Table.key_of_find? hrow
  have hload : fetched (recordIdText "diff-proposal-" c.proposalId) DiffProposalRow.payload
      (w.store.diffProposals.table.find? c.proposalId) = .ok ⟨row.payload, hvalid⟩ :=
    fetched_eq_ok.mpr ⟨row, hrow, Model.build_of_valid hvalid⟩
  obtain ⟨record, hcall, hnot⟩ := @applyApproved_denied _ _ c.paths env.sha256
    ⟨row.payload, hvalid⟩ c.verifier c.releaseGuardian c.now w.disk _ hdenial
  obtain ⟨hproposal, hcreated⟩ := applyApproved_stamp hcall
  have hrecordId : (diffApplyRow record.1).recordId = c.recordId := by
    unfold diffApplyRow ApplyCall.recordId
    rw [hproposal, hcreated, hid]
  obtain ⟨t, hinsert⟩ := @insert_of_fresh w.store record.1
    fun a ha => hrecordId ▸ hnew a ha
  have hstep := applyProposal_recorded hload hid (Table.has_iff.mpr ⟨row, hrow⟩) hcall hinsert
  intro htells
  have hstore : ((ProposalCall.apply c).step env w).store =
      recordedStore w.store record.1 t c.proposalId := congrArg World.store hstep
  rw [hstore] at htells
  -- the status of the proposal is that of the last record
  have hmem : setProposalStatus c.proposalId (statusOf record.1) row ∈
      (recordedStore w.store record.1 t c.proposalId).diffProposals.rows :=
    List.mem_map_of_mem (Table.mem_of_find? hrow)
  have hstatus : (setProposalStatus c.proposalId (statusOf record.1) row).status = "denied" := by
    rw [setProposalStatus, if_pos (Table.key_of_find? hrow), statusOf, hnot]
    rfl
  have hkept := (htells _ hmem).mpr (by
    rw [setProposalStatus_key, Table.key_of_find? hrow]
    exact (hasApplied_insert hinsert).mpr (Or.inl happlied))
  rw [hstatus] at hkept
  exact absurd hkept (by decide)

end Service

/-! ## A proposal that is applied, and then denied -/

/-- A digest that is one, whatever it is of. -/
def zeroDigest : ByteArray → String := fun _ =>
  "0000000000000000000000000000000000000000000000000000000000000000"

def plainEnv : ProposalEnv := ⟨zeroDigest, fun _ => "error"⟩

/-- A proposal for the first line of `notes.txt`. -/
def notesRequest : DiffProposalRequest where
  runId := "run-1"
  taskId := "task-1"
  submittedBy := "builder-1"
  role := "builder"
  patchText := String.ofList (notesSection firstLineHunk)
  changedFiles := ["notes.txt"]
  summary := "Change the first line."

def notesProposal (id : RecordId) : DiffProposal :=
  proposalData (fun t => plainEnv.sha256 t.toUTF8) notesRequest ["notes.txt"] ⟨0, none⟩ id

theorem zeroDigest_isDigest (b : ByteArray) : isDigest (zeroDigest b) = true := by
  show isDigest "0000000000000000000000000000000000000000000000000000000000000000" = true
  decide

/-- An apply call for the first proposal, at some second. -/
def applyNotes (second : Int) (allow : Bool) : ApplyCall String where
  proposalId := .generated 0
  paths := plainPaths
  verifier := { allow := allow }
  releaseGuardian := { allow := true }
  now := ⟨second * 1000000, none⟩

theorem proposalsOk_empty : ProposalsOk Store.empty :=
  ⟨fun _ hr => absurd hr List.not_mem_nil, fun _ ha => absurd ha List.not_mem_nil,
    fun _ hr => absurd hr List.not_mem_nil⟩

/-- The world after the proposal was created. -/
def notesCreated : World String :=
  ProposalCall.step plainEnv ⟨Store.empty, oneFile "notes.txt" twoLines⟩
    (.create notesRequest ⟨0, none⟩)

theorem notesCreated_ok : ProposalsOk notesCreated.store :=
  (createProposal_ok plainEnv notesRequest ⟨0, none⟩ _ proposalsOk_empty).1

theorem notesCreated_records : notesCreated.store.diffApplyRecords.rows = [] :=
  congrArg Table.rows (createProposal_ok plainEnv notesRequest ⟨0, none⟩
    ⟨Store.empty, oneFile "notes.txt" twoLines⟩ proposalsOk_empty).2

theorem notesProposal_valid : Model.Valid (notesProposal (.generated 0)) :=
  ⟨rfl, by decide⟩

theorem notesProposal_created : ∃ p, createDiffProposal (fun t => plainEnv.sha256 t.toUTF8)
    notesRequest ⟨0, none⟩ = .ok p ∧ ∀ k, p.1 k = notesProposal k := by
  have hfiles : normalizeChangedFiles notesRequest.changedFiles = .ok ["notes.txt"] := by
    decide
  unfold createDiffProposal
  simp only [hfiles]
  rw [dif_pos (show failedFields (Model.checks (proposalData (fun t => plainEnv.sha256 t.toUTF8)
    notesRequest ["notes.txt"] ⟨0, none⟩ (.generated 0))) = [] from notesProposal_valid.2)]
  exact ⟨_, rfl, fun _ => rfl⟩

/-- The created proposal, and the disk that it was created beside. -/
theorem notesCreated_row :
    notesCreated.store.diffProposals.table.find? (.generated 0) =
      some (diffProposalRow "proposed" (notesProposal (.generated 0))) ∧
    notesCreated.disk = oneFile "notes.txt" twoLines := by
  obtain ⟨p, hp, hdata⟩ := notesProposal_created
  have hstep : notesCreated = (createProposal plainEnv notesRequest ⟨0, none⟩
      ⟨Store.empty, oneFile "notes.txt" twoLines⟩).2 := rfl
  rw [hstep]
  unfold createProposal submitDiffProposal
  simp only [hp]
  refine ⟨?_, trivial⟩
  show List.find? _ [diffProposalRow "proposed" (p.1 (.generated 0))] = _
  rw [hdata]
  rfl

theorem notes_planned : planWrites plainPaths (oneFile "notes.txt" twoLines)
    (parseUnifiedDiff (notesProposal (.generated 0)).patchText.toList) =
      .ok [("notes.txt", "ONE\ntwo\n".toList)] := by
  have htext : (notesProposal (.generated 0)).patchText.toList = notesSection firstLineHunk :=
    String.toList_ofList
  rw [htext, parse_firstLine]
  exact planWrites_cons (plan_notes patch_firstLine) rfl

end Vad
