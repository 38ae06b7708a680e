/-
  The roles on privileged events.

  `ingest` checks the role of an event whose kind is privileged, and records a denial in its place.
  The other writers of the ledger check nothing.  They need not: the events they make are of kinds
  that nobody needs a role for — with one exception.  After it has requeued the work of a silent
  client, the stale scan records a `recovery_action` whose role is the trust state of that client,
  and no trust state is a role.

  1. `RecordsRecovery` says that a program is in that branch;
  2. every other call of every writer keeps the roles (`roles_rule`, `roles_ingest`);
  3. so they are kept under every schedule in which no scan enters the branch
     (`privileged_roles`).
-/
import Vad.Server.LedgerNumbering
import Vad.Server.StaleRecovery

namespace Vad

open Keyed (Table Minted RecordId)
open Atomic (Program Pool)
open Atomic.Program (Safe SafeUnless Returns)

/-! ## Roles -/

/-- The role of the event is one that its kind asks for, if it asks for any. -/
def RoleAllowed (e : EventFields) : Prop :=
  ∀ roles, privilegedEventRoles e.kind = some roles → e.role ∈ roles

/-- Every event of the ledger has a role that its kind allows. -/
def RolesOk (s : Store) : Prop := ∀ row ∈ s.ledger, RoleAllowed row.payload.toEventFields

theorem roleAllowed_of_plain {e : EventFields} (h : privilegedEventRoles e.kind = none) :
    RoleAllowed e := by
  intro roles hroles
  rw [h] at hroles
  cases hroles

theorem allow_iff_roleAllowed (e : EventFields) :
    (ingestionDecision e).allow = true ↔ RoleAllowed e := by
  unfold ingestionDecision RoleAllowed
  cases privilegedEventRoles e.kind with
  | none => exact ⟨fun _ roles h => (by cases h), fun _ => rfl⟩
  | some roles =>
    by_cases hrole : e.role ∈ roles
    · simp [hrole]
    · simp [hrole]

/-- The program is about to record that it requeued the work of a silent client. -/
def RecordsRecovery {α : Type} (p : Db α) : Prop :=
  ∃ snapshot item now, ∃ k : Checked ControlPlaneEvent → Db α,
    p = appendEvent (recoveryEvent snapshot item now) >>= k

/-- The role of that record is a trust state, and no trust state is a role. -/
theorem recoveryEvent_not_allowed (snapshot : ClientStatusSnapshot) (item : WorkItem)
    (now : DateTime) (n : Nat) : ¬ RoleAllowed (recoveryEvent snapshot item now n) := by
  intro h
  have hrole : snapshot.manifest.1.trustState.value ∈ ["operator", "release_guardian"] := h _ rfl
  cases htrust : snapshot.manifest.1.trustState <;> rw [htrust] at hrole <;> revert hrole <;> decide

theorem recordsRecovery_bind {α β : Type} {p : Db α} (k : α → Db β) (h : RecordsRecovery p) :
    RecordsRecovery (p >>= k) := by
  obtain ⟨snapshot, item, now, rest, rfl⟩ := h
  exact ⟨snapshot, item, now, fun event => rest event >>= k, Program.bind_bind ..⟩

/-- The branch begins with a call that only reads. -/
theorem RecordsRecovery.next_eq {α : Type} {next : Store → Store} {cont : Store → Db α}
    (h : RecordsRecovery (Program.call next cont)) (s : Store) : next s = s := by
  obtain ⟨snapshot, item, now, k, heq⟩ := h
  have hnext : next = fun s => s := (Program.call.inj heq).1
  rw [hnext]

/-! ## What keeps the roles -/

section Kept

variable {s : Store}

theorem rolesOk_empty (evidence : Table RunEvidenceRow.runId) :
    RolesOk { Store.empty with runEvidence := evidence } :=
  fun _ hrow => absurd hrow List.not_mem_nil

theorem RolesOk.putEvent (hs : RolesOk s) {e : EventFields} (he : RoleAllowed e) :
    RolesOk (s.putEvent e) := Minted.forall_append hs he

/-- What keeps the ledger keeps the roles. -/
theorem roles_of_kept {α : Type} {p : Db α} (h : LedgerKeptProgram p) : Safe RolesOk Any p := by
  have hkept : Safe (fun s => True ∧ RolesOk s) LedgerKept p :=
    h.invariant fun s s' _ hsame hs row hrow => hs row (hsame ▸ hrow)
  have hboth : (fun s => True ∧ RolesOk s) = RolesOk := funext fun s => true_and _
  rw [hboth] at hkept
  exact hkept.mono fun _ _ _ _ => trivial

theorem roles_appendGenerated {e : EventFields} (h : e.ok = true) (he : RoleAllowed e) :
    Safe RolesOk Any (appendGeneratedEvent e h) :=
  Program.safe_atomic fun _ hs => ⟨trivial, hs.putEvent he⟩

theorem roles_appendEvent {fields : Nat → EventFields} (h : ∀ n, RoleAllowed (fields n)) :
    Safe RolesOk Any (appendEvent fields) := by
  refine Program.safe_bind (roles_of_kept (ledgerKept_query _)) fun events => ?_
  show Safe _ _ (if hok : (fields (events.length + 1)).ok = true then _ else _)
  split
  · exact roles_appendGenerated _ (h _)
  · trivial

theorem roles_transition (id : String) (target : WorkItemStatus) (caller : Caller)
    (change : WorkItemChange) (summary : Option String) (now : DateTime) :
    Safe RolesOk Any (transition id target caller change summary now) := by
  refine Program.safe_bind (roles_of_kept (ledgerKept_query _)) fun current => ?_
  unfold transitionFrom
  split
  · refine Program.safe_bind (p := Program.done _) trivial fun updated => ?_
    refine Program.safe_bind (roles_of_kept (ledgerKept_storeWorkItem _)) fun saved => ?_
    refine Program.safe_bind (roles_of_kept (ledgerKept_upsertRunTaskState _)) fun _ => ?_
    exact Program.safe_bind (roles_appendEvent fun _ => roleAllowed_of_plain rfl) fun _ => trivial
  · exact Program.safe_bind (roles_appendEvent fun _ => roleAllowed_of_plain rfl) fun _ => trivial

theorem roles_createWorkItem (item : Checked WorkItem) (caller : Caller) (summary : Option String)
    (now : DateTime) : Safe RolesOk Any (createWorkItem item caller summary now) := by
  refine Program.safe_bind (roles_of_kept (ledgerKept_saveWorkItem item)) fun saved => ?_
  refine Program.safe_bind (roles_of_kept (ledgerKept_upsertRunTaskState _)) fun _ => ?_
  exact Program.safe_bind (roles_appendEvent fun _ => roleAllowed_of_plain rfl) fun _ => trivial

/-- The rule of the roles: every request that brings no event of its own keeps them, until it
    records a recovery. -/
theorem roles_rule :
    RequestRule (fun _ => True) (fun {_} p => SafeUnless RecordsRecovery RolesOk p) where
  done _ := trivial
  bind hp hk := Program.safeUnless_bind hp (fun _ h => recordsRecovery_bind _ h) hk
  query f := Program.safeUnless_of_safe (roles_of_kept (ledgerKept_query f))
  registerClientManifest m :=
    Program.safeUnless_of_safe (roles_of_kept (ledgerKept_offClients.registerClientManifest m))
  unregisterClientManifest id :=
    Program.safeUnless_of_safe (roles_of_kept (ledgerKept_offClients.unregisterClientManifest id))
  recordClientHeartbeat b :=
    Program.safeUnless_of_safe (roles_of_kept (ledgerKept_offClients.recordClientHeartbeat b))
  markClientStale id := Program.safeUnless_of_safe (roles_of_kept (ledgerKept_offClients.markClientStale id))
  saveTaskLease l _ := Program.safeUnless_of_safe (roles_of_kept (ledgerKept_offClients.saveTaskLease l))
  appendEvent fields h := by
    rcases h.privileged with hplain | ⟨snapshot, item, now, rfl⟩
    · exact Program.safeUnless_of_safe (roles_appendEvent fun n => roleAllowed_of_plain (hplain n))
    · exact Or.inl ⟨snapshot, item, now, fun event => pure event, (Program.bind_pure _).symm⟩
  createWorkItem item caller summary now :=
    Program.safeUnless_of_safe (roles_createWorkItem item caller summary now)
  transition id target caller change summary now :=
    Program.safeUnless_of_safe (roles_transition id target caller change summary now)
  saveDiffProposal p hid _ :=
    Program.safeUnless_of_safe (roles_of_kept (ledgerKept_saveDiffProposal p hid))
  saveApprovalEvent e hid :=
    Program.safeUnless_of_safe (roles_of_kept (ledgerKept_saveApprovalEvent e hid))

theorem roles_appendNumbered {e : EventFields} (he : e.ok = true → RoleAllowed e) :
    Safe RolesOk Any (appendNumbered e) := by
  unfold appendNumbered
  split
  · rename_i hok
    split
    · exact roles_appendGenerated hok (he hok)
    · trivial
  · trivial

/-- `ingest` checks the role before it appends. -/
theorem roles_ingest (e : EventFields) (eventId : Option RecordId) (now : DateTime) :
    Safe RolesOk Any (ingest e eventId now) := by
  have hrole (hpass : rejectedPayload e eventId = true ∨ (ingestionDecision e).allow = true)
      (haccepted : rejectedPayload e eventId = false) : RoleAllowed e := by
    rcases hpass with hrejected | hallow
    · rw [haccepted] at hrejected
      cases hrejected
    · exact (allow_iff_roleAllowed e).mp hallow
  unfold ingest
  simp only [Bool.or_eq_true]
  split
  · rename_i hpass
    refine Program.safe_bind ?_ fun _ => trivial
    cases eventId with
    | none =>
      refine roles_appendNumbered fun hok => hrole hpass ?_
      simp [rejectedPayload, hok]
    | some id =>
      show Safe _ _ (Program.done (Model.build (⟨e, id⟩ : ControlPlaneEvent)) >>= _)
      cases hbuild : Model.build (⟨e, id⟩ : ControlPlaneEvent) with
      | error x => trivial
      | ok event =>
        -- the event was built, so its payload was not the reason to pass
        have hevent : event.1 = ⟨e, id⟩ := Model.build_eq_ok hbuild
        have hvalid := failedFields_eq_nil.mp event.2.2
        rw [hevent] at hvalid
        simp only [Model.checks, List.forall_mem_cons] at hvalid
        have hok : e.ok = true := decide_eq_true (failedFields_eq_nil.mpr hvalid.2)
        have hallowed : RoleAllowed e := hrole hpass (by simp [rejectedPayload, hok, hvalid.1])
        refine Program.safe_atomic fun s hs => ⟨trivial, ?_⟩
        rw [Program.run_bind, run_execute]
        by_cases hnumber : event.1.sequence < 2 ^ 63
        · rw [if_pos hnumber]
          cases hinsert : s.controlPlaneEvents.insert (eventRow event.1) with
          | none => exact hs
          | some t =>
            refine Minted.forall_insert hinsert hs ?_
            show RoleAllowed event.1.toEventFields
            rw [hevent]
            exact hallowed
        · rw [if_neg hnumber]
          exact hs
  · exact Program.safe_bind (roles_appendNumbered fun _ => roleAllowed_of_plain rfl) fun _ => trivial

theorem roles_emit (r : McpToolCallRecorder) (status : ControlPlaneEventStatus)
    (digest : Option String) (summary : String) (now : DateTime) :
    Safe RolesOk Any (emit r status digest summary now) :=
  Program.safe_bind (roles_of_kept (ledgerKept_query _)) fun _ =>
    Program.safe_bind (roles_ingest ..) fun _ => trivial

end Kept

/-! ## Refused ingestions -/

/-- A payload that makes an event, whose role its kind does not allow. -/
def Refused (e : EventFields) (eventId : Option RecordId) : Prop :=
  rejectedPayload e eventId = false ∧ (ingestionDecision e).allow = false

/-- The program adds one event to the ledger: a denial of `e` by name of the same client, run, task,
    actor and role. -/
def RecordsDenial (p : Db EventIngestionResult) (e : EventFields) (s : Store) : Prop :=
  ∃ r s' row, Returns p s r s' ∧ r.statusCode = 403 ∧ s'.ledger = s.ledger ++ [row] ∧
    row.payload.kind = .policyDenied ∧ row.payload.clientId = e.clientId ∧
    row.payload.runId = e.runId ∧ row.payload.taskId = e.taskId ∧
    row.payload.actor = e.actor ∧ row.payload.role = e.role

/-- The summary of a denial is never too long. -/
theorem denialSummary_ok {e : EventFields} (h : (ingestionDecision e).allow = false)
    (now : DateTime) :
    lengthWithin 1 500 (ingestionDenial e (ingestionDecision e) now).summary = true := by
  have hnot : ¬ RoleAllowed e := fun hallowed => by
    rw [(allow_iff_roleAllowed e).mpr hallowed] at h
    cases h
  have hclosed : ∀ kind : ControlPlaneEventKind, ∀ roles, privilegedEventRoles kind = some roles →
      lengthWithin 1 500 ("Policy denied " ++ kind.value ++ ": " ++
        "; ".intercalate [kind.value ++ " requires one of: " ++ ", ".intercalate roles]) = true := by
    intro kind roles hroles
    cases kind <;> cases hroles <;> decide
  unfold RoleAllowed at hnot
  simp only [not_forall] at hnot
  obtain ⟨roles, hroles, hrole⟩ := hnot
  have hdecision : (ingestionDecision e).denials =
      [e.kind.value ++ " requires one of: " ++ ", ".intercalate roles] := by
    simp only [ingestionDecision, hroles, if_neg hrole]
  show lengthWithin 1 500 ("Policy denied " ++ e.kind.value ++ ": " ++
    "; ".intercalate (ingestionDecision e).denials) = true
  rw [hdecision]
  exact hclosed e.kind roles hroles

/-- The denial of an event passes the checks that the event passed. -/
theorem ingestionDenial_ok {e : EventFields} (hok : e.ok = true)
    (h : (ingestionDecision e).allow = false) (now : DateTime) :
    (ingestionDenial e (ingestionDecision e) now).ok = true := by
  have hsummary := denialSummary_ok h now
  unfold EventFields.ok at hok ⊢
  rw [decide_eq_true_eq, failedFields_eq_nil] at hok ⊢
  simp only [EventFields.checks, List.forall_mem_cons] at hok ⊢
  obtain ⟨hclient, -, hrun, htask, hactor, hrole, hdigest, -, -⟩ := hok
  exact ⟨hclient, rfl, hrun, htask, hactor, hrole, hdigest, hsummary,
    fun _ hx => absurd hx List.not_mem_nil⟩

/-- A refused ingestion records its denial, when the number it brought fits into 64 bits. -/
theorem ingest_records_denial {e : EventFields} {eventId : Option RecordId} (h : Refused e eventId)
    (hnumber : e.sequence < 2 ^ 63) (now : DateTime) (s : Store) :
    RecordsDenial (ingest e eventId now) e s := by
  have hfields : e.ok = true := by
    have haccepted := h.1
    unfold rejectedPayload at haccepted
    simp only [Bool.not_eq_false', Bool.and_eq_true] at haccepted
    exact haccepted.2
  have hok := ingestionDenial_ok hfields h.2 now
  have hrun : ingest e eventId now = (do
      let denial ← appendGeneratedEvent (ingestionDenial e (ingestionDecision e) now) hok
      pure { statusCode := 403, event := denial, decision := ingestionDecision e }) := by
    unfold ingest appendNumbered
    simp only [h.1, h.2, Bool.or_self, Bool.false_eq_true, if_false]
    rw [dif_pos hok, if_pos (show (ingestionDenial e (ingestionDecision e) now).sequence < 2 ^ 63
      from hnumber)]
  rw [hrun]
  exact ⟨_, s.putEvent (ingestionDenial e (ingestionDecision e) now), _, rfl, rfl,
    Store.putEvent_rows .., rfl, rfl, rfl, rfl, rfl, rfl⟩

/-! ## The roles among writers -/

/-- Whoever appends events: an ingestion, or a writer that makes its own. -/
inductive EventWriter where
  | ingest (e : EventFields) (eventId : Option RecordId)
  | own (w : LedgerWriter)

def EventWriter.perform (o : Outside) (now : DateTime) : EventWriter → Db Unit
  | .ingest e eventId => do
    let _ ← Vad.ingest e eventId now
    pure ()
  | .own w => w.perform o now

/-- The writers at work on an empty database that may hold run evidence. -/
def eventWritersOf (o : Outside) (evidence : Table RunEvidenceRow.runId)
    (writers : List (EventWriter × DateTime)) : Pool Store PyError Unit :=
  ⟨{ Store.empty with runEvidence := evidence }, writers.map fun w => w.1.perform o w.2⟩

theorem roles_perform (o : Outside) (now : DateTime) (w : EventWriter) :
    SafeUnless RecordsRecovery RolesOk (w.perform o now) := by
  have hsilent {α : Type} {p : Db α} (hp : SafeUnless RecordsRecovery RolesOk p) :
      SafeUnless RecordsRecovery RolesOk (do let _ ← p; pure () : Db Unit) :=
    Program.safeUnless_bind hp (fun _ h => recordsRecovery_bind _ h) fun _ => trivial
  cases w with
  | ingest e eventId => exact hsilent (Program.safeUnless_of_safe (roles_ingest e eventId now))
  | own w =>
    cases w with
    | request r own =>
      exact hsilent (roles_rule.request (fun _ _ => trivial)
        (fun e id _ heq => absurd heq (own e id)) (fun _ _ _ => trivial) o now)
    | toolCall recorder call =>
      have hcall : Safe RolesOk Any (call.perform recorder now) := by
        cases call with
        | started toolName args => exact roles_emit recorder _ _ _ now
        | finished toolName isError digest => exact roles_emit recorder _ _ _ now
        | denied toolName reason => exact roles_emit recorder _ _ _ now
      exact hsilent (Program.safeUnless_of_safe hcall)

/-- No thread takes a call in which it records that it requeued a silent client's work. -/
def RecordsNoRecovery (P : Pool Store PyError Unit) (i : Nat) : Prop :=
  ∀ p, P.threads[i]? = some p → ¬ RecordsRecovery p

/-- Under every schedule in which no scan records a recovery, every event of the ledger has a role
    that its kind allows, and every refused ingestion, whose number fits into 64 bits, leaves its
    denial and nothing else.  What a scan records otherwise never has such a role. -/
theorem privileged_roles (o : Outside) (evidence : Table RunEvidenceRow.runId)
    (writers : List (EventWriter × DateTime)) (schedule : List Nat)
    (hbranch : Pool.Along RecordsNoRecovery (eventWritersOf o evidence writers) schedule)
    (hnumbers : ∀ w ∈ writers, ∀ e id, w.1 = .ingest e id → Refused e id → e.sequence < 2 ^ 63) :
    RolesOk ((eventWritersOf o evidence writers).exec schedule).state ∧
    (∀ w ∈ writers, ∀ e id, w.1 = .ingest e id → Refused e id →
      ∀ s, RecordsDenial (ingest e id w.2) e s) ∧
    ∀ snapshot item now n, ¬ RoleAllowed (recoveryEvent snapshot item now n) := by
  refine ⟨?_, fun w hw e id heq hrefused s =>
    ingest_records_denial hrefused (hnumbers w hw e id heq hrefused) w.2 s, recoveryEvent_not_allowed⟩
  refine Pool.exec_safeUnless schedule _ (rolesOk_empty evidence) (fun p hp => ?_) hbranch
  obtain ⟨w, -, rfl⟩ := List.mem_map.mp hp
  exact roles_perform o w.2 w.1

/-! ## A scan that records a recovery -/

/-- A client falls silent with a work item, and a scan finds it. -/
def silentWriters : List (EventWriter × DateTime) := [
  (.own (.request (.register ⟨sampleManifest, sampleManifest_valid⟩) (by intro e id h; cases h)),
    epoch),
  (.own (.request (.heartbeat sampleHeartbeat) (by intro e id h; cases h)), epoch),
  (.own (.request (.createWorkItem ⟨sampleItem, sampleItem_valid⟩ sampleCaller none)
    (by intro e id h; cases h)), epoch),
  (.own (.request (.transition (.assign "w1" sampleCaller "c1" none none))
    (by intro e id h; cases h)), epoch),
  (.own (.request (.staleScan twoMinutes 60 false) (by intro e id h; cases h)), twoMinutes)]

/-- The scan leaves a `recovery_action` of the role "trusted". -/
theorem staleScan_unauthorised : ¬ RolesOk ((eventWritersOf sampleOutside Table.empty
    silentWriters).exec ((List.range 5).flatMap (List.replicate 12))).state := by
  intro h
  have hledger : ((eventWritersOf sampleOutside Table.empty silentWriters).exec
      ((List.range 5).flatMap (List.replicate 12))).state.ledger.any (fun row =>
        row.payload.kind = .recoveryAction && row.payload.role = "trusted") = true := by
    decide +kernel
  obtain ⟨row, hrow, hrecovery⟩ := List.any_eq_true.mp hledger
  simp only [Bool.and_eq_true, decide_eq_true_eq] at hrecovery
  have hrole := h row hrow ["operator", "release_guardian"] (by rw [hrecovery.1]; rfl)
  rw [hrecovery.2] at hrole
  revert hrole
  decide

/-- A builder that claims a recovery. -/
def claimedRecovery : EventFields where
  sequence := 1
  createdAt := epoch
  clientId := "c1"
  kind := .recoveryAction
  status := .active
  actor := "ann"
  role := "builder"
  summary := "recovered"

/-- Its ingestion is refused and recorded. -/
theorem privileged_roles_claimed : RolesOk ((eventWritersOf sampleOutside Table.empty
    [(.ingest claimedRecovery none, epoch)]).exec [0]).state := by
  refine (privileged_roles sampleOutside Table.empty [(.ingest claimedRecovery none, epoch)] [0]
    ⟨?_, trivial⟩ ?_).1
  · rintro p hp hrecovery
    cases hp
    have hsame := hrecovery.next_eq Store.empty
    have hcount := congrArg Store.eventCount hsame
    revert hcount
    decide
  · rintro w hw e id heq -
    rw [List.mem_singleton.mp hw] at heq
    cases heq
    decide

end Vad
