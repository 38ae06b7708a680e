/-
  The numbers of the event ledger.

  Every service numbers its event by listing the ledger in one store call and appends it in the
  next one.  Requests and recorded tool calls are programs of that shape (`counts_perform`), so the
  ticket rule applies: while nobody appends between another one's list and append, a ledger
  numbered `1, 2, …` stays so, and is listed in the order of the appends (`ledger_numbered`).  Two
  requests that list before either appends give one number twice (`twoHeartbeats_same_number`).
-/
import Vad.Lib.Ticket
import Vad.Server.LeaseRace

namespace Vad

open Keyed (Table Minted RecordId)
open Atomic (Program Pool)
open Atomic.Program (Safe)

/-! ## The ledger as a log -/

/-- The rows of the ledger, in the order in which they were appended. -/
def Store.ledger (s : Store) : List EventRow := s.controlPlaneEvents.rows

/-- The number in the payload of a row. -/
def payloadSequence (r : EventRow) : Nat := r.payload.sequence

/-- The ledger is numbered from 1 on, column and payload alike. -/
structure LedgerNumbered (s : Store) : Prop where
  columns : Pool.Numbered EventRow.sequence s.ledger
  payloads : Pool.Numbered payloadSequence s.ledger

/-- A number of rows that is the sequence number of the event they hold. -/
def NumbersEvents (num : EventRow → Nat) : Prop := ∀ e, num (eventRow e) = e.sequence

/-- `list_control_plane_events` gives the events in the order in which they were appended. -/
def ListsInOrder (s : Store) : Prop := ∀ events s',
  Program.Returns (listControlPlaneEvents none none) s events s' →
    events.map Subtype.val = s.ledger.map EventRow.payload

theorem eventOrder_of_lt {a b : EventRow} (h : a.sequence < b.sequence) :
    eventOrder a b = true := by
  have hcmp : compare a.sequence b.sequence = .lt := Nat.compare_eq_lt.mpr h
  simp only [eventOrder, orderedBy, List.foldr_cons, hcmp]
  rfl

/-- A numbered ledger is listed as it was appended. -/
theorem LedgerNumbered.listsInOrder {s : Store} (h : LedgerNumbered s) : ListsInOrder s := by
  intro events s' hret
  obtain ⟨hevents, -⟩ := returns_listControlPlaneEvents.mp hret
  have hsorted : s.ledger.Pairwise (fun a b => eventOrder a b = true) :=
    h.columns.sorted.imp eventOrder_of_lt
  have hselect : s.controlPlaneEvents.table.select (fun _ => true) eventOrder = s.ledger := by
    show (List.filter _ s.controlPlaneEvents.table.rows).insertionSort _ = _
    rw [List.filter_eq_self.mpr fun _ _ => rfl]
    exact hsorted.insertionSort_eq
  rw [hselect] at hevents
  exact vals_of_fetchedAll (fun _ => rfl) hevents

/-! ## Methods that leave the ledger alone -/

/-- No event is added or changed. -/
def LedgerKept (s s' : Store) : Prop := s'.ledger = s.ledger

theorem LedgerKept.trans {a b c : Store} (hab : LedgerKept a b) (hbc : LedgerKept b c) :
    LedgerKept a c := Eq.trans hbc hab

/-- `p` keeps the ledger call by call. -/
abbrev LedgerKeptProgram {α : Type} (p : Db α) : Prop := Safe (fun _ => True) LedgerKept p

/-- `p` numbers the events that it appends. -/
abbrev CountsEvents {α : Type} (num : EventRow → Nat) (p : Db α) : Prop :=
  p.Counts Store.ledger num none

/-- The methods about clients keep the ledger. -/
theorem ledgerKept_offClients : OffClients LedgerKept where
  refl _ := rfl
  trans := LedgerKept.trans
  tables _ _ _ _ _ := rfl
  delete _ _ := rfl

theorem ledgerKept_query {α : Type} (f : Store → Except PyError α) : LedgerKeptProgram (query f) :=
  ledgerKept_offClients.query f

theorem ledgerKept_upsertStateRow (st : Checked RunTaskState) :
    LedgerKeptProgram (upsertStateRow st) := ledgerKept_offClients.execute fun s s' h => by cases h; rfl

theorem ledgerKept_upsertRunTaskState (st : Checked RunTaskState) :
    LedgerKeptProgram (upsertRunTaskState st) := ledgerKept_offClients.storeCall (ledgerKept_upsertStateRow st)

theorem ledgerKept_saveWorkItem (item : Checked WorkItem) :
    LedgerKeptProgram (saveWorkItem item) := by
  refine ledgerKept_offClients.storeCall (Program.safe_bind (ledgerKept_offClients.execute fun s s' h => ?_) fun _ =>
    Program.safe_bind (ledgerKept_upsertStateRow _) fun _ => trivial)
  split at h
  · split at h
    · cases h; rfl
    · cases h
  · cases h

theorem ledgerKept_storeWorkItem (item : Checked WorkItem) :
    LedgerKeptProgram (storeWorkItem item) := by
  refine ledgerKept_offClients.storeCall (Program.safe_bind (ledgerKept_query _) fun _ =>
    Program.safe_bind (ledgerKept_offClients.execute fun s s' h => ?_) fun _ =>
      Program.safe_bind (ledgerKept_upsertStateRow _) fun _ => trivial)
  split at h
  · cases h; rfl
  · cases h

theorem ledgerKept_saveDiffProposal (p : RecordId → DiffProposal)
    (hid : ∀ k, (p k).proposalId = k) : LedgerKeptProgram (saveDiffProposal p hid) :=
  Program.safe_atomic fun _ _ => ⟨rfl, trivial⟩

theorem ledgerKept_saveApprovalEvent (e : RecordId → ApprovalEvent)
    (hid : ∀ k, (e k).approvalId = k) : LedgerKeptProgram (saveApprovalEvent e hid) :=
  Program.safe_atomic fun _ _ => ⟨rfl, trivial⟩

/-! ## The ledger only grows -/

/-- Events were appended, and nothing else happened to the ledger. -/
def LedgerGrows (s s' : Store) : Prop := ∃ new, s'.ledger = s.ledger ++ new

theorem LedgerGrows.refl (s : Store) : LedgerGrows s s := ⟨[], (List.append_nil _).symm⟩

theorem LedgerGrows.trans {a b c : Store} (hab : LedgerGrows a b) (hbc : LedgerGrows b c) :
    LedgerGrows a c := by
  obtain ⟨l, hl⟩ := hab
  obtain ⟨m, hm⟩ := hbc
  exact ⟨l ++ m, by rw [hm, hl, List.append_assoc]⟩

theorem LedgerGrows.eventCount_le {s s' : Store} (h : LedgerGrows s s') :
    s.eventCount ≤ s'.eventCount := by
  obtain ⟨new, hnew⟩ := h
  show s.ledger.length ≤ s'.ledger.length
  rw [hnew, List.length_append]
  omega

/-- `p` only appends to the ledger. -/
abbrev LedgerGrowsProgram {α : Type} (p : Db α) : Prop := Safe (fun _ => True) LedgerGrows p

theorem grows_of_kept {α : Type} {p : Db α} (h : LedgerKeptProgram p) : LedgerGrowsProgram p :=
  h.mono fun s _ _ hkept => ⟨[], Eq.trans hkept (List.append_nil s.ledger).symm⟩

theorem grows_appendEvent (fields : Nat → EventFields) : LedgerGrowsProgram (appendEvent fields) := by
  refine Program.safe_bind (grows_of_kept (ledgerKept_query _)) fun events => ?_
  show Safe _ _ (if h : (fields (events.length + 1)).ok = true then _ else _)
  split
  · exact Program.safe_atomic fun s _ => ⟨⟨_, Store.putEvent_rows ..⟩, trivial⟩
  · trivial

theorem grows_recordTransition (saved : Checked WorkItem) (caller : Caller)
    (summary : Option String) (decision : PolicyDecision) (now : DateTime) :
    LedgerGrowsProgram (recordTransition saved caller summary decision now) :=
  Program.safe_bind (grows_of_kept (ledgerKept_upsertRunTaskState _)) fun _ =>
    Program.safe_bind (grows_appendEvent _) fun _ => trivial

theorem grows_transition (id : String) (target : WorkItemStatus) (caller : Caller)
    (change : WorkItemChange) (summary : Option String) (now : DateTime) :
    LedgerGrowsProgram (transition id target caller change summary now) := by
  refine Program.safe_bind (grows_of_kept (ledgerKept_query _)) fun current => ?_
  unfold transitionFrom
  split
  · refine Program.safe_bind (p := Program.done _) trivial fun updated => ?_
    exact Program.safe_bind (grows_of_kept (ledgerKept_storeWorkItem _)) fun saved =>
      grows_recordTransition saved caller summary _ now
  · exact Program.safe_bind (grows_appendEvent _) fun _ => trivial

/-- Every request that is no ingestion only appends. -/
theorem grows_rule : RequestRule (fun _ => True) (fun {_} p => LedgerGrowsProgram p) where
  done _ := trivial
  bind hp hk := Program.safe_bind hp hk
  query f := grows_of_kept (ledgerKept_query f)
  registerClientManifest m := grows_of_kept (ledgerKept_offClients.registerClientManifest m)
  unregisterClientManifest id := grows_of_kept (ledgerKept_offClients.unregisterClientManifest id)
  recordClientHeartbeat b := grows_of_kept (ledgerKept_offClients.recordClientHeartbeat b)
  markClientStale id := grows_of_kept (ledgerKept_offClients.markClientStale id)
  saveTaskLease l _ := grows_of_kept (ledgerKept_offClients.saveTaskLease l)
  appendEvent fields _ := grows_appendEvent fields
  createWorkItem item _ _ _ :=
    Program.safe_bind (grows_of_kept (ledgerKept_saveWorkItem item)) fun _ =>
      Program.safe_bind (grows_of_kept (ledgerKept_upsertRunTaskState _)) fun _ =>
        Program.safe_bind (grows_appendEvent _) fun _ => trivial
  transition := grows_transition
  saveDiffProposal p hid _ := grows_of_kept (ledgerKept_saveDiffProposal p hid)
  saveApprovalEvent e hid := grows_of_kept (ledgerKept_saveApprovalEvent e hid)

section Counting

variable {num : EventRow → Nat}

/-- What keeps the ledger numbers what it appends: nothing. -/
theorem counts_of_kept {α : Type} {p : Db α} (h : LedgerKeptProgram p) : CountsEvents num p := by
  induction p with
  | done r => trivial
  | call next cont ih =>
    exact Or.inl ⟨fun s => (h s trivial).1, fun s => (ih s (h s trivial).2.2).mono _⟩

/-! ## List, then append -/

/-- The continuation of a list call, in which the next call may append under the next number. -/
theorem counts_listThen {α : Type} {k : List (Checked ControlPlaneEvent) → Db α}
    (hk : ∀ events : List (Checked ControlPlaneEvent),
      (k events).Counts Store.ledger num (some events.length)) :
    CountsEvents num (listControlPlaneEvents none none >>= k) := by
  refine Program.counts_readThen fun s events hevents => ?_
  have hlength : events.length = s.ledger.length := length_of_fetchedAll hevents
  rw [← hlength]
  exact hk events

theorem counts_appendGenerated (hnum : NumbersEvents num) {e : EventFields} (h : e.ok = true) {n : Nat}
    (hn : e.sequence = n + 1) : (appendGeneratedEvent e h).Counts Store.ledger num
      (some n) :=
  Program.counts_append fun s => ⟨eventRow ⟨e, .generated s.controlPlaneEvents.drawn⟩,
    Minted.rows_append .., (hnum _).trans hn⟩

theorem counts_appendEvent (hnum : NumbersEvents num) {fields : Nat → EventFields} (h : ∀ n, (fields n).sequence = n) :
    CountsEvents num (appendEvent fields) := by
  refine counts_listThen fun events => ?_
  show (if hok : (fields (events.length + 1)).ok = true then _ else _ : Db _).Counts _ _ _
  split
  · rename_i hok
    exact counts_appendGenerated hnum hok (h _)
  · trivial

theorem counts_appendNumbered (hnum : NumbersEvents num) {e : EventFields} {n : Nat} (hn : e.sequence = n + 1) :
    (appendNumbered e).Counts Store.ledger num (some n) := by
  unfold appendNumbered
  split
  · rename_i hok
    split
    · exact counts_appendGenerated hnum hok hn
    · trivial
  · trivial

theorem counts_ingest (hnum : NumbersEvents num) {e : EventFields} {n : Nat} (hn : e.sequence = n + 1) (now : DateTime) :
    (ingest e none now).Counts Store.ledger num (some n) := by
  unfold ingest
  simp only
  split
  · exact Program.counts_bind (counts_appendNumbered hnum hn) fun _ => trivial
  · exact Program.counts_bind (counts_appendNumbered hnum hn) fun _ => trivial

theorem counts_emit (hnum : NumbersEvents num) (r : McpToolCallRecorder) (status : ControlPlaneEventStatus)
    (digest : Option String) (summary : String) (now : DateTime) :
    CountsEvents num (emit r status digest summary now) :=
  counts_listThen fun _ => Program.counts_bind (counts_ingest hnum rfl now) fun _ => trivial

theorem counts_recordTransition (hnum : NumbersEvents num) (saved : Checked WorkItem) (caller : Caller)
    (summary : Option String) (decision : PolicyDecision) (now : DateTime) :
    CountsEvents num (recordTransition saved caller summary decision now) :=
  Program.counts_bind (counts_of_kept (ledgerKept_upsertRunTaskState _)) fun _ =>
    Program.counts_bind (counts_appendEvent hnum fun _ => rfl) fun _ => trivial

theorem counts_transition (hnum : NumbersEvents num) (id : String) (target : WorkItemStatus) (caller : Caller)
    (change : WorkItemChange) (summary : Option String) (now : DateTime) :
    CountsEvents num (transition id target caller change summary now) := by
  refine Program.counts_bind (counts_of_kept (ledgerKept_query _)) fun current => ?_
  unfold transitionFrom
  split
  · exact Program.counts_bind (Program.counts_done _) fun updated =>
      Program.counts_bind (counts_of_kept (ledgerKept_storeWorkItem _)) fun saved =>
        counts_recordTransition hnum saved caller summary _ now
  · exact Program.counts_bind (counts_appendEvent hnum fun _ => rfl) fun _ => trivial

theorem counts_createWorkItem (hnum : NumbersEvents num) (item : Checked WorkItem) (caller : Caller)
    (summary : Option String) (now : DateTime) :
    CountsEvents num (createWorkItem item caller summary now) :=
  Program.counts_bind (counts_of_kept (ledgerKept_saveWorkItem item)) fun _ =>
    Program.counts_bind (counts_of_kept (ledgerKept_upsertRunTaskState _)) fun _ =>
      Program.counts_bind (counts_appendEvent hnum fun _ => rfl) fun _ => trivial

/-- The rule of the ledger: every request that brings no event of its own numbers what it
    appends. -/
theorem counts_rule (hnum : NumbersEvents num) :
    RequestRule (fun _ => True) (fun {_} p => CountsEvents num p) where
  done r := Program.counts_done r
  bind hp hk := Program.counts_bind hp hk
  query f := counts_of_kept (ledgerKept_query f)
  registerClientManifest m := counts_of_kept (ledgerKept_offClients.registerClientManifest m)
  unregisterClientManifest id := counts_of_kept (ledgerKept_offClients.unregisterClientManifest id)
  recordClientHeartbeat b := counts_of_kept (ledgerKept_offClients.recordClientHeartbeat b)
  markClientStale id := counts_of_kept (ledgerKept_offClients.markClientStale id)
  saveTaskLease l _ := counts_of_kept (ledgerKept_offClients.saveTaskLease l)
  appendEvent _ h := counts_appendEvent hnum h.numbered
  createWorkItem := counts_createWorkItem hnum
  transition := counts_transition hnum
  saveDiffProposal p hid _ := counts_of_kept (ledgerKept_saveDiffProposal p hid)
  saveApprovalEvent e hid := counts_of_kept (ledgerKept_saveApprovalEvent e hid)

/-! ## Writers of the ledger -/

/-- A recorded tool call. -/
inductive ToolCallRecord where
  | started (toolName args : String)
  | finished (toolName : String) (isError : Bool) (digest : Option String)
  | denied (toolName reason : String)

def ToolCallRecord.perform (r : McpToolCallRecorder) (now : DateTime) :
    ToolCallRecord → Db (Checked ControlPlaneEvent)
  | .started toolName args => recordStarted r toolName args now
  | .finished toolName isError digest => recordFinished r toolName isError digest now
  | .denied toolName reason => recordDenied r toolName reason now

/-- Whoever appends events of its own making: a request that is no ingestion, or the recorder. -/
inductive LedgerWriter where
  | request (r : Request) (own : ∀ e id, r ≠ .ingest e id)
  | toolCall (recorder : McpToolCallRecorder) (call : ToolCallRecord)

/-- The program of a writer; what it answers does not matter here. -/
def LedgerWriter.perform (o : Outside) (now : DateTime) : LedgerWriter → Db Unit
  | .request r _ => do
    let _ ← r.perform o now
    pure ()
  | .toolCall recorder call => do
    let _ ← call.perform recorder now
    pure ()

/-- The writers at work on one store, each with the time its clock shows. -/
def writersOf (o : Outside) (s : Store) (writers : List (LedgerWriter × DateTime)) :
    Pool Store PyError Unit := ⟨s, writers.map fun w => w.1.perform o w.2⟩

theorem counts_perform (hnum : NumbersEvents num) (w : LedgerWriter) (o : Outside) (now : DateTime) :
    CountsEvents num (w.perform o now) := by
  cases w with
  | request r own =>
    exact Program.counts_bind ((counts_rule hnum).request (fun _ _ => trivial)
      (fun e id _ heq => absurd heq (own e id)) (fun _ _ _ => trivial) o now) fun _ => trivial
  | toolCall recorder call =>
    refine Program.counts_bind ?_ fun _ => trivial
    cases call with
    | started toolName args => exact counts_emit hnum ..
    | finished toolName isError digest => exact counts_emit hnum ..
    | denied toolName reason => exact counts_emit hnum ..

end Counting

/-! ## The ledger among writers -/

/-- From a ledger numbered `1, …, n`, and under every schedule in which no event is appended while
    another writer is between its list and its append: the numbers stay `1, 2, …`, hence distinct,
    and the ledger is listed in the order of the appends. -/
theorem ledger_numbered (o : Outside) (s : Store) (writers : List (LedgerWriter × DateTime))
    (schedule : List Nat) (hs : LedgerNumbered s)
    (halone : Pool.Along (Pool.AppendsAlone Store.ledger) (writersOf o s writers) schedule) :
    LedgerNumbered ((writersOf o s writers).exec schedule).state ∧
      (((writersOf o s writers).exec schedule).state.ledger.map payloadSequence).Nodup ∧
      ListsInOrder ((writersOf o s writers).exec schedule).state := by
  have hcounts {num : EventRow → Nat} (hnum : NumbersEvents num) :
      ∀ p ∈ (writersOf o s writers).threads, CountsEvents num p := by
    intro p hp
    obtain ⟨w, -, rfl⟩ := List.mem_map.mp hp
    exact counts_perform hnum w.1 o w.2
  have hnumbered : LedgerNumbered ((writersOf o s writers).exec schedule).state :=
    ⟨Pool.exec_numbered schedule _ hs.columns (hcounts fun _ => rfl) halone,
      Pool.exec_numbered schedule _ hs.payloads (hcounts fun _ => rfl) halone⟩
  exact ⟨hnumbered, hnumbered.payloads.nodup, hnumbered.listsInOrder⟩

/-! ## Two writers that list before either appends -/

/-- A heartbeat of the given client. -/
def beatOf (clientId : String) : ClientHeartbeat where
  clientId := clientId
  actor := "ann"
  role := "builder"
  observedAt := epoch

def firstBeat : Checked ClientHeartbeat := ⟨beatOf "c1", rfl, by decide⟩

def secondBeat : Checked ClientHeartbeat := ⟨beatOf "c2", rfl, by decide⟩

/-- Both clients of a store report. -/
def twoHeartbeats : List (LedgerWriter × DateTime) := [
  (.request (.heartbeat firstBeat) (by intro e id h; cases h), epoch),
  (.request (.heartbeat secondBeat) (by intro e id h; cases h), epoch)]

/-- Taking turns, both heartbeats list the empty ledger and are numbered 1. -/
theorem twoHeartbeats_same_number : LedgerNumbered twoClients ∧
    ¬ (((writersOf sampleOutside twoClients twoHeartbeats).exec
      [0, 1, 0, 1, 0, 1, 0, 1]).state.ledger.map payloadSequence).Nodup :=
  ⟨⟨rfl, rfl⟩, by decide⟩

/-- The first of two writers appends alone while the second has not begun. -/
theorem appendsAlone_before {s : Store} {p : Db Unit} {w : LedgerWriter} {now : DateTime} :
    Pool.AppendsAlone Store.ledger ⟨s, [p, w.perform sampleOutside now]⟩ 0 := by
  rintro _ - - (_ | _ | j) q hj hget
  · exact absurd rfl hj
  · cases hget
    exact Pool.not_appendsNext_of_counts
      (counts_perform (fun _ => rfl : NumbersEvents payloadSequence) w sampleOutside now)
  · cases hget

/-- The second of two writers appends alone once the first has ended. -/
theorem appendsAlone_after {s : Store} {p : Db Unit} {r : Except PyError Unit} :
    Pool.AppendsAlone Store.ledger ⟨s, [.done r, p]⟩ 1 := by
  rintro _ - - (_ | _ | j) q hj hget
  · cases hget
    rintro ⟨next, cont, heq, -⟩
    cases heq
  · exact absurd rfl hj
  · cases hget

/-- One after the other, the two heartbeats are numbered 1 and 2. -/
theorem ledger_numbered_inTurn : LedgerNumbered ((writersOf sampleOutside twoClients
    twoHeartbeats).exec [0, 0, 0, 0, 1, 1, 1, 1]).state :=
  (ledger_numbered sampleOutside twoClients twoHeartbeats [0, 0, 0, 0, 1, 1, 1, 1] ⟨rfl, rfl⟩
    ⟨appendsAlone_before, appendsAlone_before, appendsAlone_before, appendsAlone_before,
      appendsAlone_after, appendsAlone_after, appendsAlone_after, appendsAlone_after, trivial⟩).1

end Vad
