/-
  The tables about clients: who is registered, when each was heard of last, and the leases.

  1. Most requests are about work, events, approvals and proposals, and leave these three tables
     alone (`SameClients`).  The results about leases and about the registry start from here and
     look only at the few store methods that are left.
  2. The methods of the registry and of the leases, in turn, write only these tables, and the
     references to a client that is deleted.  What does not depend on that (`OffClients`) they keep.
-/
import Vad.Server.Invariant

namespace Vad

open Keyed (RecordId)
open Atomic (Program)
open Atomic.Program (Safe)

/-- The clients, their heartbeats and the leases are the same. -/
structure SameClients (s s' : Store) : Prop where
  manifests : s'.clientManifests = s.clientManifests
  heartbeats : s'.clientHeartbeats = s.clientHeartbeats
  leases : s'.taskLeases = s.taskLeases

/-- A program none of whose calls changes these tables. -/
abbrev KeepsClients {α : Type} (p : Db α) : Prop := Safe (fun _ => True) SameClients p

section Methods

/-- One store method, by what its run does to the tables. -/
theorem keepsClients_atomic {α : Type} {f : Store → Except PyError α × Store}
    (h : ∀ s, SameClients s (f s).2) : KeepsClients (Program.atomic f) :=
  Program.safe_atomic fun s _ => ⟨h s, trivial⟩

theorem keepsClients_query {α : Type} (f : Store → Except PyError α) : KeepsClients (query f) :=
  keepsClients_atomic fun _ => ⟨rfl, rfl, rfl⟩

theorem keepsClients_appendEvent (fields : Nat → EventFields) :
    KeepsClients (appendEvent fields) := by
  refine Program.safe_bind (keepsClients_query _) fun events => ?_
  show Safe _ _ (if h : (fields (events.length + 1)).ok = true then _ else _)
  split
  · exact keepsClients_atomic fun _ => ⟨rfl, rfl, rfl⟩
  · exact Program.safe_raise _

theorem keepsClients_upsertRunTaskState (st : Checked RunTaskState) :
    KeepsClients (upsertRunTaskState st) := keepsClients_atomic fun _ => ⟨rfl, rfl, rfl⟩

theorem keepsClients_storeWorkItem (item : Checked WorkItem) :
    KeepsClients (storeWorkItem item) := by
  refine keepsClients_atomic fun s => ?_
  show SameClients s ((storeWorkItem item).run s).2
  rcases run_storeWorkItem item s with h | ⟨e, h⟩ <;> rw [h]
  · exact ⟨rfl, rfl, rfl⟩
  · exact ⟨rfl, rfl, rfl⟩

theorem keepsClients_saveWorkItem (item : Checked WorkItem) :
    KeepsClients (saveWorkItem item) := by
  refine keepsClients_atomic fun s => ?_
  show SameClients s ((saveWorkItem item).run s).2
  rcases run_saveWorkItem item s with ⟨t, -, -, h⟩ | ⟨e, h⟩ <;> rw [h]
  · exact ⟨rfl, rfl, rfl⟩
  · exact ⟨rfl, rfl, rfl⟩

theorem keepsClients_createWorkItem (item : Checked WorkItem) (caller : Caller)
    (summary : Option String) (now : DateTime) :
    KeepsClients (createWorkItem item caller summary now) :=
  Program.safe_bind (keepsClients_saveWorkItem item) fun _ =>
    Program.safe_bind (keepsClients_upsertRunTaskState _) fun _ =>
      Program.safe_bind (keepsClients_appendEvent _) fun _ => Program.safe_pure _

theorem keepsClients_transition (id : String) (target : WorkItemStatus) (caller : Caller)
    (change : WorkItemChange) (summary : Option String) (now : DateTime) :
    KeepsClients (transition id target caller change summary now) := by
  refine Program.safe_bind (keepsClients_query _) fun current => ?_
  unfold transitionFrom
  split
  · refine Program.safe_bind (p := Program.done _) trivial fun updated => ?_
    refine Program.safe_bind (keepsClients_storeWorkItem _) fun saved => ?_
    refine Program.safe_bind (keepsClients_upsertRunTaskState _) fun _ => ?_
    exact Program.safe_bind (keepsClients_appendEvent _) fun _ => Program.safe_pure _
  · exact Program.safe_bind (keepsClients_appendEvent _) fun _ => Program.safe_pure _

/-- The work on items leaves the tables alone. -/
theorem keepsClients_rule : WorkRule (fun {_} p => KeepsClients p) where
  done _ := trivial
  bind hp hk := Program.safe_bind hp hk
  query := keepsClients_query
  appendEvent fields _ := keepsClients_appendEvent fields
  transition := keepsClients_transition

/-- What depends on these tables only is preserved. -/
theorem preserves_of_keepsClients {α : Type} {I : Store → Prop}
    (hI : ∀ s s', SameClients s s' → I s → I s') {p : Db α} (h : KeepsClients p) :
    Program.Preserves I p := fun _ hs =>
  ((h.invariant fun s s' _ hsame => hI s s' hsame).run_keeps ⟨trivial, hs⟩).2

theorem keepsClients_saveDiffProposal (p : RecordId → DiffProposal)
    (hid : ∀ k, (p k).proposalId = k) : KeepsClients (saveDiffProposal p hid) :=
  keepsClients_atomic fun _ => ⟨rfl, rfl, rfl⟩

theorem keepsClients_saveApprovalEvent (e : RecordId → ApprovalEvent)
    (hid : ∀ k, (e k).approvalId = k) : KeepsClients (saveApprovalEvent e hid) :=
  keepsClients_atomic fun _ => ⟨rfl, rfl, rfl⟩

theorem keepsClients_ingest (e : EventFields) (eventId : Option RecordId) (now : DateTime) :
    KeepsClients (ingest e eventId now) := by
  have hnumbered : ∀ f : EventFields, KeepsClients (appendNumbered f) := by
    intro f
    unfold appendNumbered
    split
    · split
      · exact keepsClients_atomic fun _ => ⟨rfl, rfl, rfl⟩
      · exact Program.safe_raise _
    · exact Program.safe_raise _
  unfold ingest
  simp only
  split
  · refine Program.safe_bind ?_ fun _ => Program.safe_pure _
    cases eventId with
    | none => exact hnumbered e
    | some id =>
      refine Program.safe_bind (p := Program.done _) trivial fun event => ?_
      refine keepsClients_atomic fun s => ?_
      rw [Program.run_bind, run_execute]
      by_cases hnumber : event.1.sequence < 2 ^ 63
      · rw [if_pos hnumber]
        cases s.controlPlaneEvents.insert (eventRow event.1) <;> exact ⟨rfl, rfl, rfl⟩
      · rw [if_neg hnumber]
        exact ⟨rfl, rfl, rfl⟩
  · exact Program.safe_bind (hnumbered _) fun _ => Program.safe_pure _

end Methods

/-! ## The methods about clients -/

/-- A relation in which the stores stand when at most the client tables change, or the references
    to a client that is deleted. -/
structure OffClients (R : Store → Store → Prop) : Prop where
  refl : ∀ s, R s s
  trans : ∀ {a b c}, R a b → R b c → R a c
  tables : ∀ s manifests heartbeats leases written, R s { s with
    clientManifests := manifests
    clientHeartbeats := heartbeats
    taskLeases := leases
    written := written }
  delete : ∀ clientId s, R s (deleteManifest clientId s)

namespace OffClients

variable {R : Store → Store → Prop}

theorem query {α : Type} (h : OffClients R) (f : Store → Except PyError α) :
    Safe (fun _ => True) R (query f) := Program.safe_atomic fun s _ => ⟨h.refl s, trivial⟩

theorem execute (h : OffClients R) {f : Store → Except PyError Store}
    (hf : ∀ s s', f s = .ok s' → R s s') : Safe (fun _ => True) R (execute f) := by
  refine Program.safe_atomic fun s _ => ⟨?_, trivial⟩
  cases hs : f s with
  | ok s' => simpa using hf s s' hs
  | error e => simpa using h.refl s

theorem storeCall {α : Type} (h : OffClients R) {p : Db α} (hp : Safe (fun _ => True) R p) :
    Safe (fun _ => True) R (storeCall p) := Program.safe_atomic fun s _ =>
  ⟨Safe.run_within (R := R) h.refl h.trans hp (s := s) trivial, trivial⟩

theorem upsertTaskLease (h : OffClients R) (l : TaskLease) :
    Safe (fun _ => True) R (upsertTaskLease l) :=
  Program.safe_bind (h.query _) fun _ => Program.safe_bind
    (h.execute fun s s' hs => by cases hs; exact h.tables s _ _ _ _) fun _ => trivial

theorem saveTaskLease (h : OffClients R) (l : TaskLease) :
    Safe (fun _ => True) R (saveTaskLease l) := h.storeCall (h.upsertTaskLease l)

theorem registerClientManifest (h : OffClients R) (m : Checked ClientManifest) :
    Safe (fun _ => True) R (registerClientManifest m) := by
  refine h.storeCall (Program.safe_bind (h.execute fun s s' hs => ?_) fun _ => trivial)
  split at hs
  · cases hs
    exact h.tables s _ _ _ _
  · cases hs

theorem unregisterClientManifest (h : OffClients R) (id : String) :
    Safe (fun _ => True) R (unregisterClientManifest id) :=
  h.storeCall (Program.safe_bind (h.query _) fun _ => Program.safe_bind
    (h.execute fun s s' hs => by cases hs; exact h.delete id s) fun _ => trivial)

theorem recordClientHeartbeat (h : OffClients R) (b : Checked ClientHeartbeat) :
    Safe (fun _ => True) R (recordClientHeartbeat b) :=
  h.storeCall (Program.safe_bind (h.query _) fun _ => Program.safe_bind
    (h.execute fun s s' hs => by cases hs; exact h.tables s _ _ _ _) fun _ => trivial)

theorem markClientStale (h : OffClients R) (id : String) :
    Safe (fun _ => True) R (markClientStale id) := by
  -- the manifest, the active leases, each of them expired, the heartbeat row, and its write
  refine h.storeCall (Program.safe_bind (h.query _) fun _ => Program.safe_bind ?_ fun _ =>
    Program.safe_bind (h.query _) fun _ => Program.safe_bind ?_ fun _ => trivial)
  · exact Program.safe_bind (h.query _) fun _ =>
      Program.safe_forEach fun l _ => h.upsertTaskLease _
  · exact h.execute fun s s' hs => by cases hs; exact h.tables s _ _ _ _

end OffClients

end Vad
