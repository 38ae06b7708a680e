/-
  Lease acquisition among concurrent requests.

  `acquire` looks for an active lease in one store call and saves the new lease in another, and the
  save overwrites whatever is there by then.  Two requests that both look before either saves are
  therefore both answered 201, and the second save takes the lease away from the first
  (`twoAcquires_both_granted`).

  1. **The condition** — `LooksAlone`: no request looks for the lease of the task while another is
     about to save one.
  2. **The invariant** — `Phase`: all requests are idle; or one is about to save and the others are
     idle; or one holds the lease and the others are idle.  A request is idle when it cannot be
     granted without looking first (`Idle`), and one that looks while the lease is held is refused.
  3. **The result** — `acquire_exclusive`: along the condition at most one request is granted, and
     the stored lease is the one it was granted.
-/
import Vad.Server.ReadBack
import Vad.Server.ClientTables

namespace Vad

open Keyed (Table)
open Atomic (Program Pool)
open Atomic.Program (Safe Ends Returns returns_bind returns_pure)

/-! ## Granted leases -/

/-- The requests that leave held leases alone. -/
def Request.leavesHeldLeases : Request → Bool
  | .unregister _ | .staleScan .. | .renew .. | .release .. | .expire _ => false
  | _ => true

/-- Thread `i` has answered 201 with the lease `l` of the task. -/
def Granted (taskId : String) (P : Pool Store PyError Response) (i : Nat) (l : TaskLease) : Prop :=
  ∃ r, P.threads[i]? = some (.done (.ok (.lease r))) ∧ r.statusCode = 201 ∧ r.lease = l ∧
    l.taskId = taskId

/-- At most one request was granted the lease of the task, and the stored lease is that one. -/
structure LeaseExclusive (taskId : String) (P : Pool Store PyError Response) : Prop where
  one : ∀ i j l m, Granted taskId P i l → Granted taskId P j m → i = j
  stored : ∀ i l, Granted taskId P i l → P.state.taskLeases.find? taskId = some (leaseRow l)

/-- The result of a lease call as a response. -/
def leaseResponse (p : Db TaskLeaseResult) : Db Response := do pure (.lease (← p))

/-- A request whose next call looks for the lease of the task. -/
def AboutToLook (taskId : String) (p : Db Response) : Prop :=
  ∃ q now, q.1.taskId = taskId ∧ p = leaseResponse (acquireLease q now)

/-- A request whose next call can change the lease of the task. -/
def MayWriteLease (taskId : String) (p : Db Response) : Prop :=
  ∃ next cont s, p = .call next cont ∧
    (next s).taskLeases.find? taskId ≠ s.taskLeases.find? taskId

/-- Thread `i` does not look for the lease of the task now, or no other thread is about to change
    it. -/
def LooksAlone (taskId : String) (P : Pool Store PyError Response) (i : Nat) : Prop :=
  ∀ p, P.threads[i]? = some p → AboutToLook taskId p →
    ∀ j q, j ≠ i → P.threads[j]? = some q → ¬ MayWriteLease taskId q

/-! ## Calls that leave the lease alone -/

/-- The lease of the task is the same. -/
def SameLease (taskId : String) (s s' : Store) : Prop :=
  s'.taskLeases.find? taskId = s.taskLeases.find? taskId

/-- No lease changes, and every known client stays known. -/
structure KeepsLeases (s s' : Store) : Prop where
  leases : s'.taskLeases = s.taskLeases
  clients : ∀ id, s.clientManifests.has id = true → s'.clientManifests.has id = true

section Bystanders

theorem SameClients.keepsLeases {s s' : Store} (h : SameClients s s') : KeepsLeases s s' :=
  ⟨h.leases, fun id hid => by rw [h.manifests]; exact hid⟩

theorem keepsLeases_of_keepsClients {α : Type} {p : Db α} (h : KeepsClients p) :
    Safe (fun _ => True) KeepsLeases p := h.mono fun _ _ _ hsame => hsame.keepsLeases

/-- Every request that neither changes a lease nor deletes a client leaves all leases alone. -/
theorem keepsLeases_rule : CallRule (fun {_} p => Safe (fun _ => True) KeepsLeases p) where
  done _ := trivial
  bind hp hk := Program.safe_bind hp hk
  query f := keepsLeases_of_keepsClients (keepsClients_query f)
  registerClientManifest m := by
    refine Program.safe_atomic fun s _ => ⟨?_, trivial⟩
    rw [Program.run_bind, run_execute]
    cases hins : s.clientManifests.insert (manifestRow m.1) with
    | none => exact ⟨rfl, fun _ hid => hid⟩
    | some t =>
      refine ⟨rfl, fun id hid => ?_⟩
      obtain ⟨row, hrow⟩ := Table.has_iff.mp hid
      refine Table.has_iff.mpr ⟨row, ?_⟩
      show t.find? id = some row
      rw [Table.find?_insert hins, hrow]
      have hne : ¬ (manifestRow m.1).clientId = id := by
        rintro rfl
        rw [(Table.insert_eq_some.mp hins).1] at hrow
        cases hrow
      exact if_neg hne
  recordClientHeartbeat b := by
    refine Program.safe_atomic fun s _ => ⟨?_, trivial⟩
    rw [Program.run_bind, selectClientManifest, run_query]
    cases fetched b.1.clientId ManifestRow.payload (s.clientManifests.find? b.1.clientId) <;>
      exact ⟨rfl, fun _ hid => hid⟩
  appendEvent fields _ := keepsLeases_of_keepsClients (keepsClients_appendEvent fields)
  createWorkItem item caller summary now :=
    keepsLeases_of_keepsClients (keepsClients_createWorkItem item caller summary now)
  transition id target caller change summary now :=
    keepsLeases_of_keepsClients (keepsClients_transition id target caller change summary now)
  saveDiffProposal p hid _ := keepsLeases_of_keepsClients (keepsClients_saveDiffProposal p hid)
  saveApprovalEvent e hid := keepsLeases_of_keepsClients (keepsClients_saveApprovalEvent e hid)

/-! ### The lease of one task -/

variable {taskId : String}

/-- A program none of whose calls changes the lease. -/
abbrev LeavesLease (taskId : String) {α : Type} (p : Db α) : Prop :=
  Safe (fun _ => True) (SameLease taskId) p

theorem KeepsLeases.same {s s' : Store} (h : KeepsLeases s s') : SameLease taskId s s' := by
  rw [SameLease, h.leases]

/-- What leaves all leases alone leaves that of the task alone. -/
theorem leavesLease_of_keeps {α : Type} {p : Db α} (h : Safe (fun _ => True) KeepsLeases p) :
    LeavesLease taskId p := h.mono fun _ _ _ hkeeps => hkeeps.same

theorem leavesLease_of_keepsClients {α : Type} {p : Db α} (h : KeepsClients p) :
    LeavesLease taskId p := leavesLease_of_keeps (keepsLeases_of_keepsClients h)

theorem leavesLease_appendEvent (fields : Nat → EventFields) :
    LeavesLease taskId (appendEvent fields) :=
  leavesLease_of_keepsClients (keepsClients_appendEvent fields)

theorem leavesLease_rule : CallRule (fun {_} p => LeavesLease taskId p) where
  done _ := trivial
  bind hp hk := Program.safe_bind hp hk
  query f := leavesLease_of_keepsClients (keepsClients_query f)
  registerClientManifest m := leavesLease_of_keeps (keepsLeases_rule.registerClientManifest m)
  recordClientHeartbeat b := leavesLease_of_keeps (keepsLeases_rule.recordClientHeartbeat b)
  appendEvent fields _ := leavesLease_appendEvent fields
  createWorkItem item caller summary now :=
    leavesLease_of_keepsClients (keepsClients_createWorkItem item caller summary now)
  transition id target caller change summary now :=
    leavesLease_of_keepsClients (keepsClients_transition id target caller change summary now)
  saveDiffProposal p hid _ := leavesLease_of_keepsClients (keepsClients_saveDiffProposal p hid)
  saveApprovalEvent e hid := leavesLease_of_keepsClients (keepsClients_saveApprovalEvent e hid)

theorem leavesLease_ingest (e : EventFields) (eventId : Option Keyed.RecordId) (now : DateTime) :
    LeavesLease taskId (ingest e eventId now) :=
  leavesLease_of_keepsClients (keepsClients_ingest e eventId now)

end Bystanders

/-! ## The programs of a request that acquires -/

section Acquire

variable {taskId : String} (q : Checked TaskLeaseAcquireRequest) (now : DateTime)

/-- The first call finds the client, or ends the request. -/
theorem acquire_call : leaseResponse (acquire q now) = Program.call (fun s => s) fun s =>
    Program.done (fetched q.1.clientId ManifestRow.payload (s.clientManifests.find? q.1.clientId))
      >>= fun _ => leaseResponse (acquireLease q now) := by
  show Program.call _ _ = Program.call _ _
  congr 1
  funext s
  show Program.bind (Program.bind (Program.done (fetched q.1.clientId ManifestRow.payload
    (s.clientManifests.find? q.1.clientId))) _) _ = _
  cases fetched q.1.clientId ManifestRow.payload (s.clientManifests.find? q.1.clientId) <;> rfl

/-- The second call looks for the lease. -/
theorem acquireLease_call : leaseResponse (acquireLease q now) = Program.call (fun s => s) fun s =>
    Program.done (existingIn q.1.taskId s) >>= fun existing =>
      leaseResponse (acquireAfter q now existing) := by
  rw [leaseResponse, acquireLease, existingLease_eq]
  show Program.call _ _ = Program.call _ _
  congr 1
  funext s
  show Program.bind (Program.bind (Program.done (existingIn q.1.taskId s)) _) _ = _
  cases existingIn q.1.taskId s <;> rfl

/-- The third call saves the lease, when the client is still known. -/
theorem grantAcquire_call : leaseResponse (grantAcquire q now) =
    Program.call (fun s => ((upsertTaskLease (newTaskLease q now).1).run s).2) fun s =>
      Program.done ((upsertTaskLease (newTaskLease q now).1).run s).1 >>= fun lease =>
        leaseResponse (recordAcquire lease now) := by
  show Program.call _ _ = Program.call _ _
  congr 1
  funext s
  show Program.bind (Program.bind (Program.done
    ((upsertTaskLease (newTaskLease q now).1).run s).1) _) _ = _
  cases ((upsertTaskLease (newTaskLease q now).1).run s).1 <;> rfl

/-- `save_task_lease` stores the lease, or raises and changes nothing. -/
theorem run_upsertTaskLease (l : TaskLease) (s : Store) :
    (upsertTaskLease l).run s = (.ok l, s.putLease l) ∨
      ∃ e, (upsertTaskLease l).run s = (.error e, s) := by
  simp only [upsertTaskLease, Program.run_bind, selectClientManifest, run_query, run_execute]
  cases fetched l.clientId ManifestRow.payload (s.clientManifests.find? l.clientId) with
  | ok m => exact Or.inl rfl
  | error e => exact Or.inr ⟨e, rfl⟩

theorem find?_putLease (s : Store) (l : TaskLease) :
    (s.putLease l).taskLeases.find? l.taskId = some (leaseRow l) := by
  rw [Store.putLease_taskLeases, Table.find?_upsert]
  exact if_pos rfl

/-- A request about to save may change the lease: it does in a store that knows its client. -/
theorem mayWriteLease_grantAcquire :
    MayWriteLease q.1.taskId (leaseResponse (grantAcquire q now)) := by
  let s : Store := { Store.empty with
    clientManifests := Table.empty.upsert ⟨q.1.clientId, "", sampleManifest⟩ }
  have hclient : s.clientManifests.find? q.1.clientId = some ⟨q.1.clientId, "", sampleManifest⟩ := by
    rw [Table.find?_upsert]
    exact if_pos rfl
  have hrun : Returns (upsertTaskLease (newTaskLease q now).1) s (newTaskLease q now).1
      (s.putLease (newTaskLease q now).1) :=
    returns_upsertTaskLease.mpr
      ⟨⟨_, _, hclient, Model.build_of_valid sampleManifest_valid⟩, rfl, rfl⟩
  refine ⟨_, _, s, grantAcquire_call q now, ?_⟩
  show (((upsertTaskLease (newTaskLease q now).1).run s).2).taskLeases.find? _ ≠ none
  rw [show (upsertTaskLease (newTaskLease q now).1).run s = _ from hrun]
  rw [show q.1.taskId = (newTaskLease q now).1.taskId from rfl, find?_putLease]
  exact fun h => nomatch h

end Acquire

/-! ## Idle requests -/

section Phases

variable {taskId : String}

/-- If the response grants the lease of the task, the lease satisfies `W`. -/
def GrantsOnly (taskId : String) (W : TaskLease → Prop) : Response → Prop
  | .lease r => r.statusCode = 201 → r.lease.taskId = taskId → W r.lease
  | _ => True

/-- A program that leaves the lease alone, and grants none or one that satisfies `W`. -/
structure Bystander (taskId : String) (W : TaskLease → Prop) (p : Db Response) : Prop where
  leaves : LeavesLease taskId p
  ends : Ends (GrantsOnly taskId W) p

theorem Bystander.raise {W : TaskLease → Prop} (e : PyError) : Bystander taskId W (Program.raise e) :=
  ⟨trivial, trivial⟩

theorem Bystander.call {W : TaskLease → Prop} {next : Store → Store} {cont : Store → Db Response}
    (h : Bystander taskId W (.call next cont)) (s : Store) :
    SameLease taskId s (next s) ∧ Bystander taskId W (cont s) := by
  obtain ⟨hsame, -, hrest⟩ := h.leaves s trivial
  exact ⟨hsame, hrest, h.ends s⟩

/-- The calls after the save return the lease that was saved. -/
theorem bystander_recordAcquire (l : TaskLease) (now : DateTime) :
    Bystander taskId (· = l) (leaseResponse (recordAcquire l now)) where
  leaves := leavesLease_rule.map (leavesLease_rule.map (leavesLease_appendEvent _) _) _
  ends := Program.ends_bind (@Program.ends_map _ _ _ _ (fun r => r.lease = l) _ _ fun _ => rfl)
    fun _ h _ _ => h

/-- A denial grants nothing. -/
theorem bystander_denyAcquire (q : TaskLeaseAcquireRequest) (existing : Checked TaskLease)
    (now : DateTime) :
    Bystander taskId (fun _ => False) (leaseResponse (denyAcquire q existing now)) where
  leaves := leavesLease_rule.map (leavesLease_rule.denyAcquire q existing now) _
  ends := Program.ends_bind (@Program.ends_map _ _ _ _ (fun r => r.statusCode = 409) _ _ fun _ => rfl)
    fun r h h201 _ => absurd (h.symm.trans h201) (by decide)

/-- A request for another task leaves this one alone. -/
theorem bystander_acquire_other {q : Checked TaskLeaseAcquireRequest} (hq : q.1.taskId ≠ taskId)
    (now : DateTime) :
    Bystander taskId (fun _ => False) (leaseResponse (acquire q now)) where
  leaves := by
    refine leavesLease_rule.map (leavesLease_rule.acquire ?_) _
    refine Program.safe_atomic fun s _ => ⟨?_, trivial⟩
    rcases run_upsertTaskLease (newTaskLease q now).1 s with h | ⟨e, h⟩
    · rw [h, SameLease, Store.putLease_taskLeases, Table.find?_upsert]
      exact if_neg hq
    · rw [h]
      rfl
  ends := by
    refine Program.ends_bind (Q := fun r => r.statusCode = 201 → r.lease.taskId = q.1.taskId)
      ?_ fun r h h201 htask => hq ((h h201).symm.trans htask)
    refine Program.ends_bind (Program.ends_true _) fun _ _ => ?_
    refine Program.ends_bind (Program.ends_true _) fun existing _ => ?_
    have hgrant : Ends (fun r => r.statusCode = 201 → r.lease.taskId = q.1.taskId)
        (grantAcquire q now) := by
      refine Program.ends_bind (Q := fun l => l.taskId = q.1.taskId) ?_ fun l h => ?_
      · refine Program.ends_atomic fun s l hl => ?_
        rcases run_upsertTaskLease (newTaskLease q now).1 s with h | ⟨e, h⟩ <;> rw [h] at hl
        · cases hl; rfl
        · cases hl
      · exact Program.ends_map _ fun _ _ => h
    cases existing with
    | none => exact hgrant
    | some l =>
      show Ends _ (if l.1.status = .active then _ else _)
      split
      · exact Program.ends_map _ fun _ h => absurd h (show (409 : Nat) ≠ 201 by decide)
      · exact hgrant

/-- A request that cannot be granted the lease of the task without looking for it first. -/
def Idle (taskId : String) (p : Db Response) : Prop :=
  Bystander taskId (fun _ => False) p ∨ ∃ q now, q.1.taskId = taskId ∧
    (p = leaseResponse (acquire q now) ∨ p = leaseResponse (acquireLease q now))

/-- Every request that leaves held leases alone starts idle. -/
theorem idle_perform {r : Request} (hr : r.leavesHeldLeases = true) (o : Outside)
    (now : DateTime) : Idle taskId (r.perform o now) := by
  have hrule := @leavesLease_rule taskId
  cases r with
  | acquire q =>
    by_cases hq : q.1.taskId = taskId
    · exact Or.inr ⟨q, now, hq, Or.inl rfl⟩
    · exact Or.inl (bystander_acquire_other hq now)
  | register m => exact Or.inl ⟨hrule.map (hrule.register m now) _, Program.ends_map _ fun _ => trivial⟩
  | heartbeat b => exact Or.inl ⟨hrule.map (hrule.heartbeat b) _, Program.ends_map _ fun _ => trivial⟩
  | createWorkItem item caller summary =>
    exact Or.inl ⟨hrule.map (hrule.createWorkItem item caller summary now) _,
      Program.ends_map _ fun _ => trivial⟩
  | transition c =>
    exact Or.inl ⟨hrule.map (hrule.transitionCall c now) _, Program.ends_map _ fun _ => trivial⟩
  | schedule c =>
    exact Or.inl ⟨hrule.map (hrule.scheduleCall c now) _, Program.ends_map _ fun _ => trivial⟩
  | ingest e id =>
    exact Or.inl ⟨hrule.map (leavesLease_ingest e id now) _, Program.ends_map _ fun _ => trivial⟩
  | approve q =>
    exact Or.inl ⟨hrule.map (hrule.approve o.computeHash q now) _,
      Program.ends_map _ fun _ => trivial⟩
  | propose q =>
    exact Or.inl ⟨hrule.map (hrule.propose o.sha256 o.str q now) _,
      Program.ends_map _ fun _ => trivial⟩
  | unregister _ => cases hr
  | staleScan _ _ _ => cases hr
  | renew _ _ => cases hr
  | release _ _ => cases hr
  | expire _ => cases hr

/-- An idle request that has ended was not granted the lease. -/
theorem Idle.not_granted {r : TaskLeaseResult} (h : Idle taskId (.done (.ok (.lease r))))
    (hcode : r.statusCode = 201) : r.lease.taskId ≠ taskId := by
  rcases h with h | ⟨q, now, -, h | h⟩
  · exact h.ends hcode
  · rw [acquire_call] at h
    cases h
  · rw [acquireLease_call] at h
    cases h

/-- The task has the active lease `l`. -/
structure Holds (taskId : String) (l : TaskLease) (s : Store) : Prop where
  valid : Model.Valid l
  active : l.status = .active
  row : s.taskLeases.find? taskId = some (leaseRow l)

theorem Holds.of_same {l : TaskLease} {s s' : Store} (h : Holds taskId l s)
    (hs : SameLease taskId s s') : Holds taskId l s' := ⟨h.valid, h.active, hs.trans h.row⟩

theorem Holds.existing {l : TaskLease} {s : Store} (h : Holds taskId l s) :
    existingIn taskId s = .ok (some ⟨l, h.valid⟩) := by
  have hbuild : fetched taskId LeaseRow.payload (s.taskLeases.find? taskId) = .ok ⟨l, h.valid⟩ :=
    fetched_eq_ok.mpr ⟨_, h.row, Model.build_of_valid h.valid⟩
  rw [existingIn, hbuild]

/-- The next call of an idle request leaves the lease alone.  The request stays idle, or its call
    was the look, nobody held the lease, and the next call saves one. -/
theorem Idle.call {next : Store → Store} {cont : Store → Db Response}
    (h : Idle taskId (.call next cont)) (s : Store) :
    SameLease taskId s (next s) ∧ (Idle taskId (cont s) ∨
      AboutToLook taskId (.call next cont) ∧ (∀ l, ¬ Holds taskId l s) ∧
      ∃ q now, q.1.taskId = taskId ∧ cont s = leaseResponse (grantAcquire q now)) := by
  rcases h with h | ⟨q, now, hq, h | h⟩
  · exact ⟨(h.call s).1, Or.inl (Or.inl (h.call s).2)⟩
  · rw [acquire_call] at h
    obtain ⟨rfl, rfl⟩ := Program.call.inj h
    refine ⟨rfl, Or.inl ?_⟩
    beta_reduce
    cases fetched q.1.clientId ManifestRow.payload (s.clientManifests.find? q.1.clientId) with
    | ok m => exact Or.inr ⟨q, now, hq, Or.inr rfl⟩
    | error e => exact Or.inl (.raise e)
  · have hlook : AboutToLook taskId (.call next cont) := ⟨q, now, hq, h⟩
    rw [acquireLease_call] at h
    obtain ⟨rfl, rfl⟩ := Program.call.inj h
    refine ⟨rfl, ?_⟩
    beta_reduce
    cases hex : existingIn q.1.taskId s with
    | error e => exact Or.inl (Or.inl (.raise e))
    | ok existing =>
      have hnone (hno : ∀ l : Checked TaskLease, existing = some l → l.1.status ≠ .active) :
          ∀ l, ¬ Holds taskId l s := by
        intro l hl
        rw [hq, hl.existing] at hex
        exact hno ⟨l, hl.valid⟩ (Except.ok.inj hex).symm hl.active
      cases existing with
      | none => exact Or.inr ⟨hlook, hnone (fun _ h => nomatch h), q, now, hq, rfl⟩
      | some lease =>
        by_cases hactive : lease.1.status = .active
        · left; left
          show Bystander taskId _ (leaseResponse (if lease.1.status = .active then _ else _))
          rw [if_pos hactive]
          exact bystander_denyAcquire q.1 lease now
        · right
          refine ⟨hlook, hnone (fun l h => ?_), q, now, hq, ?_⟩
          · cases h
            exact hactive
          · show leaseResponse (if lease.1.status = .active then _ else _) = _
            rw [if_neg hactive]

/-! ## The phases of a run -/

/-- Every thread but those of which `except` holds is idle. -/
def IdleExcept (taskId : String) (except : Nat → Prop) (threads : List (Db Response)) : Prop :=
  ∀ j p, ¬ except j → threads[j]? = some p → Idle taskId p

theorem IdleExcept.set {except : Nat → Prop} {threads : List (Db Response)}
    (h : IdleExcept taskId except threads) {i : Nat} {p : Db Response}
    (hp : ¬ except i → Idle taskId p) : IdleExcept taskId except (threads.set i p) := by
  intro j p' hj hget
  by_cases hij : i = j
  · subst hij
    rw [List.getElem?_set_self'] at hget
    obtain ⟨_, -, rfl⟩ := Option.map_eq_some_iff.mp hget
    exact hp hj
  · rw [List.getElem?_set_ne hij] at hget
    exact h j p' hj hget

/-- Where the requests are. -/
inductive Phase (taskId : String) (P : Pool Store PyError Response) : Prop where
  | free (h : IdleExcept taskId (fun _ => False) P.threads)
  | saving (i : Nat) (q : Checked TaskLeaseAcquireRequest) (now : DateTime)
      (hq : q.1.taskId = taskId) (hi : P.threads[i]? = some (leaseResponse (grantAcquire q now)))
      (h : IdleExcept taskId (· = i) P.threads)
  | held (i : Nat) (l : TaskLease) (p : Db Response) (hi : P.threads[i]? = some p)
      (hp : Bystander taskId (· = l) p) (hl : Holds taskId l P.state)
      (h : IdleExcept taskId (· = i) P.threads)

theorem getElem?_set_of_some {α : Type} {l : List α} {i : Nat} {a b : α} (h : l[i]? = some a) :
    (l.set i b)[i]? = some b := by
  rw [List.getElem?_set_self', h]
  rfl

/-- The save of the one thread that is about to save. -/
theorem Phase.save {P : Pool Store PyError Response} {i : Nat} {q : Checked TaskLeaseAcquireRequest}
    {now : DateTime} {next : Store → Store} {cont : Store → Db Response}
    (hq : q.1.taskId = taskId) (hi : P.threads[i]? = some (.call next cont))
    (hcall : Program.call next cont = leaseResponse (grantAcquire q now))
    (h : IdleExcept taskId (· = i) P.threads) :
    Phase taskId ⟨next P.state, P.threads.set i (cont P.state)⟩ := by
  have hset := getElem?_set_of_some (b := cont P.state) hi
  rw [grantAcquire_call] at hcall
  obtain ⟨rfl, rfl⟩ := Program.call.inj hcall
  rcases run_upsertTaskLease (newTaskLease q now).1 P.state with hrun | ⟨e, hrun⟩
  · beta_reduce at hset ⊢
    rw [hrun] at hset ⊢
    refine .held i (newTaskLease q now).1 _ hset (bystander_recordAcquire _ now) ?_
      (h.set fun hne => absurd rfl hne)
    exact ⟨(newTaskLease q now).2, rfl, hq ▸ find?_putLease P.state _⟩
  · beta_reduce at hset ⊢
    rw [hrun] at hset ⊢
    refine .free fun j p _ hj => ?_
    by_cases hij : j = i
    · rw [hij] at hj
      cases hset.symm.trans hj
      exact Or.inl (.raise e)
    · exact h.set (fun hne => absurd rfl hne) j p hij hj

/-- A step along the condition leads from phase to phase. -/
theorem phase_step {P : Pool Store PyError Response} {i : Nat} (h : Phase taskId P)
    (halone : LooksAlone taskId P i) : Phase taskId (P.step i) := by
  rcases P.step_cases i with hstep | ⟨next, cont, hi, hstep⟩
  · rwa [hstep]
  rw [hstep]
  cases h with
  | free h =>
    obtain ⟨-, hidle | ⟨-, -, q, now, hq, hsave⟩⟩ := (h i _ id hi).call P.state
    · exact .free (h.set fun _ => hidle)
    · refine .saving i q now hq ?_ fun j p hj => ?_
      · rw [← hsave]
        exact getElem?_set_of_some hi
      · rw [List.getElem?_set_ne (Ne.symm hj)]
        exact h j p id
  | saving k q now hq hk h =>
    by_cases hik : i = k
    · subst hik
      exact .save hq hi (Option.some.inj (hi.symm.trans hk)) h
    · obtain ⟨-, hidle | ⟨hlook, -, -⟩⟩ := (h i _ hik hi).call P.state
      · refine .saving k q now hq ?_ (h.set fun _ => hidle)
        rwa [List.getElem?_set_ne hik]
      · subst hq
        exact absurd (mayWriteLease_grantAcquire q now) (halone _ hi hlook k _ (Ne.symm hik) hk)
  | held k l p hk hp hl h =>
    by_cases hik : i = k
    · subst hik
      cases hi.symm.trans hk
      obtain ⟨hsame, hrest⟩ := hp.call P.state
      exact .held i l _ (getElem?_set_of_some hi) hrest (hl.of_same hsame)
        (h.set fun hne => absurd rfl hne)
    · obtain ⟨hsame, hidle | ⟨-, hnone, -⟩⟩ := (h i _ hik hi).call P.state
      · refine .held k l p ?_ hp (hl.of_same hsame) (h.set fun _ => hidle)
        rwa [List.getElem?_set_ne hik]
      · exact absurd hl (hnone l)

/-- In every phase at most one request was granted the lease, and it is the stored one. -/
theorem Phase.exclusive {P : Pool Store PyError Response} (h : Phase taskId P) :
    LeaseExclusive taskId P := by
  have hidle : ∀ {except : Nat → Prop}, IdleExcept taskId except P.threads →
      ∀ {i l}, Granted taskId P i l → except i := by
    intro except h i l ⟨r, hi, hcode, hlease, htask⟩
    by_contra hno
    exact (h i _ hno hi).not_granted hcode (hlease ▸ htask)
  cases h with
  | free h => exact ⟨fun i j l m hi _ => (hidle h hi).elim, fun i l hi => (hidle h hi).elim⟩
  | saving k q now hq hk h =>
    have hnone : ∀ i l, ¬ Granted taskId P i l := by
      intro i l hi
      obtain rfl := hidle h hi
      obtain ⟨r, hi, -⟩ := hi
      rw [hk, grantAcquire_call] at hi
      cases hi
    exact ⟨fun i j l m hi _ => (hnone i l hi).elim, fun i l hi => (hnone i l hi).elim⟩
  | held k l p hk hp hl h =>
    refine ⟨fun i j _ _ hi hj => (hidle h hi).trans (hidle h hj).symm, fun i m hi => ?_⟩
    obtain rfl := hidle h hi
    obtain ⟨r, hi, hcode, hlease, htask⟩ := hi
    cases hk.symm.trans hi
    have : m = l := hlease ▸ hp.ends hcode (hlease ▸ htask)
    rw [this]
    exact hl.row

end Phases

/-! ## Exclusion -/

/-- In every interleaving of requests none of which releases, renews or expires a lease or removes
    a client, at most one is granted the lease of the task and that lease stays stored, as long as
    no request looks for it while another is about to save one. -/
theorem acquire_exclusive (o : Outside) (taskId : String) (s : Store)
    (requests : List (Request × DateTime)) (hreq : ∀ r ∈ requests, r.1.leavesHeldLeases = true)
    (schedule : List Nat)
    (halone : Pool.Along (LooksAlone taskId) (poolOf o s requests) schedule) :
    LeaseExclusive taskId ((poolOf o s requests).exec schedule) := by
  have hidle : IdleExcept taskId (fun _ => False) (poolOf o s requests).threads := by
    intro j p _ hj
    obtain ⟨r, hr, rfl⟩ := List.mem_map.mp (List.mem_of_getElem? hj)
    exact idle_perform (hreq r hr) o r.2
  exact (Pool.exec_along (fun _ _ => phase_step) schedule _ (Phase.free hidle) halone).exclusive

/-! ## Two requests that look before either saves -/

def otherManifest : ClientManifest := { sampleManifest with clientId := "c2" }

def otherAcquire : Checked TaskLeaseAcquireRequest :=
  ⟨{ taskId := "t1", runId := "r1", clientId := "c2", role := "builder", actor := "bob" },
    rfl, by decide⟩

/-- A store with two registered clients. -/
def twoClients : Store := { Store.empty with
  clientManifests :=
    (Table.empty.upsert (manifestRow sampleManifest)).upsert (manifestRow otherManifest) }

/-- Both clients ask for the lease of one task. -/
def twoAcquires : List (Request × DateTime) :=
  [(.acquire sampleAcquire, epoch), (.acquire otherAcquire, epoch)]

/-- Taking turns, both requests look before either saves, and both are granted the lease. -/
theorem twoAcquires_both_granted : ¬ LeaseExclusive "t1"
    ((poolOf sampleOutside twoClients twoAcquires).exec [0, 1, 0, 1, 0, 1, 0, 0, 1, 1]) := by
  intro h
  have hfirst : Granted "t1" ((poolOf sampleOutside twoClients twoAcquires).exec
      [0, 1, 0, 1, 0, 1, 0, 0, 1, 1]) 0 (newTaskLease sampleAcquire epoch).1 :=
    ⟨_, rfl, rfl, rfl, rfl⟩
  have hsecond : Granted "t1" ((poolOf sampleOutside twoClients twoAcquires).exec
      [0, 1, 0, 1, 0, 1, 0, 0, 1, 1]) 1 (newTaskLease otherAcquire epoch).1 :=
    ⟨_, rfl, rfl, rfl, rfl⟩
  exact absurd (h.one 0 1 _ _ hfirst hsecond) (by decide)

/-- The first of two threads looks alone while the second has not started. -/
theorem looksAlone_before {taskId : String} {s : Store} {p : Db Response}
    {q : Checked TaskLeaseAcquireRequest} {now : DateTime} :
    LooksAlone taskId ⟨s, [p, leaseResponse (acquire q now)]⟩ 0 := by
  rintro _ - - (_ | _ | j) p' hj hget ⟨next, cont, t, rfl, hwrites⟩
  · exact hj rfl
  · cases hget
    exact hwrites rfl
  · cases hget

/-- The second of two threads looks alone once the first has ended. -/
theorem looksAlone_after {taskId : String} {s : Store} {p : Db Response}
    {r : Except PyError Response} : LooksAlone taskId ⟨s, [.done r, p]⟩ 1 := by
  rintro _ - - (_ | _ | j) p' hj hget ⟨next, cont, t, rfl, hwrites⟩
  · cases hget
  · exact hj rfl
  · cases hget

/-- One after the other, the requests meet the condition; the first is granted the lease, and the
    second refused. -/
theorem acquire_exclusive_inTurn : LeaseExclusive "t1"
    ((poolOf sampleOutside twoClients twoAcquires).exec [0, 0, 0, 0, 0, 1, 1, 1, 1]) :=
  acquire_exclusive sampleOutside "t1" twoClients twoAcquires (by decide) _
    ⟨looksAlone_before, looksAlone_before, looksAlone_before, looksAlone_before,
      looksAlone_before, looksAlone_after, looksAlone_after, looksAlone_after, looksAlone_after,
      trivial⟩

end Vad
