/-
  Approvals over any run of the server (`vad/server/api/approvals.py`, `vad/server/app.py`, and
  `save_run_evidence` of `vad/server/db/store.py`).

  An approval loads the evidence of a run in one call of the store and records its decision in the
  next.  In between, other requests go on, and whoever runs the loop may save other evidence under
  the same run id, with another builder.

  1. **Aside** (`Request.aside`) — no other request touches approvals or evidence.
  2. **Stages** (`Stage`) — where a thread may be: aside, about to save evidence, about to load it,
     about to record a decision about evidence that was stored once, or done.
  3. **Any run** (`approvals_accounted`) — the approvals that were recorded are the approvals that
     were answered, one for one; and each was decided on evidence that was stored under its run, by
     the digest that the approval carries, so that an allowed one was asked for by a release guardian
     who is not the builder named there.
-/
import Vad.Server.Archive
import Vad.Server.References

namespace Vad

open Keyed (Table RecordId)
open Atomic (Program Pool)
open Atomic.Program (Safe Ends ends_map ends_bind ends_true)

/-! ## What the others do -/

def evidenceRow (computeHash : RunEvidence → String) (e : RunEvidence) : RunEvidenceRow :=
  ⟨e.runId, computeHash e, e.createdAt, e⟩

/-- Neither approvals nor evidence are touched. -/
def SameReview (s s' : Store) : Prop :=
  s'.approvalEvents = s.approvalEvents ∧ s'.runEvidence = s.runEvidence

theorem sameReview_ledgerOnly : LedgerOnly SameReview where
  refl _ := ⟨rfl, rfl⟩
  ledger _ _ _ := ⟨rfl, rfl⟩

theorem sameReview_offClients : OffClients SameReview where
  refl _ := ⟨rfl, rfl⟩
  trans h h' := ⟨h'.1.trans h.1, h'.2.trans h.2⟩
  tables _ _ _ _ _ := ⟨rfl, rfl⟩
  delete _ _ := ⟨rfl, rfl⟩

/-- `p` leaves both tables alone, call by call. -/
abbrev Aside {α : Type} (p : Db α) : Prop := Safe (fun _ => True) SameReview p

theorem aside_upsertStateRow (st : Checked RunTaskState) : Aside (upsertStateRow st) :=
  sameReview_offClients.execute fun s s' h => by cases h; exact ⟨rfl, rfl⟩

theorem aside_upsertRunTaskState (st : Checked RunTaskState) : Aside (upsertRunTaskState st) :=
  sameReview_offClients.storeCall (aside_upsertStateRow st)

theorem aside_storeWorkItem (item : Checked WorkItem) : Aside (storeWorkItem item) := by
  refine sameReview_offClients.storeCall (Program.safe_bind (sameReview_offClients.query _) fun _ =>
    Program.safe_bind (sameReview_offClients.execute fun s s' h => ?_) fun _ =>
      Program.safe_bind (aside_upsertStateRow _) fun _ => trivial)
  split at h
  · cases h
    exact ⟨rfl, rfl⟩
  · cases h

theorem aside_saveWorkItem (item : Checked WorkItem) : Aside (saveWorkItem item) := by
  refine sameReview_offClients.storeCall (Program.safe_bind
    (sameReview_offClients.execute fun s s' h => ?_) fun _ =>
      Program.safe_bind (aside_upsertStateRow _) fun _ => trivial)
  split at h
  · split at h
    · cases h
      exact ⟨rfl, rfl⟩
    · cases h
  · cases h

theorem aside_transition (id : String) (target : WorkItemStatus) (caller : Caller)
    (change : WorkItemChange) (summary : Option String) (now : DateTime) :
    Aside (transition id target caller change summary now) := by
  refine Program.safe_bind (sameReview_offClients.query _) fun current => ?_
  unfold transitionFrom
  split
  · refine Program.safe_bind (p := Program.done _) trivial fun updated => ?_
    refine Program.safe_bind (aside_storeWorkItem _) fun saved => ?_
    refine Program.safe_bind (aside_upsertRunTaskState _) fun _ => ?_
    exact Program.safe_bind (sameReview_ledgerOnly.appendEvent _) fun _ => trivial
  · exact Program.safe_bind (sameReview_ledgerOnly.appendEvent _) fun _ => trivial

theorem aside_rule : WorkRule (fun {_} p => Aside p) where
  done _ := trivial
  bind hp hk := Program.safe_bind hp hk
  query := sameReview_offClients.query
  appendEvent fields _ := sameReview_ledgerOnly.appendEvent fields
  transition := aside_transition

theorem Request.aside {r : Request} (hr : ∀ q, r ≠ .approve q) (o : Outside) (now : DateTime) :
    Aside (r.perform o now) := by
  have rule := aside_rule
  have hP : WeakerThanValid fun _ => True := fun _ _ => trivial
  have hsave : ∀ l, GoodLease (fun _ => True) l → Aside (saveTaskLease l) :=
    fun l _ => sameReview_offClients.saveTaskLease l
  cases r with
  | register m =>
    exact rule.map (rule.queries.register (sameReview_offClients.registerClientManifest m) now) _
  | unregister id =>
    exact rule.map (rule.queries.unregister (sameReview_offClients.unregisterClientManifest id) now) _
  | heartbeat b =>
    exact rule.map (rule.queries.heartbeat (sameReview_offClients.recordClientHeartbeat b)) _
  | staleScan reference seconds auto =>
    exact rule.map (rule.scheduling.markStaleClientsWithRecovery
      sameReview_offClients.markClientStale reference seconds auto now) _
  | acquire q => exact rule.map (rule.queries.acquire (sameReview_offClients.saveTaskLease _)) _
  | renew id q => exact rule.map (rule.queries.renew hP hsave id q now) _
  | release id q => exact rule.map (rule.queries.release hsave id q trivial now) _
  | expire id => exact rule.map (rule.queries.expire hP hsave id now) _
  | createWorkItem item caller summary =>
    exact rule.map (Program.safe_bind (aside_saveWorkItem item) fun _ =>
      Program.safe_bind (aside_upsertRunTaskState _) fun _ =>
        Program.safe_bind (sameReview_ledgerOnly.appendEvent _) fun _ => Program.safe_pure _) _
  | transition c => exact rule.map (rule.transitionCall c now) _
  | schedule c => exact rule.map (rule.scheduleCall c now) _
  | ingest e id => exact rule.map (sameReview_ledgerOnly.ingest e id now) _
  | approve q => exact absurd rfl (hr q)
  | propose q =>
    exact rule.map (rule.queries.propose
      (fun p hid _ => Program.safe_atomic fun _ _ => ⟨⟨rfl, rfl⟩, trivial⟩) o.sha256 o.str q now) _

/-! ## Threads -/

/-- Whoever uses the store: a request of the server, or a loop that saves the evidence of a run. -/
inductive StoreUser where
  | request (r : Request) (now : DateTime)
  | saveEvidence (e : Checked RunEvidence)

def StoreUser.program (o : Outside) : StoreUser → Db (Option Response)
  | .request r now => do pure (some (← r.perform o now))
  | .saveEvidence e => do
    let _ ← saveRunEvidence o.computeHash e
    pure none

/-- The approval that a thread has answered with. -/
def answeredApproval : Db (Option Response) → Option ApprovalEvent
  | .done (.ok (some (.approval r))) => some r.event
  | _ => none

/-- An answer that is no approval. -/
def NoApproval (a : Option Response) : Prop := ∀ r, a ≠ some (.approval r)

theorem answeredApproval_of_ends {p : Db (Option Response)} (h : Ends NoApproval p) :
    answeredApproval p = none := by
  unfold answeredApproval
  split
  · rename_i r
    exact absurd rfl (h r)
  · rfl

theorem Request.ends_noApproval {r : Request} (hr : ∀ q, r ≠ .approve q) (o : Outside)
    (now : DateTime) : Ends NoApproval (StoreUser.program o (.request r now)) := by
  have hother {p : Db Response} (h : Ends (fun a => ∀ r, a ≠ .approval r) p) :
      Ends NoApproval (do pure (some (← p))) := by
    refine ends_bind h fun a ha r heq => ?_
    cases heq
    exact ha r rfl
  refine hother ?_
  cases r with
  | approve q => exact absurd rfl (hr q)
  | _ => exact ends_map _ fun a r h => by cases h

/-! ## The two calls of an approval -/

/-- The rest of an approval, once the evidence is loaded. -/
def recordDecision (fields : RecordId → ApprovalEvent) (hid : ∀ k, (fields k).approvalId = k)
    (code : Nat) : Db (Option Response) := do
  let event ← saveApprovalEvent fields hid
  pure (some (.approval { statusCode := code, event := event }))

/-- What `load_run_evidence` reads. -/
def loadedEvidence (o : Outside) (runId : String) (s : Store) :
    Except PyError (Checked RunEvidence × String) :=
  match s.runEvidence.find? runId with
  | none => .error (.keyError runId)
  | some row =>
    match Model.build row.payload with
    | .error e => .error e
    | .ok evidence =>
      if o.computeHash evidence.1 = row.evidenceDigest then .ok (evidence, row.evidenceDigest)
      else .error (.valueError "stored run evidence digest mismatch")

/-- The event of a decision on loaded evidence. -/
def decisionFields (q : ApprovalRequest) (now : DateTime) (run : Checked RunEvidence × String)
    (id : RecordId) : ApprovalEvent where
  approvalId := id
  runId := q.runId
  actor := q.actor
  action := q.action
  createdAt := now.isoformat
  decision := approvalDecision q run.1.1.agents.builder
  evidenceDigest := some run.2

theorem decisionFields_id (q : ApprovalRequest) (now : DateTime)
    (run : Checked RunEvidence × String) (id : RecordId) :
    (decisionFields q now run id).approvalId = id := rfl

/-- The rest of a request to approve, by what the load has answered. -/
def afterLoading (q : ApprovalRequest) (now : DateTime) :
    Except PyError (Checked RunEvidence × String) → Db (Option Response)
  | .error e => .done (.error e)
  | .ok run =>
    recordDecision (decisionFields q now run) (decisionFields_id q now run)
      (if (approvalDecision q run.1.1.agents.builder).allow then 201 else 403)

theorem approve_eq (o : Outside) (q : ApprovalRequest) (now : DateTime) :
    StoreUser.program o (.request (.approve q) now) =
      .call (fun s => s) (fun s => afterLoading q now (loadedEvidence o q.runId s)) := by
  show Program.call _ _ = Program.call _ _
  congr 1
  funext s
  show Program.bind (Program.bind (Program.bind (Program.done (loadedEvidence o q.runId s)) _) _) _ = _
  cases loadedEvidence o q.runId s <;> rfl

/-! ## What an approval rests on -/

section Runs

variable (o : Outside) (s₀ : Store) (users : List StoreUser)

/-- Evidence that was stored from the start, or that one of the users saves. -/
def Stored (row : RunEvidenceRow) : Prop :=
  row ∈ s₀.runEvidence.rows ∨
    ∃ e, .saveEvidence e ∈ users ∧ row = evidenceRow o.computeHash e.1

/-- The event records the decision on a request to approve, taken on stored evidence of its run whose
    digest the event carries. -/
def Reviewed (e : ApprovalEvent) : Prop :=
  ∃ q now row, .request (.approve q) now ∈ users ∧ Stored o s₀ users row ∧
    row.runId = q.runId ∧ o.computeHash row.payload = row.evidenceDigest ∧
    e.runId = q.runId ∧ e.actor = q.actor ∧ e.action = q.action ∧
    e.evidenceDigest = some row.evidenceDigest ∧
    e.decision = approvalDecision q row.payload.agents.builder

/-- Where a thread may be. -/
inductive Stage : Db (Option Response) → Prop
  | aside {p} (h : Aside p) (hends : Ends NoApproval p) : Stage p
  | saving {e} (he : .saveEvidence e ∈ users) : Stage (StoreUser.program o (.saveEvidence e))
  | loading {q now} (hq : .request (.approve q) now ∈ users) :
      Stage (StoreUser.program o (.request (.approve q) now))
  | recording {fields hid code} (h : ∀ k, Reviewed o s₀ users (fields k)) :
      Stage (recordDecision fields hid code)
  | answered (r : ApprovalResult) : Stage (.done (.ok (some (.approval r))))

/-- The invariant of a pool of such threads. -/
structure Accounted (P : Pool Store PyError (Option Response)) : Prop where
  recorded : ∃ new, P.state.approvalEvents.rows = s₀.approvalEvents.rows ++ new ∧
    (new.map ApprovalRow.payload).Perm (P.threads.filterMap answeredApproval) ∧
    ∀ row ∈ new, Reviewed o s₀ users row.payload
  evidence : ∀ row ∈ P.state.runEvidence.rows, Stored o s₀ users row
  threads : ∀ p ∈ P.threads, Stage o s₀ users p

end Runs

/-! ## One step -/

/-- One thread of a pool moves on from where it had no answer. -/
theorem filterMap_set {α β : Type} {f : α → Option β} {a b : α} (ha : f a = none) :
    ∀ {l : List α} {i : Nat}, l[i]? = some a →
      ((l.set i b).filterMap f).Perm ((f b).toList ++ l.filterMap f) := by
  intro l
  induction l with
  | nil => intro i hi; cases hi
  | cons x l ih =>
    intro i hi
    cases i with
    | zero =>
      cases hi
      rw [List.set_cons_zero, List.filterMap_cons_none ha]
      cases hb : f b with
      | none => rw [List.filterMap_cons_none hb]; exact List.Perm.refl _
      | some y => rw [List.filterMap_cons_some hb]; exact List.Perm.refl _
    | succ i =>
      have hrest := ih (i := i) hi
      rw [List.set_cons_succ]
      cases hx : f x with
      | none => rwa [List.filterMap_cons_none hx, List.filterMap_cons_none hx]
      | some y =>
        rw [List.filterMap_cons_some hx, List.filterMap_cons_some hx]
        exact (hrest.cons y).trans List.perm_middle.symm

section Steps

variable {o : Outside} {s₀ : Store} {users : List StoreUser}
  {P : Pool Store PyError (Option Response)}

/-- A step that records nothing and answers no approval. -/
theorem Accounted.idle (h : Accounted o s₀ users P) {p p' : Db (Option Response)} {i : Nat}
    {s' : Store} (hi : P.threads[i]? = some p) (hp : answeredApproval p = none)
    (hp' : answeredApproval p' = none) (hstage : Stage o s₀ users p')
    (happrovals : s'.approvalEvents = P.state.approvalEvents)
    (hevidence : ∀ row ∈ s'.runEvidence.rows, Stored o s₀ users row) :
    Accounted o s₀ users ⟨s', P.threads.set i p'⟩ := by
  obtain ⟨new, hrows, hperm, hnew⟩ := h.recorded
  refine ⟨⟨new, by rw [happrovals]; exact hrows, ?_, hnew⟩, hevidence, fun x hx => ?_⟩
  · have hset := filterMap_set (b := p') hp hi
    rw [hp'] at hset
    exact hperm.trans hset.symm
  · rcases List.mem_or_eq_of_mem_set hx with hx | rfl
    · exact h.threads x hx
    · exact hstage

/-- The row that was loaded, and what is known of it. -/
theorem loadedEvidence_eq_ok {s : Store} {runId : String} {run : Checked RunEvidence × String}
    (h : loadedEvidence o runId s = .ok run) :
    ∃ row ∈ s.runEvidence.rows, row.runId = runId ∧ row.payload = run.1.1 ∧
      row.evidenceDigest = run.2 ∧ o.computeHash row.payload = row.evidenceDigest := by
  unfold loadedEvidence at h
  cases hrow : s.runEvidence.find? runId with
  | none => rw [hrow] at h; cases h
  | some row =>
    simp only [hrow] at h
    cases hbuild : (Model.build row.payload : Except PyError (Checked RunEvidence)) with
    | error e => rw [hbuild] at h; cases h
    | ok evidence =>
      have hpayload : evidence.1 = row.payload := build_val (fun _ => rfl) hbuild
      simp only [hbuild] at h
      split at h
      · rename_i hdigest
        cases h
        refine ⟨row, Table.mem_of_find? hrow, Table.key_of_find? hrow, hpayload.symm, rfl, ?_⟩
        rw [← hpayload]
        exact hdigest
      · cases h

/-- The evidence is loaded: an exception ends the request, otherwise a decision about it is next. -/
theorem stage_afterLoading {q : ApprovalRequest} {now : DateTime}
    (hq : .request (.approve q) now ∈ users) {s : Store}
    (hevidence : ∀ row ∈ s.runEvidence.rows, Stored o s₀ users row) :
    Stage o s₀ users (afterLoading q now (loadedEvidence o q.runId s)) := by
  cases hload : loadedEvidence o q.runId s with
  | error e => exact .aside trivial trivial
  | ok run =>
    obtain ⟨row, hrow, hrun, hpayload, hdigest, hhash⟩ := loadedEvidence_eq_ok hload
    refine .recording fun k =>
      ⟨q, now, row, hq, hevidence row hrow, hrun, hhash, rfl, rfl, rfl, ?_, ?_⟩
    · rw [hdigest]
      rfl
    · rw [hpayload]
      rfl

theorem answeredApproval_afterLoading (q : ApprovalRequest) (now : DateTime)
    (r : Except PyError (Checked RunEvidence × String)) :
    answeredApproval (afterLoading q now r) = none := by
  cases r <;> rfl

/-- A thread that takes its next call. -/
theorem accounted_step (i : Nat) (h : Accounted o s₀ users P) : Accounted o s₀ users (P.step i) := by
  rcases Pool.step_cases P i with hstep | ⟨next, cont, hi, hstep⟩
  · rw [hstep]
    exact h
  · rw [hstep]
    have hstage := h.threads _ (List.mem_of_getElem? hi)
    generalize hp : Program.call next cont = p at hi hstage
    cases hstage with
    | aside haside hends =>
      subst hp
      obtain ⟨⟨happrovals, hevidence⟩, -, hrest⟩ := haside P.state trivial
      have hendsRest := hends P.state
      exact h.idle hi rfl (answeredApproval_of_ends hendsRest) (.aside hrest hendsRest) happrovals
        (by rw [hevidence]; exact h.evidence)
    | @saving e he =>
      -- the evidence that is saved is one more that was stored
      injection hp with hnext hcont
      subst hnext hcont
      refine h.idle hi rfl rfl (.aside trivial fun r hr => by cases hr) rfl ?_
      exact Table.forall_upsert h.evidence (Or.inr ⟨e, he, rfl⟩)
    | @loading q now hq =>
      rw [approve_eq] at hp hi
      injection hp with hnext hcont
      subst hnext hcont
      exact h.idle hi rfl (answeredApproval_afterLoading q now _) (stage_afterLoading hq h.evidence)
        rfl h.evidence
    | @recording fields hid code hfields =>
      -- the one step that records an approval is the step that answers it
      injection hp with hnext hcont
      subst hnext hcont
      obtain ⟨new, hrows, hperm, hnew⟩ := h.recorded
      have hset := filterMap_set (f := answeredApproval)
        (b := .done (.ok (some (.approval ⟨code, fields (.generated P.state.approvalEvents.drawn)⟩))))
        rfl hi
      refine ⟨⟨new ++ [approvalRow (fields (.generated P.state.approvalEvents.drawn))], ?_, ?_, ?_⟩,
        h.evidence, fun x hx => ?_⟩
      · refine (Keyed.Minted.rows_append P.state.approvalEvents
          (fun k => approvalRow (fields k)) hid).trans ?_
        rw [hrows, List.append_assoc]
      · rw [List.map_append]
        refine (List.perm_append_comm.trans ?_).trans hset.symm
        exact hperm.cons _
      · intro row hrow
        rcases List.mem_append.mp hrow with hrow | hrow
        · exact hnew row hrow
        · rw [List.mem_singleton.mp hrow]
          exact hfields _
      · rcases List.mem_or_eq_of_mem_set hx with hx | rfl
        · exact h.threads x hx
        · exact .answered _
    | answered r => cases hp

end Steps

/-! ## Any run -/

theorem approvalDecision_allow {q : ApprovalRequest} {builder : String}
    (h : (approvalDecision q builder).allow = true) :
    q.actorRole = "release_guardian" ∧ q.action = "approve_release" ∧ q.actor ≠ builder := by
  unfold approvalDecision at h
  simp only at h
  by_cases hrole : q.actorRole ∈ authorizedApprovalRoles
  · by_cases hactor : q.actor = builder
    · simp [hactor] at h
    · by_cases haction : q.action = "approve_release"
      · exact ⟨by simpa [authorizedApprovalRoles] using hrole, haction, hactor⟩
      · simp [haction] at h
  · simp [hrole] at h

theorem stage_start (o : Outside) (s : Store) (users : List StoreUser) :
    ∀ u ∈ users, Stage o s users (u.program o) := by
  intro u hu
  cases u with
  | saveEvidence e => exact .saving hu
  | request r now =>
    by_cases hr : ∃ q, r = .approve q
    · obtain ⟨q, rfl⟩ := hr
      exact .loading hu
    · have hr : ∀ q, r ≠ .approve q := fun q hq => hr ⟨q, hq⟩
      exact .aside (aside_rule.map (Request.aside hr o now) _) (Request.ends_noApproval hr o now)

theorem answeredApproval_start (o : Outside) (u : StoreUser) :
    answeredApproval (u.program o) = none := by
  cases u with
  | saveEvidence e => rfl
  | request r now =>
    by_cases hr : ∃ q, r = .approve q
    · obtain ⟨q, rfl⟩ := hr
      rw [approve_eq]
      rfl
    · have hr : ∀ q, r ≠ .approve q := fun q hq => hr ⟨q, hq⟩
      exact answeredApproval_of_ends (Request.ends_noApproval hr o now)

/-- Requests and loops that use one store at once: the approvals recorded in the course of it are the
    approvals that were answered, each once; each is a decision on evidence that was stored under its
    run and whose digest it carries; and an allowed one was requested by a release guardian other
    than the builder of that evidence. -/
theorem approvals_accounted (o : Outside) (s : Store) (users : List StoreUser)
    (schedule : List Nat) :
    let P := (Pool.mk s (users.map (StoreUser.program o))).exec schedule
    ∃ new, P.state.approvalEvents.rows = s.approvalEvents.rows ++ new ∧
      (new.map ApprovalRow.payload).Perm (P.threads.filterMap answeredApproval) ∧
      ∀ row ∈ new, Reviewed o s users row.payload ∧
        (row.payload.decision.allow = true → ∃ q now evidence,
          .request (.approve q) now ∈ users ∧ Stored o s users evidence ∧
          evidence.runId = row.payload.runId ∧
          row.payload.evidenceDigest = some (o.computeHash evidence.payload) ∧
          q.actorRole = "release_guardian" ∧ row.payload.action = "approve_release" ∧
          row.payload.actor ≠ evidence.payload.agents.builder) := by
  intro P
  have hstart : Accounted o s users (Pool.mk s (users.map (StoreUser.program o))) := by
    refine ⟨⟨[], (List.append_nil _).symm, ?_, fun _ h => absurd h List.not_mem_nil⟩,
      fun _ hrow => Or.inl hrow, fun p hp => ?_⟩
    · have hnone : (users.map (StoreUser.program o)).filterMap answeredApproval = [] := by
        rw [List.filterMap_map, List.filterMap_eq_nil_iff]
        exact fun u _ => answeredApproval_start o u
      rw [hnone]
      exact List.Perm.refl _
    · obtain ⟨u, hu, rfl⟩ := List.mem_map.mp hp
      exact stage_start o s users u hu
  obtain ⟨new, hrows, hperm, hnew⟩ :=
    (Pool.exec_invariant (fun _ i h => accounted_step i h) schedule _ hstart).recorded
  refine ⟨new, hrows, hperm, fun row hrow => ⟨hnew row hrow, fun hallow => ?_⟩⟩
  obtain ⟨q, now, evidence, hq, hstored, hrun, hhash, hrunId, hactor, haction, hdigest, hdecision⟩ :=
    hnew row hrow
  rw [hdecision] at hallow
  obtain ⟨hrole, hasked, hother⟩ := approvalDecision_allow hallow
  exact ⟨q, now, evidence, hq, hstored, hrun.trans hrunId.symm, by rw [hdigest, hhash], hrole,
    haction.trans hasked, by rw [hactor]; exact hother⟩

end Vad
