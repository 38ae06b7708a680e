/-
  The requests of the control plane, and the rule by which something is proved of all of them.

  A `Request` is one call of a service or of the SDK with arguments that have passed its request
  model; `Request.perform` is the program it runs.  `RequestRule` lists what a property of programs
  has to satisfy — it is closed under sequencing, and it holds of every store method the services
  call, of `transition` and of `createWorkItem` — and `RequestRule.request` concludes that every
  request has it.  `CallRule` is the part of it without the methods that write leases or delete
  clients, for the requests that do neither, `WorkRule` the part for the calls about work items, and
  `ScanRule` the one that covers the stale scan.  The results about runs each supply one such rule.

  `Reachable` is the set of stores that any requests leave behind under any schedule of their store
  calls, finished or not.
-/
import Vad.Server.Effects

namespace Vad

open Keyed (RecordId)
open Atomic (Program Pool)

/-! ## Requests -/

/-- The calls that are `WorkItemService.transition` under another name. -/
inductive TransitionCall where
  | transition (id : String) (target : WorkItemStatus) (caller : Caller) (change : WorkItemChange)
      (summary : Option String)
  | assign (id : String) (caller : Caller) (assignedClientId : String) (leaseId : Option String)
      (summary : Option String)
  | start (id : String) (caller : Caller)
  | block (id : String) (caller : Caller) (reason : String)
  | waitForHuman (id : String) (caller : Caller)
  | verify (id : String) (caller : Caller)
  | approve (id : String) (caller : Caller)
  | complete (id : String) (caller : Caller) (evidenceDigest : Option String)
  | fail (id : String) (caller : Caller)
  | cancel (id : String) (caller : Caller)
  | requeue (id : String) (caller : Caller) (summary : Option String)
  | acceptWork (id : String) (caller : Caller)
  | rejectWork (id : String) (caller : Caller) (reason : Option String)
  | blockWork (id : String) (caller : Caller) (reason : String)
  | completeWork (id : String) (caller : Caller) (evidenceDigest : Option String)
  | failWork (id : String) (caller : Caller)

def TransitionCall.perform (now : DateTime) : TransitionCall → Db WorkItemTransitionResult
  | .transition id target caller change summary => Vad.transition id target caller change summary now
  | .assign id caller client lease summary => Vad.assign id caller client lease summary now
  | .start id caller => Vad.start id caller now
  | .block id caller reason => Vad.block id caller reason now
  | .waitForHuman id caller => Vad.waitForHuman id caller now
  | .verify id caller => Vad.verify id caller now
  | .approve id caller => Vad.approve id caller now
  | .complete id caller digest => Vad.complete id caller digest now
  | .fail id caller => Vad.fail id caller now
  | .cancel id caller => Vad.cancel id caller now
  | .requeue id caller summary => Vad.requeue id caller summary now
  | .acceptWork id caller => Vad.acceptWork id caller now
  | .rejectWork id caller reason => Vad.rejectWork id caller reason now
  | .blockWork id caller reason => Vad.blockWork id caller reason now
  | .completeWork id caller digest => Vad.completeWork id caller digest now
  | .failWork id caller => Vad.failWork id caller now

def TransitionCall.workItemId : TransitionCall → String
  | .transition id .. | .assign id .. | .start id _ | .block id .. | .waitForHuman id _
  | .verify id _ | .approve id _ | .complete id .. | .fail id _ | .cancel id _ | .requeue id ..
  | .acceptWork id _ | .rejectWork id .. | .blockWork id .. | .completeWork id .. | .failWork id _ => id

/-- The arguments with which a call reaches `transition`. -/
structure TransitionArgs where
  target : WorkItemStatus
  caller : Caller
  change : WorkItemChange := {}
  summary : Option String := none

def TransitionCall.args : TransitionCall → TransitionArgs
  | .transition _ target caller change summary => ⟨target, caller, change, summary⟩
  | .assign id caller client lease summary =>
    ⟨.assigned, caller, { assignedClientId := some client, leaseId := lease },
      some (orDefault summary ("Work item " ++ id ++ " assigned to " ++ client ++ "."))⟩
  | .start _ caller | .acceptWork _ caller => { target := .running, caller := caller }
  | .block id caller reason | .blockWork id caller reason =>
    ⟨.blocked, caller, { blockedReason := some reason },
      some ("Work item " ++ id ++ " blocked: " ++ reason)⟩
  | .waitForHuman _ caller => { target := .waitingForHuman, caller := caller }
  | .verify _ caller => { target := .verifying, caller := caller }
  | .approve _ caller => { target := .approved, caller := caller }
  | .complete _ caller digest | .completeWork _ caller digest =>
    { target := .completed, caller := caller, change := { evidenceDigest := digest } }
  | .fail _ caller | .failWork _ caller => { target := .failed, caller := caller }
  | .cancel _ caller => { target := .cancelled, caller := caller }
  | .requeue _ caller summary => ⟨.requeued, caller, {}, summary⟩
  | .rejectWork id caller reason =>
    let summary := "Connector " ++ caller.clientId ++ " rejected work item " ++ id ++ "."
    let given := orDefault reason ""
    ⟨.requeued, caller, {},
      some (if given = "" then summary else summary ++ " Reason: " ++ given ++ ".")⟩

/-- Every such call is `transition` on its own work item. -/
theorem TransitionCall.perform_eq (c : TransitionCall) (now : DateTime) :
    c.perform now = Vad.transition c.workItemId c.args.target c.args.caller c.args.change
      c.args.summary now := by
  cases c <;> rfl

/-- The calls of the scheduler. -/
inductive ScheduleCall where
  | workItem (id : String) (caller : Caller)
  | next (runId : Option String) (caller : Caller)
  | receiveNextWork (runId : Option String) (caller : Caller)

def ScheduleCall.perform (now : DateTime) : ScheduleCall → Db SchedulerDecisionResult
  | .workItem id caller => scheduleWorkItem id caller now
  | .next runId caller => scheduleNext runId caller now
  | .receiveNextWork runId caller => Vad.receiveNextWork runId caller now

/-- A service call with arguments that passed their request model. -/
inductive Request where
  | register (m : Checked ClientManifest)
  | unregister (clientId : String)
  | heartbeat (h : Checked ClientHeartbeat)
  | staleScan (reference : DateTime) (staleAfterSeconds : Int) (autoReassign : Bool)
  | acquire (request : Checked TaskLeaseAcquireRequest)
  | renew (taskId : String) (request : Checked TaskLeaseRenewRequest)
  | release (taskId : String) (request : Checked TaskLeaseReleaseRequest)
  | expire (taskId : String)
  | createWorkItem (item : Checked WorkItem) (caller : Caller) (summary : Option String)
  | transition (c : TransitionCall)
  | schedule (c : ScheduleCall)
  | ingest (e : EventFields) (eventId : Option RecordId)
  | approve (request : ApprovalRequest)
  | propose (request : DiffProposalRequest)

/-- What a request answers. -/
inductive Response where
  | client (r : ClientRegistrationResult)
  | heartbeat (r : ClientHeartbeatResult)
  | staleScan (r : List ClientStaleRecoveryResult)
  | lease (r : TaskLeaseResult)
  | workItem (r : WorkItemTransitionResult)
  | schedule (r : SchedulerDecisionResult)
  | ingestion (r : EventIngestionResult)
  | approval (r : ApprovalResult)
  | proposal (r : DiffProposalCreateResult)

/-- The functions outside the control plane that its requests use: the hash of an evidence bundle,
    SHA-256 of a text, and Python's text of an exception. -/
structure Outside where
  computeHash : RunEvidence → String
  sha256 : String → String
  str : PyError → String

/-- The program a request runs, its clock showing `now`. -/
def Request.perform (o : Outside) (now : DateTime) : Request → Db Response
  | .register m => do pure (.client (← Vad.register m now))
  | .unregister clientId => do pure (.client (← Vad.unregister clientId now))
  | .heartbeat h => do pure (.heartbeat (← Vad.heartbeat h))
  | .staleScan reference seconds auto => do
      pure (.staleScan (← markStaleClientsWithRecovery reference seconds auto now))
  | .acquire request => do pure (.lease (← Vad.acquire request now))
  | .renew taskId request => do pure (.lease (← Vad.renew taskId request now))
  | .release taskId request => do pure (.lease (← Vad.release taskId request now))
  | .expire taskId => do pure (.lease (← Vad.expire taskId now))
  | .createWorkItem item caller summary => do
      pure (.workItem (← Vad.createWorkItem item caller summary now))
  | .transition c => do pure (.workItem (← c.perform now))
  | .schedule c => do pure (.schedule (← c.perform now))
  | .ingest e eventId => do pure (.ingestion (← Vad.ingest e eventId now))
  | .approve request => do pure (.approval (← recordApproval o.computeHash request now))
  | .propose request => do pure (.proposal (← submitDiffProposal o.sha256 o.str request now))

/-! ## Leases that may be stored -/

/-- A lease whose fields pass, its release reason apart: that one passes while the lease is active,
    and satisfies `P` anyway. -/
def GoodLease (P : Option String → Prop) (l : TaskLease) : Prop :=
  Model.Valid { l with releaseReason := none } ∧ (l.status = .active → Model.Valid l) ∧
    P l.releaseReason

/-- A condition on release reasons that every reason of a valid lease meets. -/
def WeakerThanValid (P : Option String → Prop) : Prop :=
  ∀ r, optionally (safeText 0 300) r = true → P r

theorem goodLease_of_valid {P : Option String → Prop} (hP : WeakerThanValid P) {l : TaskLease}
    (h : Model.Valid l) : GoodLease P l :=
  ⟨TaskLease.valid_of_same h rfl rfl rfl rfl rfl rfl, fun _ => h,
    hP _ (TaskLease.releaseReason_ok h)⟩

/-! ## The rule -/

/-- The events that the services number themselves: none is about a work item, and none is
    privileged but the one that follows a requeue. -/
structure OwnEvent (fields : Nat → EventFields) : Prop where
  kind : ∀ n, (fields n).kind ≠ .workItem
  numbered : ∀ n, (fields n).sequence = n
  privileged : (∀ n, privilegedEventRoles (fields n).kind = none) ∨
    ∃ snapshot item now, fields = recoveryEvent snapshot item now

namespace OwnEvent

variable {fields : Nat → EventFields}

/-- Events of one kind that nobody needs a role for. -/
theorem plain (kind : ControlPlaneEventKind)
    (hplain : kind ≠ .workItem ∧ privilegedEventRoles kind = none)
    (hkind : ∀ n, (fields n).kind = kind) (hnumber : ∀ n, (fields n).sequence = n) :
    OwnEvent fields where
  kind n := by rw [hkind n]; exact hplain.1
  numbered := hnumber
  privileged := Or.inl fun n => by rw [hkind n]; exact hplain.2

theorem registry (m : ClientManifest) (status : ControlPlaneEventStatus) (summary : String)
    (now : DateTime) : OwnEvent (clientEvent m .message status none none none summary now) :=
  plain .message (by decide) (fun _ => rfl) (fun _ => rfl)

theorem heartbeat (b : ClientHeartbeat) (m : ClientManifest) : OwnEvent (heartbeatEvent b m) :=
  plain .heartbeat (by decide) (fun _ => rfl) (fun _ => rfl)

theorem stale (m : ClientManifest) (runId taskId : Option String) (summary : String)
    (now : DateTime) : OwnEvent (clientEvent m .heartbeat .stale runId taskId none summary now) :=
  plain .heartbeat (by decide) (fun _ => rfl) (fun _ => rfl)

theorem taskLease (l : TaskLease) (summary : String) (status : ControlPlaneEventStatus)
    (now : DateTime) : OwnEvent (taskLeaseEvent l summary status now) :=
  plain .taskLease (by decide) (fun _ => rfl) (fun _ => rfl)

theorem denial (item : WorkItem) (caller : Caller) (summary : String) (now : DateTime) :
    OwnEvent (denialEvent item caller summary now) :=
  plain .policyDenied (by decide) (fun _ => rfl) (fun _ => rfl)

theorem recovery (snapshot : ClientStatusSnapshot) (item : WorkItem) (now : DateTime) :
    OwnEvent (recoveryEvent snapshot item now) where
  kind n := by simp [recoveryEvent, clientEvent]
  numbered n := rfl
  privileged := Or.inr ⟨snapshot, item, now, rfl⟩

end OwnEvent

/-- What a property `C` of programs has to satisfy to hold of what services do between the store
    methods that write. -/
structure QueryRule (C : ∀ {α : Type}, Db α → Prop) : Prop where
  done : ∀ {α : Type} (r : Except PyError α), C (Program.done r)
  bind : ∀ {α β : Type} {p : Db α} {k : α → Db β}, C p → (∀ a, C (k a)) → C (p >>= k)
  query : ∀ {α : Type} (f : Store → Except PyError α), C (query f)
  appendEvent : ∀ fields, OwnEvent fields → C (appendEvent fields)

/-- What it has to satisfy to hold of scheduling and recovery, the transitions of which assign an
    item to a client or requeue it. -/
structure SchedulingRule (C : ∀ {α : Type}, Db α → Prop) : Prop extends QueryRule C where
  assign : ∀ id caller client summary now,
    C (Vad.transition id .assigned caller { assignedClientId := some client } summary now)
  requeue : ∀ id caller summary now, C (Vad.transition id .requeued caller {} summary now)

/-- What a property `C` of programs has to satisfy to hold of the work on items: of transitions,
    scheduling and recovery. -/
structure WorkRule (C : ∀ {α : Type}, Db α → Prop) : Prop where
  done : ∀ {α : Type} (r : Except PyError α), C (Program.done r)
  bind : ∀ {α β : Type} {p : Db α} {k : α → Db β}, C p → (∀ a, C (k a)) → C (p >>= k)
  query : ∀ {α : Type} (f : Store → Except PyError α), C (query f)
  appendEvent : ∀ fields, OwnEvent fields → C (appendEvent fields)
  transition : ∀ id target caller change summary now,
    C (transition id target caller change summary now)

/-- What a property `C` of programs has to satisfy to hold of every request that neither changes a
    lease nor deletes a client. -/
structure CallRule (C : ∀ {α : Type}, Db α → Prop) : Prop extends WorkRule C where
  registerClientManifest : ∀ m, C (registerClientManifest m)
  recordClientHeartbeat : ∀ h, C (recordClientHeartbeat h)
  createWorkItem : ∀ item caller summary now, C (createWorkItem item caller summary now)
  saveDiffProposal : ∀ p hid, (∀ n, Model.Valid (p (.generated n))) → C (saveDiffProposal p hid)
  saveApprovalEvent : ∀ e hid, C (saveApprovalEvent e hid)

/-- What a property `C` of programs has to satisfy to hold of a stale scan, too. -/
structure ScanRule (C : ∀ {α : Type}, Db α → Prop) : Prop extends CallRule C where
  markClientStale : ∀ id, C (markClientStale id)

/-- What a property `C` of programs has to satisfy to hold of every request. -/
structure RequestRule (P : Option String → Prop) (C : ∀ {α : Type}, Db α → Prop) : Prop
    extends ScanRule C where
  unregisterClientManifest : ∀ id, C (unregisterClientManifest id)
  saveTaskLease : ∀ l, GoodLease P l → C (saveTaskLease l)

namespace QueryRule

variable {P : Option String → Prop} {C : ∀ {α : Type}, Db α → Prop}

theorem pure (h : QueryRule C) {α : Type} (a : α) : C (pure a : Db α) := h.done (.ok a)

theorem done_bind (h : QueryRule C) {α β : Type} {r : Except PyError α} {k : α → Db β}
    (hk : ∀ a, r = .ok a → C (k a)) : C (Program.done r >>= k) := by
  cases r with
  | ok a => exact hk a rfl
  | error e => exact h.done (.error e)

theorem map (h : QueryRule C) {α β : Type} {p : Db α} (hp : C p) (f : α → β) :
    C (do let a ← p; Pure.pure (f a)) := h.bind hp fun a => h.pure (f a)

theorem forEach (h : QueryRule C) {α β : Type} {f : β → Db α} (hf : ∀ b, C (f b)) :
    ∀ l : List β, C (Program.forEach l f) := by
  intro l
  induction l with
  | nil => exact h.pure []
  | cons b l ih => exact h.bind (hf b) fun a => h.map ih _

/-! ### Clients, approvals and proposals -/

theorem register (h : QueryRule C) {m : Checked ClientManifest} (hwrite : C (registerClientManifest m))
    (now : DateTime) : C (register m now) :=
  h.bind hwrite fun _ => h.map (h.appendEvent _ (.registry ..)) _

theorem unregister (h : QueryRule C) {id : String} (hwrite : C (unregisterClientManifest id))
    (now : DateTime) : C (unregister id now) :=
  h.bind hwrite fun _ => h.map (h.appendEvent _ (.registry ..)) _

theorem heartbeat (h : QueryRule C) {b : Checked ClientHeartbeat}
    (hwrite : C (recordClientHeartbeat b)) : C (heartbeat b) :=
  h.bind hwrite fun _ => h.bind (h.query _) fun _ => h.map (h.appendEvent _ (.heartbeat ..)) _

theorem approve (h : QueryRule C) (hwrite : ∀ e hid, C (saveApprovalEvent e hid))
    (computeHash : RunEvidence → String) (request : ApprovalRequest) (now : DateTime) :
    C (recordApproval computeHash request now) :=
  h.bind (h.query _) fun _ => h.map (hwrite ..) _

theorem propose (h : QueryRule C)
    (hwrite : ∀ p hid, (∀ n, Model.Valid (p (.generated n))) → C (saveDiffProposal p hid))
    (sha256 : String → String) (str : PyError → String) (request : DiffProposalRequest)
    (now : DateTime) : C (submitDiffProposal sha256 str request now) := by
  unfold submitDiffProposal
  split
  · exact h.pure _
  · rename_i proposal _
    exact h.map (hwrite _ _ proposal.2.2) _

/-! ### Leases -/

theorem existingLease (h : QueryRule C) (taskId : String) : C (existingLease taskId) := by
  rw [existingLease_eq]
  exact h.query _

theorem denyAcquire (h : QueryRule C) (request : TaskLeaseAcquireRequest)
    (existing : Checked TaskLease) (now : DateTime) : C (denyAcquire request existing now) :=
  h.map (h.appendEvent _ (.taskLease ..)) _

theorem grantAcquire (h : QueryRule C) {request : Checked TaskLeaseAcquireRequest} {now : DateTime}
    (hsave : C (saveTaskLease (newTaskLease request now).1)) : C (grantAcquire request now) :=
  h.bind hsave fun _ => h.map (h.appendEvent _ (.taskLease ..)) _

theorem acquire (h : QueryRule C) {request : Checked TaskLeaseAcquireRequest} {now : DateTime}
    (hsave : C (saveTaskLease (newTaskLease request now).1)) : C (acquire request now) := by
  refine h.bind (h.query _) fun _ => h.bind (h.existingLease _) fun existing => ?_
  cases existing with
  | none => exact h.grantAcquire hsave
  | some lease =>
    show C (if lease.1.status = .active then _ else _)
    split
    · exact h.denyAcquire request.1 lease now
    · exact h.grantAcquire hsave

theorem changeLease (h : QueryRule C) {l : TaskLease} (hsave : C (saveTaskLease l))
    (summary : String) (status : ControlPlaneEventStatus) (reason : String) (now : DateTime) :
    C (changeLease l summary status reason now) :=
  h.bind hsave fun _ => h.map (h.appendEvent _ (.taskLease ..)) _

theorem renew (h : QueryRule C) (hP : WeakerThanValid P)
    (hsave : ∀ l, GoodLease P l → C (saveTaskLease l)) (taskId : String)
    (request : Checked TaskLeaseRenewRequest) (now : DateTime) : C (renew taskId request now) := by
  refine h.bind (h.query _) fun lease => h.bind (h.done _) fun _ => h.done_bind fun l hl => ?_
  have hvalid : Model.Valid l := by
    unfold TaskLease.renew at hl
    split at hl
    · cases hl
      exact TaskLease.valid_of_same lease.2 rfl rfl rfl rfl rfl
        (TaskLease.releaseReason_ok (l := lease.1) lease.2)
    · cases hl
  exact h.changeLease (hsave l (goodLease_of_valid hP hvalid)) _ _ _ now

/-- The one request whose lease may not pass its own checks: the reason is the request's. -/
theorem release (h : QueryRule C) (hsave : ∀ l, GoodLease P l → C (saveTaskLease l))
    (taskId : String) (request : Checked TaskLeaseReleaseRequest) (hreason : P request.1.reason)
    (now : DateTime) : C (release taskId request now) := by
  refine h.bind (h.query _) fun lease => h.bind (h.done _) fun _ => h.done_bind fun l hl => ?_
  have hgood : GoodLease P l := by
    unfold TaskLease.release at hl
    split at hl
    · cases hl
      refine ⟨TaskLease.valid_of_same lease.2 rfl rfl rfl rfl rfl rfl, fun hst => ?_, hreason⟩
      cases hst
    · cases hl
  exact h.changeLease (hsave l hgood) _ _ _ now

theorem expire (h : QueryRule C) (hP : WeakerThanValid P)
    (hsave : ∀ l, GoodLease P l → C (saveTaskLease l)) (taskId : String) (now : DateTime) :
    C (expire taskId now) :=
  h.bind (h.query _) fun lease => h.changeLease
    (hsave _ (goodLease_of_valid hP (TaskLease.expiredWith_valid lease.2 (by decide)))) _ _ _ now

end QueryRule

namespace SchedulingRule

variable {C : ∀ {α : Type}, Db α → Prop}

theorem scheduleFrom (h : SchedulingRule C) (item : Checked WorkItem) (caller : Caller)
    (now : DateTime) : C (scheduleFrom item caller now) := by
  have hdeny : ∀ denial, C (denySchedule item caller denial now) := fun denial =>
    h.map (h.appendEvent _ (.denial ..)) _
  unfold Vad.scheduleFrom
  split
  · refine h.bind (h.bind (h.query _) fun statuses => ?_) fun clients => ?_
    · exact h.map (h.forEach (fun _ => h.map (h.query _) _) _) _
    · cases clients with
      | nil => exact hdeny _
      | cons selected rest => exact h.map (h.assign ..) _
  · exact hdeny _

theorem scheduleWorkItem (h : SchedulingRule C) (id : String) (caller : Caller) (now : DateTime) :
    C (scheduleWorkItem id caller now) := h.bind (h.query _) fun _ => h.scheduleFrom _ caller now

theorem scheduleNext (h : SchedulingRule C) (runId : Option String) (caller : Caller)
    (now : DateTime) : C (scheduleNext runId caller now) := by
  refine h.bind (h.query _) fun items => ?_
  split
  · exact h.pure _
  · exact h.scheduleWorkItem _ caller now

theorem scheduleCall (h : SchedulingRule C) (c : ScheduleCall) (now : DateTime) :
    C (c.perform now) := by
  cases c with
  | workItem id caller => exact h.scheduleWorkItem id caller now
  | next runId caller => exact h.scheduleNext runId caller now
  | receiveNextWork runId caller => exact h.scheduleNext runId caller now

theorem recoverStaleWorkItem (h : SchedulingRule C) (snapshot : ClientStatusSnapshot)
    (now : DateTime) (item : Checked WorkItem) : C (recoverStaleWorkItem snapshot now item) := by
  unfold Vad.recoverStaleWorkItem
  split
  · exact h.pure _
  split
  · exact h.pure _
  refine h.bind (h.requeue ..) fun result => ?_
  split
  · exact h.pure _
  · exact h.map (h.appendEvent _ (.recovery ..)) _

theorem recoverStaleWorkItems (h : SchedulingRule C) (snapshot : ClientStatusSnapshot)
    (now : DateTime) : C (recoverStaleWorkItems snapshot now) :=
  h.bind (h.query _) fun _ =>
    h.map (h.forEach (fun item => h.recoverStaleWorkItem snapshot now item) _) _

theorem reassign (h : SchedulingRule C) (now : DateTime) (t : WorkItemTransitionResult) :
    C (reassign now t) := by
  unfold Vad.reassign
  split
  · exact h.pure _
  · exact h.map (h.scheduleWorkItem ..) _

theorem reassignRecovered (h : SchedulingRule C) (now : DateTime)
    (results : List ClientStaleRecoveryResult) : C (reassignRecovered now results) :=
  h.map (h.forEach (fun t => h.reassign now t) _) _

theorem recoverStaleClient (h : SchedulingRule C) (hmark : ∀ id, C (markClientStale id))
    (now : DateTime) (stale : ClientStatusSnapshot × Int) : C (recoverStaleClient now stale) :=
  h.bind (hmark _) fun marked => h.bind (h.appendEvent _ (.stale ..)) fun _ =>
    h.map (h.recoverStaleWorkItems marked now) _

theorem markStaleClientsWithRecovery (h : SchedulingRule C) (hmark : ∀ id, C (markClientStale id))
    (reference : DateTime) (seconds : Int) (auto : Bool) (now : DateTime) :
    C (markStaleClientsWithRecovery reference seconds auto now) := by
  refine h.bind (h.query _) fun _ => h.bind (h.done _) fun _ =>
    h.bind (h.forEach (fun _ => h.recoverStaleClient hmark now _) _) fun results => ?_
  cases auto with
  | false => exact h.pure _
  | true => exact h.map (h.reassignRecovered now results) _

end SchedulingRule

namespace WorkRule

variable {C : ∀ {α : Type}, Db α → Prop}

theorem queries (h : WorkRule C) : QueryRule C := ⟨h.done, h.bind, h.query, h.appendEvent⟩

theorem scheduling (h : WorkRule C) : SchedulingRule C where
  toQueryRule := h.queries
  assign id caller _ summary now := h.transition id .assigned caller _ summary now
  requeue id caller summary now := h.transition id .requeued caller {} summary now

theorem pure (h : WorkRule C) {α : Type} (a : α) : C (pure a : Db α) := h.queries.pure a

theorem done_bind (h : WorkRule C) {α β : Type} {r : Except PyError α} {k : α → Db β}
    (hk : ∀ a, r = .ok a → C (k a)) : C (Program.done r >>= k) := h.queries.done_bind hk

theorem map (h : WorkRule C) {α β : Type} {p : Db α} (hp : C p) (f : α → β) :
    C (do let a ← p; Pure.pure (f a)) := h.queries.map hp f

theorem forEach (h : WorkRule C) {α β : Type} {f : β → Db α} (hf : ∀ b, C (f b)) (l : List β) :
    C (Program.forEach l f) := h.queries.forEach hf l

theorem scheduleWorkItem (h : WorkRule C) (id : String) (caller : Caller) (now : DateTime) :
    C (scheduleWorkItem id caller now) := h.scheduling.scheduleWorkItem id caller now

theorem transitionCall (h : WorkRule C) (c : TransitionCall) (now : DateTime) :
    C (c.perform now) := by
  rw [c.perform_eq]
  exact h.transition ..

theorem scheduleCall (h : WorkRule C) (c : ScheduleCall) (now : DateTime) : C (c.perform now) :=
  h.scheduling.scheduleCall c now

theorem recoverStaleWorkItem (h : WorkRule C) (snapshot : ClientStatusSnapshot)
    (now : DateTime) (item : Checked WorkItem) : C (recoverStaleWorkItem snapshot now item) :=
  h.scheduling.recoverStaleWorkItem snapshot now item

theorem recoverStaleWorkItems (h : WorkRule C) (snapshot : ClientStatusSnapshot)
    (now : DateTime) : C (recoverStaleWorkItems snapshot now) :=
  h.scheduling.recoverStaleWorkItems snapshot now

theorem reassignRecovered (h : WorkRule C) (now : DateTime)
    (results : List ClientStaleRecoveryResult) : C (reassignRecovered now results) :=
  h.scheduling.reassignRecovered now results

end WorkRule

namespace CallRule

variable {C : ∀ {α : Type}, Db α → Prop}

theorem register (h : CallRule C) (m : Checked ClientManifest) (now : DateTime) :
    C (register m now) := h.queries.register (h.registerClientManifest m) now

theorem heartbeat (h : CallRule C) (b : Checked ClientHeartbeat) : C (heartbeat b) :=
  h.queries.heartbeat (h.recordClientHeartbeat b)

theorem denyAcquire (h : CallRule C) (request : TaskLeaseAcquireRequest)
    (existing : Checked TaskLease) (now : DateTime) : C (denyAcquire request existing now) :=
  h.queries.denyAcquire request existing now

theorem acquire (h : CallRule C) {request : Checked TaskLeaseAcquireRequest} {now : DateTime}
    (hsave : C (saveTaskLease (newTaskLease request now).1)) : C (acquire request now) :=
  h.queries.acquire hsave

theorem approve (h : CallRule C) (computeHash : RunEvidence → String) (request : ApprovalRequest)
    (now : DateTime) : C (recordApproval computeHash request now) :=
  h.queries.approve h.saveApprovalEvent computeHash request now

theorem propose (h : CallRule C) (sha256 : String → String) (str : PyError → String)
    (request : DiffProposalRequest) (now : DateTime) :
    C (submitDiffProposal sha256 str request now) :=
  h.queries.propose h.saveDiffProposal sha256 str request now

end CallRule

namespace ScanRule

variable {C : ∀ {α : Type}, Db α → Prop}

theorem recoverStaleClient (h : ScanRule C) (now : DateTime)
    (stale : ClientStatusSnapshot × Int) : C (recoverStaleClient now stale) :=
  h.scheduling.recoverStaleClient h.markClientStale now stale

theorem markStaleClientsWithRecovery (h : ScanRule C) (reference : DateTime) (seconds : Int)
    (auto : Bool) (now : DateTime) : C (markStaleClientsWithRecovery reference seconds auto now) :=
  h.scheduling.markStaleClientsWithRecovery h.markClientStale reference seconds auto now

end ScanRule

namespace RequestRule

variable {P : Option String → Prop} {C : ∀ {α : Type}, Db α → Prop}

theorem unregister (h : RequestRule P C) (id : String) (now : DateTime) : C (unregister id now) :=
  h.queries.unregister (h.unregisterClientManifest id) now

/-! ### Leases -/

theorem changeLease (h : RequestRule P C) {l : TaskLease} (hl : GoodLease P l) (summary : String)
    (status : ControlPlaneEventStatus) (reason : String) (now : DateTime) :
    C (changeLease l summary status reason now) :=
  h.queries.changeLease (h.saveTaskLease l hl) summary status reason now

theorem renew (h : RequestRule P C) (hP : WeakerThanValid P) (taskId : String)
    (request : Checked TaskLeaseRenewRequest) (now : DateTime) : C (renew taskId request now) :=
  h.queries.renew hP h.saveTaskLease taskId request now

theorem release (h : RequestRule P C) (taskId : String)
    (request : Checked TaskLeaseReleaseRequest) (hreason : P request.1.reason) (now : DateTime) :
    C (release taskId request now) :=
  h.queries.release h.saveTaskLease taskId request hreason now

theorem expire (h : RequestRule P C) (hP : WeakerThanValid P) (taskId : String) (now : DateTime) :
    C (expire taskId now) := h.queries.expire hP h.saveTaskLease taskId now

/-! ### Requests -/

/-- The rule: `C` holds of every request, of an ingestion when it holds of that, and of a release
    when its reason meets `P`. -/
theorem request (h : RequestRule P C) (hP : WeakerThanValid P) {r : Request}
    (hingest : ∀ e id now, r = .ingest e id → C (ingest e id now))
    (hrelease : ∀ id q, r = .release id q → P q.1.reason) (o : Outside) (now : DateTime) :
    C (r.perform o now) := by
  cases r with
  | register m => exact h.map (h.register m now) _
  | unregister id => exact h.map (h.unregister id now) _
  | heartbeat b => exact h.map (h.heartbeat b) _
  | staleScan reference seconds auto => exact h.map (h.markStaleClientsWithRecovery ..) _
  | acquire q => exact h.map (h.acquire (h.saveTaskLease _
      (goodLease_of_valid hP (newTaskLease q now).2))) _
  | renew id q => exact h.map (h.renew hP id q now) _
  | release id q => exact h.map (h.release id q (hrelease id q rfl) now) _
  | expire id => exact h.map (h.expire hP id now) _
  | createWorkItem item caller summary => exact h.map (h.createWorkItem ..) _
  | transition c => exact h.map (h.transitionCall c now) _
  | schedule c => exact h.map (h.scheduleCall c now) _
  | ingest e id => exact h.map (hingest e id now rfl) _
  | approve q => exact h.map (h.approve o.computeHash q now) _
  | propose q => exact h.map (h.propose o.sha256 o.str q now) _

end RequestRule

/-! ## Reachable stores -/

/-- The pool of the given requests, each with the time its clock shows. -/
def poolOf (o : Outside) (s : Store) (requests : List (Request × DateTime)) :
    Pool Store PyError Response := ⟨s, requests.map fun r => r.1.perform o r.2⟩

/-- The stores that requests leave behind, from an empty database that may hold run evidence. -/
def Reachable (s : Store) : Prop :=
  ∃ (o : Outside) (evidence : Keyed.Table RunEvidenceRow.runId)
    (requests : List (Request × DateTime)) (schedule : List Nat),
    s = ((poolOf o { Store.empty with runEvidence := evidence } requests).exec schedule).state

end Vad
