/-
  What a failed work-item call leaves behind.

  The item and its mirror are saved before the event is built, and the event checks its own fields:
  a call whose event is refused raises with the item already changed.  `raisesUnchanged_iff` says
  exactly when that does not happen: the call does not get as far as the save (`Saves`), or the
  ledger can be listed and the event passes.

  A call is followed along its store calls: those before the save leave every table alone
  (`raisesUnchanged_read`), and after the save only the event can fail.
-/
import Vad.Server.WorkItemApi
import Vad.Server.WorkItemRuns

namespace Vad

open Keyed (Table Minted)
open Atomic (Program)
open Atomic.Program (Returns returns_bind returns_pure)

/-- The items, their mirror and the ledger are as they were. -/
def Unchanged (s s' : Store) : Prop :=
  s'.workItems = s.workItems ∧ s'.runTaskStates = s.runTaskStates ∧
    s'.controlPlaneEvents = s.controlPlaneEvents

theorem Unchanged.refl (s : Store) : Unchanged s s := ⟨rfl, rfl, rfl⟩

/-- When `p`, started in `s`, raises, the three tables are those of `base`. -/
def RaisesUnchanged {α : Type} (base : Store) (p : Db α) (s : Store) : Prop :=
  ∀ e, (p.run s).1 = .error e → Unchanged base (p.run s).2

/-! ## Following a call -/

section Following

variable {α β : Type} {base s : Store}

theorem raisesUnchanged_done {r : Except PyError α} (k : α → Db β) (h : Unchanged base s) :
    RaisesUnchanged base (Program.done r >>= k) s ↔
      ∀ a, r = .ok a → RaisesUnchanged base (k a) s := by
  cases r with
  | ok a => exact ⟨fun hk b hb => (by cases hb; exact hk), fun hk => hk a rfl⟩
  | error e => exact ⟨fun _ a ha => (by cases ha), fun _ e' _ => h⟩

/-- A program that changes nothing in between is passed over. -/
theorem raisesUnchanged_read {p : Db α} {k : α → Db β} (hp : (p.run s).2 = s)
    (h : Unchanged base s) :
    RaisesUnchanged base (p >>= k) s ↔
      ∀ a, Returns p s a s → RaisesUnchanged base (k a) s := by
  rcases hrun : p.run s with ⟨r, s'⟩
  rw [hrun] at hp
  subst hp
  have hbind : Program.run (p >>= k) s' = match (r, s') with
      | (.ok a, s') => Program.run (k a) s'
      | (.error e, s') => (.error e, s') := by
    rw [Program.run_bind, hrun]
    cases r <;> rfl
  cases r with
  | ok a =>
    constructor
    · intro hbound b hb
      have hab : b = a := (Program.Returns.unique hb hrun).1
      rw [hab]
      intro e he
      have := hbound e (by rw [hbind]; exact he)
      rwa [hbind] at this
    · intro hk e he
      rw [hbind] at he ⊢
      exact hk a hrun e he
  | error e =>
    constructor
    · intro _ a ha
      rw [Returns, hrun] at ha
      cases ha
    · intro _ e' _
      rw [hbind]
      exact h

/-- A call that returned is passed over with what it did. -/
theorem raisesUnchanged_ran {p : Db α} {k : α → Db β} {a : α} {s₁ : Store}
    (hrun : p.run s = (.ok a, s₁)) :
    RaisesUnchanged base (p >>= k) s ↔ RaisesUnchanged base (k a) s₁ := by
  simp only [RaisesUnchanged, Program.run_bind, hrun]

/-- A call that raised ends the program. -/
theorem raisesUnchanged_failed {p : Db α} {k : α → Db β} {e : PyError}
    (hrun : p.run s = (.error e, s)) (h : Unchanged base s) : RaisesUnchanged base (p >>= k) s := by
  intro e' _
  simp only [Program.run_bind, hrun]
  exact h

/-- Turning the result into another one changes nothing. -/
theorem raisesUnchanged_map {p : Db α} {f : α → β} :
    RaisesUnchanged base (do let a ← p; pure (f a)) s ↔ RaisesUnchanged base p s := by
  have herr : ∀ e, (p.run s).1.map f = .error e ↔ (p.run s).1 = .error e := by
    intro e
    cases (p.run s).1 with
    | ok a => exact ⟨fun h => (by cases h), fun h => (by cases h)⟩
    | error e' => exact ⟨fun h => (by cases h; rfl), fun h => (by cases h; rfl)⟩
  simp only [RaisesUnchanged, Program.run_map, herr]

/-- A program of reads changes nothing. -/
theorem run_of_reads {p : Db α} (h : Program.Safe (fun _ => True) Eq p) (s : Store) :
    (p.run s).2 = s :=
  (((h.solo s trivial).mono fun _ _ hR => hR.1).run (fun _ => rfl) fun hab hbc => hab.trans hbc).symm

theorem run_eligibleClients (item : WorkItem) (s : Store) :
    ((eligibleClients item).run s).2 = s := by
  have hquery : ∀ {γ : Type} (f : Store → Except PyError γ),
      Program.Safe (fun _ => True) Eq (query f) :=
    fun f => safe_query (fun _ => rfl) f
  refine run_of_reads (Program.safe_bind (hquery _) fun statuses => ?_) s
  refine Program.safe_bind (Program.safe_forEach fun snapshot _ => ?_) fun _ =>
    Program.safe_pure _
  exact Program.safe_bind (hquery _) fun _ => Program.safe_pure _

end Following

/-! ## The event -/

/-- Can the next event be appended? -/
def Store.accepts (s : Store) (fields : Nat → EventFields) : Prop :=
  s.ledgerLists ∧ (fields (s.eventCount + 1)).ok = true

theorem appendEvent_isOk {s : Store} {fields : Nat → EventFields} :
    (∃ e, (Program.run (appendEvent fields) s).1 = .error e) ↔ ¬ s.accepts fields := by
  constructor
  · rintro ⟨e, he⟩ ⟨hlists, hok⟩
    obtain ⟨event, hret⟩ := exists_appendEvent hlists hok
    rw [Returns] at hret
    rw [hret] at he
    cases he
  · intro hno
    rcases hrun : Program.run (appendEvent fields) s with ⟨r, s'⟩
    cases r with
    | ok ev =>
      obtain ⟨hlists, hok, -⟩ := returns_appendEvent.mp (hrun : Returns _ s ev s')
      exact absurd ⟨hlists, hok⟩ hno
    | error e => exact ⟨e, rfl⟩

/-- Appending the event raises without a change, so all depends on what came before. -/
theorem raisesUnchanged_appendEvent {base s : Store} {fields : Nat → EventFields} :
    RaisesUnchanged base (appendEvent fields) s ↔ s.accepts fields ∨ Unchanged base s := by
  constructor
  · intro h
    by_cases hacc : s.accepts fields
    · exact Or.inl hacc
    · obtain ⟨e, he⟩ := appendEvent_isOk.mpr hacc
      have := h e he
      rw [run_appendEvent_error he] at this
      exact Or.inr this
  · rintro (hacc | hsame) e he
    · exact absurd hacc (appendEvent_isOk.mp ⟨e, he⟩)
    · rw [run_appendEvent_error he]
      exact hsame

theorem raisesUnchanged_recordTransition {base s : Store} {saved : Checked WorkItem}
    {caller : Caller} {summary : Option String} {decision : PolicyDecision} {now : DateTime} :
    RaisesUnchanged base (recordTransition saved caller summary decision now) s ↔
      s.accepts (workItemEvent saved.1 caller (transitionSummary saved.1 summary) now) ∨
        Unchanged base (s.putState (RunTaskState.ofItem saved.1)) := by
  have hstep : RaisesUnchanged base (recordTransition saved caller summary decision now) s ↔
      RaisesUnchanged base (do
        let event ← appendEvent
          (workItemEvent saved.1 caller (transitionSummary saved.1 summary) now)
        pure { statusCode := 200, workItem := saved, event := event, decision := decision :
          WorkItemTransitionResult }) (s.putState (RunTaskState.ofItem saved.1)) := Iff.rfl
  rw [hstep, raisesUnchanged_map, raisesUnchanged_appendEvent]
  rfl

/-! ## How far a call gets -/

/-- Can `update_work_item` store the item? -/
def Storable (s : Store) (item : WorkItem) : Prop :=
  (∃ row x, s.workItems.find? item.workItemId = some row ∧ Model.build row.payload = .ok x) ∧
    referencesHold s item = true

/-- The rows already are what storing the item would write. -/
def Store.holds (s : Store) (item : WorkItem) : Prop :=
  s.workItems.has item.workItemId = true ∧
    Unchanged s ((s.putItemAndState item).putState (RunTaskState.ofItem item))

/-- From `s`, the transition gets as far as storing `saved`, and then builds `event`. -/
def TransitionSaves (s : Store) (now : DateTime) (c : TransitionCall) (saved : WorkItem)
    (event : Nat → EventFields) : Prop :=
  ∃ current item, Loaded s c.workItemId current ∧
    c.args.target ∈ allowedWorkItemTransitions current.1.status ∧
    transitionedItem current c.args.target c.args.change now = .ok item ∧ Storable s item.1 ∧
    saved = item.1 ∧
    event = workItemEvent item.1 c.args.caller (transitionSummary item.1 c.args.summary) now

/-- The assignment that `schedule_work_item` makes to the first eligible client. -/
def scheduledAssignment (item : Checked WorkItem) (caller : Caller)
    (selected : ClientStatusSnapshot) : TransitionCall :=
  .assign item.1.workItemId caller selected.manifest.1.clientId none
    (some ("Scheduler assigned work item " ++ item.1.workItemId ++ " to " ++
      selected.manifest.1.clientId ++ "."))

/-- From `s`, the call gets as far as saving `saved`, and then builds `event`. -/
def Saves (s : Store) (now : DateTime) (saved : WorkItem) (event : Nat → EventFields) :
    WorkItemCall → Prop
  | .create item caller summary =>
    s.workItems.has item.1.workItemId = false ∧ referencesHold s item.1 = true ∧ saved = item.1 ∧
      event = workItemEvent item.1 caller (orDefault summary
        ("Work item " ++ item.1.workItemId ++ " created as " ++ item.1.status.value ++ ".")) now
  | .transition c => TransitionSaves s now c saved event
  | .schedule id caller => ∃ item selected others, Loaded s id item ∧
      schedulable item.1.status = true ∧
      Returns (eligibleClients item.1) s (selected :: others) s ∧
      TransitionSaves s now (scheduledAssignment item caller selected) saved event

/-- The condition: what the call saves is recorded, or was there before. -/
def SavesAreRecorded (s : Store) (now : DateTime) (call : WorkItemCall) : Prop :=
  ∀ saved event, Saves s now saved event call → s.accepts event ∨ s.holds saved

theorem raisesUnchanged_performTransition {s : Store} {current : Checked WorkItem}
    {target : WorkItemStatus} {caller : Caller} {change : WorkItemChange}
    {summary : Option String} {now : DateTime} :
    RaisesUnchanged s (performTransition current target caller change summary now) s ↔
      ∀ item, transitionedItem current target change now = .ok item → Storable s item.1 →
        s.accepts (workItemEvent item.1 caller (transitionSummary item.1 summary) now) ∨
          s.holds item.1 := by
  unfold performTransition
  rw [raisesUnchanged_done _ (Unchanged.refl s)]
  refine forall_congr' fun item => imp_congr_right fun _ => ?_
  rcases run_storeWorkItem item s with hrun | ⟨e, hrun⟩
  · have hstored := returns_storeWorkItem.mp (hrun : Returns _ s item _)
    have hstorable : Storable s item.1 := ⟨hstored.1, hstored.2.1⟩
    obtain ⟨⟨row, x, hrow, -⟩, -⟩ := hstored
    rw [raisesUnchanged_ran hrun, raisesUnchanged_recordTransition]
    have hholds : s.holds item.1 ↔
        Unchanged s ((s.putItemAndState item.1).putState (RunTaskState.ofItem item.1)) :=
      ⟨fun h => h.2, fun h => ⟨Table.has_iff.mpr ⟨row, hrow⟩, h⟩⟩
    rw [hholds]
    exact ⟨fun h _ => h, fun h => h hstorable⟩
  · refine iff_of_true (raisesUnchanged_failed hrun (Unchanged.refl s)) fun hstorable => ?_
    have hret : Returns (storeWorkItem item) s item (s.putItemAndState item.1) :=
      returns_storeWorkItem.mpr ⟨hstorable.1, hstorable.2, rfl, rfl⟩
    rw [Returns, hrun] at hret
    cases hret

theorem raisesUnchanged_transition {s : Store} {c : TransitionCall} {now : DateTime} :
    RaisesUnchanged s (c.perform now) s ↔
      ∀ saved event, TransitionSaves s now c saved event → s.accepts event ∨ s.holds saved := by
  rw [c.perform_eq]
  unfold transition
  rw [raisesUnchanged_read (p := loadWorkItem c.workItemId) rfl (Unchanged.refl s)]
  have hfrom : ∀ current, RaisesUnchanged s (transitionFrom current c.args.target c.args.caller
      c.args.change c.args.summary now) s ↔
      (c.args.target ∈ allowedWorkItemTransitions current.1.status →
        RaisesUnchanged s (performTransition current c.args.target c.args.caller c.args.change
          c.args.summary now) s) := by
    intro current
    unfold transitionFrom
    split
    · rename_i hallow
      exact ⟨fun h _ => h, fun h => h (transitionDecision_allow.mp hallow)⟩
    · rename_i hno
      refine iff_of_true ?_ fun hin => absurd (transitionDecision_allow.mpr hin) hno
      exact raisesUnchanged_map.mpr (raisesUnchanged_appendEvent.mpr (Or.inr (Unchanged.refl s)))
  constructor
  · rintro h saved event ⟨current, item, hload, hedge, hitem, hstorable, rfl, rfl⟩
    exact raisesUnchanged_performTransition.mp
      ((hfrom current).mp (h current (returns_loadWorkItem.mpr ⟨hload, rfl⟩)) hedge) item hitem
        hstorable
  · intro h current hread
    obtain ⟨hload, -⟩ := returns_loadWorkItem.mp hread
    refine (hfrom current).mpr fun hedge => raisesUnchanged_performTransition.mpr ?_
    intro item hitem hstorable
    exact h item.1 _ ⟨current, item, hload, hedge, hitem, hstorable, rfl, rfl⟩

theorem raisesUnchanged_create {s : Store} {item : Checked WorkItem} {caller : Caller}
    {summary : Option String} {now : DateTime} :
    RaisesUnchanged s (createWorkItem item caller summary now) s ↔
      (s.workItems.has item.1.workItemId = false → referencesHold s item.1 = true →
        s.accepts (workItemEvent item.1 caller (orDefault summary
          ("Work item " ++ item.1.workItemId ++ " created as " ++ item.1.status.value ++ "."))
          now)) := by
  unfold createWorkItem
  rcases run_saveWorkItem item s with ⟨t, ht, href, hrun⟩ | ⟨e, hrun⟩
  · have hnone := (Table.insert_eq_some.mp ht).1
    have hnew : s.workItems.has item.1.workItemId = false := by
      show (s.workItems.find? item.1.workItemId).isSome = false
      rw [show s.workItems.find? item.1.workItemId = none from hnone]
      rfl
    rw [raisesUnchanged_ran hrun,
      raisesUnchanged_ran (show (upsertRunTaskState (RunTaskState.fromWorkItem item)).run
        (s.addItem t item.1) = (.ok (),
          (s.addItem t item.1).putState (RunTaskState.ofItem item.1)) from rfl)]
    have hmap : ∀ {f : Checked ControlPlaneEvent → WorkItemTransitionResult} {fields s₁},
        RaisesUnchanged s (do let event ← appendEvent fields; pure (f event)) s₁ ↔
          s₁.accepts fields ∨ Unchanged s s₁ := raisesUnchanged_map.trans raisesUnchanged_appendEvent
    refine hmap.trans ⟨fun h _ _ => ?_, fun h => Or.inl (h hnew href)⟩
    rcases h with h | h
    · exact h
    · -- the table has one row more than before
      have hrows : t.rows = s.workItems.rows := congrArg Table.rows h.1
      rw [(Table.insert_eq_some.mp ht).2] at hrows
      exact absurd hrows (by simp)
  · refine iff_of_true (raisesUnchanged_failed hrun (Unchanged.refl s)) fun hnew href => ?_
    exfalso
    cases hins : s.workItems.insert (workItemRow item.1) with
    | none =>
      have := Table.insert_eq_none.mp hins
      rw [show (workItemRow item.1).workItemId = item.1.workItemId from rfl, hnew] at this
      cases this
    | some t =>
      simp only [saveWorkItem, run_storeCall, Program.run_bind, run_execute, if_pos href, hins]
        at hrun
      cases hrun

theorem raisesUnchanged_schedule {s : Store} {id : String} {caller : Caller} {now : DateTime} :
    RaisesUnchanged s (scheduleWorkItem id caller now) s ↔
      ∀ saved event, Saves s now saved event (.schedule id caller) →
        s.accepts event ∨ s.holds saved := by
  unfold scheduleWorkItem
  rw [raisesUnchanged_read (p := loadWorkItem id) rfl (Unchanged.refl s)]
  have hdeny : ∀ {item : Checked WorkItem} {denial : String},
      RaisesUnchanged s (denySchedule item caller denial now) s :=
    raisesUnchanged_map.mpr (raisesUnchanged_appendEvent.mpr (Or.inr (Unchanged.refl s)))
  have hamong : ∀ {item : Checked WorkItem} {clients : List ClientStatusSnapshot},
      RaisesUnchanged s (scheduleAmong item caller now clients) s ↔
        ∀ selected others, clients = selected :: others → ∀ saved event,
          TransitionSaves s now (scheduledAssignment item caller selected) saved event →
            s.accepts event ∨ s.holds saved := by
    intro item clients
    cases clients with
    | nil => exact iff_of_true hdeny fun _ _ h => (by cases h)
    | cons selected others =>
      refine (raisesUnchanged_map.trans
        (raisesUnchanged_transition (c := scheduledAssignment item caller selected))).trans ?_
      exact ⟨fun h selected' others' heq => (by cases heq; exact h), fun h => h selected others rfl⟩
  constructor
  · rintro h saved event ⟨item, selected, others, hload, hwaiting, hclients, hsaves⟩
    have hitem := h item (returns_loadWorkItem.mpr ⟨hload, rfl⟩)
    rw [scheduleFrom, if_pos hwaiting,
      raisesUnchanged_read (run_eligibleClients item.1 s) (Unchanged.refl s)] at hitem
    exact hamong.mp (hitem _ hclients) selected others rfl saved event hsaves
  · intro h item hread
    obtain ⟨hload, -⟩ := returns_loadWorkItem.mp hread
    unfold scheduleFrom
    split
    · rename_i hwaiting
      rw [raisesUnchanged_read (run_eligibleClients item.1 s) (Unchanged.refl s)]
      intro clients hclients
      refine hamong.mpr fun selected others heq saved event hsaves => ?_
      subst heq
      exact h saved event ⟨item, selected, others, hload, hwaiting, hclients, hsaves⟩
    · exact hdeny

/-- A call that raises leaves the three tables alone iff what it saves is recorded. -/
theorem raisesUnchanged_perform {s : Store} {call : WorkItemCall} {now : DateTime} :
    RaisesUnchanged s (call.perform now) s ↔ SavesAreRecorded s now call := by
  cases call with
  | create item caller summary =>
    refine (raisesUnchanged_map.trans raisesUnchanged_create).trans ⟨?_, ?_⟩
    · rintro h saved event ⟨hnew, href, rfl, rfl⟩
      exact Or.inl (h hnew href)
    · intro h hnew href
      rcases h item.1 _ ⟨hnew, href, rfl, rfl⟩ with hacc | ⟨hhas, -⟩
      · exact hacc
      · rw [hnew] at hhas
        cases hhas
  | transition c => exact raisesUnchanged_map.trans raisesUnchanged_transition
  | schedule id caller => exact raisesUnchanged_map.trans raisesUnchanged_schedule

/-! ## Answers of the API -/

/-- Did the handler raise, or answer with an error of its own?  (The other answers are results of
    the service; those with a 4xx code are the recorded denials.) -/
def Failed : Except PyError WorkItemAnswer → Prop
  | .error _ => True
  | .ok (.error _ _) => True
  | .ok _ => False

/-- A failing handler leaves the three tables alone. -/
def FailsUnchanged (p : Db WorkItemAnswer) (s : Store) : Prop :=
  Failed (p.run s).1 → Unchanged s (p.run s).2

/-- A service call never answers with an error of the handler. -/
theorem perform_answers {call : WorkItemCall} {now : DateTime} {s : Store} :
    Failed ((call.perform now).run s).1 ↔ ∃ e, ((call.perform now).run s).1 = .error e := by
  have hmap : ∀ {α : Type} (p : Db α) (f : α → WorkItemAnswer), (∀ a, ¬ Failed (.ok (f a))) →
      (Failed ((do let a ← p; pure (f a) : Db WorkItemAnswer).run s).1 ↔
        ∃ e, ((do let a ← p; pure (f a) : Db WorkItemAnswer).run s).1 = .error e) := by
    intro α p f hf
    rw [Program.run_map]
    cases (p.run s).1 with
    | ok a => exact ⟨fun h => absurd h (hf a), fun ⟨e, h⟩ => by cases h⟩
    | error e => exact ⟨fun _ => ⟨e, rfl⟩, fun _ => trivial⟩
  cases call <;> exact hmap _ _ fun _ h => h

/-- Catching an exception and answering with an error, or letting it through, hides no change. -/
theorem failsUnchanged_handle {p : Db WorkItemAnswer} {h : PyError → Db WorkItemAnswer} {s : Store}
    (hp : Failed (p.run s).1 ↔ ∃ e, (p.run s).1 = .error e)
    (hh : ∀ e s, Failed ((h e).run s).1 ∧ ((h e).run s).2 = s) :
    FailsUnchanged (Program.handle p h) s ↔ RaisesUnchanged s p s := by
  unfold FailsUnchanged RaisesUnchanged
  rw [Program.run_handle]
  rcases hrun : p.run s with ⟨r, s'⟩
  rw [hrun] at hp
  cases r with
  | ok a =>
    refine iff_of_true (fun hf => ?_) (fun e he => by cases he)
    obtain ⟨e, he⟩ := hp.mp hf
    cases he
  | error e =>
    show (Failed ((h e).run s').1 → Unchanged s ((h e).run s').2) ↔ _
    rw [(hh e s').2]
    exact ⟨fun hf _ _ => hf (hh e s').1, fun hf _ => hf e rfl⟩

theorem actionError_fails (e : PyError) (s : Store) :
    Failed ((actionError e).run s).1 ∧ ((actionError e).run s).2 = s := by
  cases e <;> exact ⟨trivial, rfl⟩

theorem createError_fails (e : PyError) (s : Store) :
    Failed ((createError e).run s).1 ∧ ((createError e).run s).2 = s := by
  cases e <;> exact ⟨trivial, rfl⟩

/-- Exactly when a failing call leaves items, mirror and ledger alone, for every store and all
    arguments: the service calls, the create route and the action route. -/
theorem failedCalls_unchanged_iff (s : Store) (now : DateTime) :
    (∀ call, RaisesUnchanged s (WorkItemCall.perform now call) s ↔ SavesAreRecorded s now call) ∧
    (∀ body : CreateBody, FailsUnchanged (workItemCreateResponse body now) s ↔
      ∀ item, Model.build body.workItem = .ok item → SavesAreRecorded s now
        (.create item (callerOf body.actor body.role body.clientId) body.summary)) ∧
    (∀ parts (body : ActionBody), FailsUnchanged (workItemActionResponse parts body now) s ↔
      ∀ root id action call, parts = [root, id, action] →
        actionCall id action body = some call → SavesAreRecorded s now call) := by
  refine ⟨fun call => raisesUnchanged_perform, fun body => ?_, fun parts body => ?_⟩
  · unfold workItemCreateResponse
    refine (failsUnchanged_handle ?_ createError_fails).trans ?_
    · cases Model.build body.workItem with
      | ok item =>
        exact @perform_answers
          (.create item (callerOf body.actor body.role body.clientId) body.summary) now s
      | error e => exact ⟨fun _ => ⟨e, rfl⟩, fun _ => trivial⟩
    · rw [raisesUnchanged_done _ (Unchanged.refl s)]
      exact forall_congr' fun item => imp_congr_right fun _ => raisesUnchanged_perform
  · have hother : FailsUnchanged (pure (.error 404 "not_found")) s := fun _ => Unchanged.refl s
    unfold workItemActionResponse
    split
    · rename_i root id action
      cases hcall : actionCall id action body with
      | some call =>
        refine (failsUnchanged_handle perform_answers actionError_fails).trans
          (raisesUnchanged_perform.trans ⟨?_, fun h => h root id action call rfl hcall⟩)
        rintro h root' id' action' call' heq hcall'
        cases heq
        rw [hcall] at hcall'
        cases hcall'
        exact h
      | none =>
        refine iff_of_true hother fun root' id' action' call' heq hcall' => ?_
        cases heq
        rw [hcall] at hcall'
        cases hcall'
    · rename_i hparts
      exact iff_of_true hother fun root id action _ heq => absurd heq (hparts root id action)

/-- The store after the sample item was created. -/
def createdStore : Store :=
  ((createWorkItem ⟨sampleItem, sampleItem_valid⟩ sampleCaller none epoch).run Store.empty).2

/-- A cancel request whose actor contains a slash is answered 400, and the item is cancelled
    without an event. -/
theorem refusedCancel_changes_item :
    let run := (workItemActionResponse ["work-items", "w1", "cancel"] { actor := some "team/ann" }
      epoch).run createdStore
    (∃ a, run.1 = .ok a ∧ a.code = 400) ∧ createdStore.statusAt "w1" = some .queued ∧
      run.2.statusAt "w1" = some .cancelled ∧
      run.2.eventCount = createdStore.eventCount ∧
      ¬ FailsUnchanged (workItemActionResponse ["work-items", "w1", "cancel"]
        { actor := some "team/ann" } epoch) createdStore := by
  refine ⟨⟨.error 400 "invalid_work_item", rfl, rfl⟩, rfl, rfl, rfl, fun h => ?_⟩
  have hsame : ∀ s s' : Store, Unchanged s s' → s'.statusAt "w1" = s.statusAt "w1" := by
    intro s s' hss'
    rw [Store.statusAt, Store.itemAt, hss'.1]
    rfl
  have hstatus := hsame _ _ (h trivial)
  rw [show createdStore.statusAt "w1" = some .queued from rfl] at hstatus
  cases hstatus

end Vad
