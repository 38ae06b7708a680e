/-
  The task states mirror the work items.

  The store writes an item and then its mirror, and the service writes the mirror once more.  The
  second write knows the item only from its caller, so the mirror is right because nothing comes in
  between: the invariant (`Mirrored`) is about a request that runs alone, store call by store call.

  1. **Other methods** keep both tables (`SameWork`), also the deletion of a client, which clears
     references of an item but not what a load of it reads.
  2. **Writers** put the item and its mirror (`mirrored_putItemAndState`, `mirrored_addItem`); the
     run of an item never changes, so its mirror stays under one key.
  3. **Every request** keeps the invariant at each of its calls (`mirrored_rule`), raising or not,
     so it holds after every run (`taskStates_mirror`).
-/
import Vad.Server.WorkItemRuns
import Vad.Server.Runs

namespace Vad

open Keyed (Table RecordId)
open Atomic (Program)
open Atomic.Program (Safe Solo Within Returns returns_bind returns_pure)

/-- The row that mirrors an item. -/
def mirrorRow (item : WorkItem) : RunTaskStateRow := runTaskStateRow (RunTaskState.ofItem item)

/-- The stored items and their mirrors, as lookups. -/
structure Mirrored (s : Store) : Prop where
  ids : ∀ id item, s.itemAt id = some item → item.workItemId = id
  items : ∀ id item, s.itemAt id = some item →
    s.runTaskStates.find? (item.runId, item.workItemId) = some (mirrorRow item)
  states : ∀ st ∈ s.runTaskStates.rows, ∃ id item, s.itemAt id = some item ∧ st = mirrorRow item

/-- What a load of an item reads, and the mirrors, are the same. -/
structure SameWork (s s' : Store) : Prop where
  items : ItemsKept s s'
  states : s'.runTaskStates = s.runTaskStates

section Kept

variable {s s' : Store}

theorem mirrored_empty (evidence : Table RunEvidenceRow.runId) :
    Mirrored { Store.empty with runEvidence := evidence } where
  ids id item h := by cases h
  items id item h := by cases h
  states st h := absurd h List.not_mem_nil

theorem SameWork.refl (s : Store) : SameWork s s := ⟨fun _ => rfl, rfl⟩

theorem SameWork.trans {a b c : Store} (hab : SameWork a b) (hbc : SameWork b c) : SameWork a c :=
  ⟨fun id => (hbc.items id).trans (hab.items id), hbc.states.trans hab.states⟩

theorem SameWork.mirrored (h : SameWork s s') (hs : Mirrored s) : Mirrored s' where
  ids id item hitem := hs.ids id item (h.items id ▸ hitem)
  items id item hitem := by
    rw [h.states]
    exact hs.items id item (h.items id ▸ hitem)
  states st hst := by
    rw [h.states] at hst
    obtain ⟨id, item, hitem, hmirror⟩ := hs.states st hst
    exact ⟨id, item, (h.items id).trans hitem, hmirror⟩

/-! ## Methods that keep both tables -/

/-- The methods about clients keep what a load of an item reads. -/
theorem sameWork_offClients : OffClients SameWork where
  refl := SameWork.refl
  trans := SameWork.trans
  tables _ _ _ _ _ := ⟨fun _ => rfl, rfl⟩
  delete id s := ⟨(quiet_deleteManifest id s).1, rfl⟩

/-- `p` keeps both tables call by call, whatever the store. -/
abbrev KeepsWork {α : Type} (p : Db α) : Prop := Safe (fun _ => True) SameWork p

theorem keepsWork_appendEvent (fields : Nat → EventFields) : KeepsWork (appendEvent fields) := by
  refine Program.safe_bind (sameWork_offClients.query _) fun events => ?_
  show Safe _ _ (if h : (fields (events.length + 1)).ok = true then _ else _)
  split
  · exact Program.safe_atomic fun _ _ => ⟨⟨fun _ => rfl, rfl⟩, trivial⟩
  · exact Program.safe_raise _

theorem keepsWork_appendNumbered (e : EventFields) : KeepsWork (appendNumbered e) := by
  unfold appendNumbered
  split
  · split
    · exact Program.safe_atomic fun _ _ => ⟨⟨fun _ => rfl, rfl⟩, trivial⟩
    · exact Program.safe_raise _
  · exact Program.safe_raise _

theorem keepsWork_appendControlPlaneEvent (e : Checked ControlPlaneEvent) :
    KeepsWork (appendControlPlaneEvent e) :=
  sameWork_offClients.storeCall (Program.safe_bind (sameWork_offClients.execute fun s s' h => by
    split at h
    · split at h
      · cases h
        exact ⟨fun _ => rfl, rfl⟩
      · cases h
    · cases h) fun _ => Program.safe_pure _)

theorem keepsWork_ingest (e : EventFields) (eventId : Option RecordId) (now : DateTime) :
    KeepsWork (ingest e eventId now) := by
  unfold ingest
  simp only
  split
  · refine Program.safe_bind ?_ fun _ => Program.safe_pure _
    cases eventId with
    | none => exact keepsWork_appendNumbered e
    | some id =>
      exact Program.safe_bind trivial fun event => keepsWork_appendControlPlaneEvent event
  · exact Program.safe_bind (keepsWork_appendNumbered _) fun _ => Program.safe_pure _

end Kept

/-! ## The writers -/

section Writers

variable {s s' : Store} {item : WorkItem}

/-- An item and its mirror are written, and a stored item with its id was of the same run. -/
theorem mirrored_write (hs : Mirrored s)
    (hat : ∀ id, s'.itemAt id = if id = item.workItemId then some item else s.itemAt id)
    (hstates : s'.runTaskStates = s.runTaskStates.upsert (mirrorRow item))
    (hrun : ∀ old, s.itemAt item.workItemId = some old → item.runId = old.runId) : Mirrored s' := by
  refine ⟨fun id other hother => ?_, fun id other hother => ?_, fun st hst => ?_⟩
  · rw [hat] at hother
    split at hother
    · rename_i h
      cases hother
      exact h.symm
    · exact hs.ids id other hother
  · rw [hat] at hother
    rw [hstates, Table.find?_upsert]
    split at hother
    · cases hother
      exact if_pos rfl
    · rename_i hne
      have hkey : ¬ (mirrorRow item).key = (other.runId, other.workItemId) := by
        intro h
        have hsame : item.workItemId = other.workItemId := congrArg Prod.snd h
        exact hne (by rw [hsame, hs.ids id other hother])
      rw [if_neg hkey]
      exact hs.items id other hother
  · rw [hstates] at hst
    have hfind := Table.mem_rows_iff.mp hst
    rw [Table.find?_upsert] at hfind
    split at hfind
    · exact ⟨item.workItemId, item, (hat _).trans (if_pos rfl), (Option.some.inj hfind).symm⟩
    · rename_i hkey
      obtain ⟨id, other, hother, hmirror⟩ := hs.states st (Table.mem_of_find? hfind)
      refine ⟨id, other, ?_, hmirror⟩
      rw [hat, if_neg]
      · exact hother
      · -- the mirror of an item that was overwritten had the key of the new mirror
        rintro rfl
        refine hkey ?_
        rw [hmirror]
        exact Prod.ext (hrun other hother) (hs.ids _ other hother).symm

/-- Writing the mirror of a stored item once more. -/
theorem mirrored_putState (hs : Mirrored s) (hitem : s.itemAt item.workItemId = some item) :
    Mirrored (s.putState (RunTaskState.ofItem item)) := by
  refine mirrored_write hs (fun id => ?_) rfl fun old hold => ?_
  · show s.itemAt id = _
    split
    · rename_i h
      rw [h, hitem]
    · rfl
  · rw [hitem] at hold
    cases hold
    rfl

/-- Storing an item in place of one of the same run, with its mirror. -/
theorem mirrored_putItemAndState (hs : Mirrored s) {old : WorkItem}
    (hold : s.itemAt item.workItemId = some old) (hrun : item.runId = old.runId) :
    Mirrored (s.putItemAndState item) := by
  obtain ⟨row, hrow, -⟩ := Option.map_eq_some_iff.mp hold
  refine mirrored_write hs (itemAt_putItem ⟨row, hrow⟩) rfl fun other hother => ?_
  rw [hold] at hother
  cases hother
  exact hrun

/-- Adding an item under a new id, with its mirror. -/
theorem mirrored_addItem (hs : Mirrored s) {t : Table WorkItemRow.workItemId}
    (ht : s.workItems.insert (workItemRow item) = some t) : Mirrored (s.addItem t item) := by
  refine mirrored_write hs (fun id => ?_) rfl fun old hold => ?_
  · show (t.find? id).map WorkItemRow.payload = _
    rw [Table.find?_insert ht]
    by_cases hid : id = item.workItemId
    · rw [if_pos hid, if_pos (show (workItemRow item).workItemId = id from hid.symm)]
      rfl
    · rw [if_neg hid, if_neg (show ¬ (workItemRow item).workItemId = id from fun h => hid h.symm)]
      rfl
  · have hfree : s.workItems.find? item.workItemId = none := (Table.insert_eq_some.mp ht).1
    rw [Store.itemAt, hfree] at hold
    cases hold

end Writers

/-! ## One request -/

/-- A call does not break the mirror. -/
def KeepsMirror (s s' : Store) : Prop := Mirrored s → Mirrored s'

section Requests

variable {s : Store}

theorem KeepsWork.within {α : Type} {p : Db α} (h : KeepsWork p) (s : Store) :
    Within KeepsMirror p s := (h.solo s trivial).mono fun _ _ hR => hR.1.mirrored

/-- A program whose calls do not break the mirror, from a store where it is right. -/
theorem solo_of_within {α : Type} {p : Db α} (h : ∀ s, Mirrored s → Within KeepsMirror p s) :
    Solo Mirrored Any p := fun s hs => (h s hs).mono fun _ _ hR => ⟨trivial, hR⟩

theorem solo_of_keepsWork {α : Type} {p : Db α} (h : KeepsWork p) : Solo Mirrored Any p :=
  solo_of_within fun s _ => h.within s

/-- The service's own write of the mirror, and the event. -/
theorem within_recordTransition (saved : Checked WorkItem) (caller : Caller)
    (summary : Option String) (decision : PolicyDecision) (now : DateTime)
    (hitem : s.itemAt saved.1.workItemId = some saved.1) :
    Within KeepsMirror (recordTransition saved caller summary decision now) s :=
  Program.within_bind (Program.within_atomic.mpr fun hs => mirrored_putState hs hitem)
    fun _ s₁ _ => KeepsWork.within (Program.safe_bind (keepsWork_appendEvent _) fun _ =>
      Program.safe_pure _) s₁

theorem mirror_transition (hs : Mirrored s) (id : String) (target : WorkItemStatus)
    (caller : Caller) (change : WorkItemChange) (summary : Option String) (now : DateTime) :
    Within KeepsMirror (transition id target caller change summary now) s := by
  refine Program.within_bind ((KeepsWork.within (sameWork_offClients.query _)) s)
    fun current s₁ hread => ?_
  obtain ⟨⟨row, hrow, hbuild⟩, hs₁⟩ := returns_loadWorkItem.mp hread
  subst hs₁
  have hat : s₁.itemAt id = some current.1 := by
    rw [Store.itemAt, hrow, build_val (fun _ => rfl) hbuild]
    rfl
  have hid := hs.ids id current.1 hat
  unfold transitionFrom
  split
  · refine Program.within_bind trivial fun item s₂ hbuilt => ?_
    obtain ⟨hmoved, hs₂⟩ := returns_done.mp hbuilt
    subst hs₂
    obtain ⟨-, hsameId, hsameRun, -⟩ := transitionedItem_spec hmoved
    have hold : s₂.itemAt item.1.workItemId = some current.1 := by
      rw [hsameId, hid]
      exact hat
    refine Program.within_bind (Program.within_atomic.mpr ?_) fun saved s₃ hsaved => ?_
    · show KeepsMirror s₂ ((storeWorkItem item).run s₂).2
      rcases run_storeWorkItem item s₂ with hrun | ⟨e, hrun⟩ <;> rw [hrun]
      · exact fun h => mirrored_putItemAndState h hold hsameRun
      · exact fun h => h
    · -- the item that the service mirrors again is the one that was stored
      obtain ⟨⟨found, x, hfound, -⟩, -, hsame, hs₃⟩ := returns_storeWorkItem.mp hsaved
      subst hsame hs₃
      refine within_recordTransition _ caller summary _ now ?_
      exact (itemAt_putItem ⟨found, hfound⟩ _).trans (if_pos rfl)
  · exact KeepsWork.within (Program.safe_bind (keepsWork_appendEvent _) fun _ =>
      Program.safe_pure _) s₁

theorem mirror_createWorkItem (s : Store) (item : Checked WorkItem) (caller : Caller)
    (summary : Option String) (now : DateTime) :
    Within KeepsMirror (createWorkItem item caller summary now) s := by
  refine Program.within_bind (Program.within_atomic.mpr ?_) fun saved s₁ hsaved => ?_
  · show KeepsMirror s ((saveWorkItem item).run s).2
    rcases run_saveWorkItem item s with ⟨t, ht, -, hrun⟩ | ⟨e, hrun⟩ <;> rw [hrun]
    · exact fun h => mirrored_addItem h ht
    · exact fun h => h
  · have hstored : s₁.itemAt saved.1.workItemId = some saved.1 := by
      rcases run_saveWorkItem item s with ⟨t, ht, -, hrun⟩ | ⟨e, hrun⟩
      · have hpair := Eq.trans (Eq.symm hrun) hsaved
        cases hpair
        show (t.find? _).map WorkItemRow.payload = _
        rw [Table.find?_insert ht]
        exact congrArg _ (if_pos rfl)
      · exact absurd (Eq.trans (Eq.symm hrun) hsaved) (by simp)
    refine Program.within_bind (Program.within_atomic.mpr fun h => mirrored_putState h hstored)
      fun _ s₂ _ => KeepsWork.within (Program.safe_bind (keepsWork_appendEvent _) fun _ =>
        Program.safe_pure _) s₂

/-- Every request keeps the mirror at each of its calls, as long as it runs alone. -/
theorem mirrored_rule : RequestRule (fun _ => True) (fun {_} p => Solo Mirrored Any p) where
  done _ _ _ := trivial
  bind hp hk := Program.solo_bind hp hk
  query f := solo_of_keepsWork (sameWork_offClients.query f)
  registerClientManifest m := solo_of_keepsWork (sameWork_offClients.registerClientManifest m)
  unregisterClientManifest id := solo_of_keepsWork (sameWork_offClients.unregisterClientManifest id)
  recordClientHeartbeat b := solo_of_keepsWork (sameWork_offClients.recordClientHeartbeat b)
  markClientStale id := solo_of_keepsWork (sameWork_offClients.markClientStale id)
  saveTaskLease l _ := solo_of_keepsWork (sameWork_offClients.saveTaskLease l)
  appendEvent fields _ := solo_of_keepsWork (keepsWork_appendEvent fields)
  createWorkItem item caller summary now :=
    solo_of_within fun s _ => mirror_createWorkItem s item caller summary now
  transition id target caller change summary now :=
    solo_of_within fun _ hs => mirror_transition hs id target caller change summary now
  saveDiffProposal _ _ _ :=
    solo_of_keepsWork (Program.safe_atomic fun _ _ => ⟨⟨fun _ => rfl, rfl⟩, trivial⟩)
  saveApprovalEvent _ _ :=
    solo_of_keepsWork (Program.safe_atomic fun _ _ => ⟨⟨fun _ => rfl, rfl⟩, trivial⟩)

theorem mirrored_perform (o : Outside) (r : Request × DateTime) :
    Solo Mirrored Any (r.1.perform o r.2) :=
  mirrored_rule.request (fun _ _ => trivial)
    (fun e id now _ => solo_of_keepsWork (keepsWork_ingest e id now)) (fun _ _ _ => trivial) o r.2

end Requests

/-! ## Runs -/

/-- `run_task_states` mirrors the stored work items: of each item there is exactly one row with its
    run and its id, it is the row of its `from_work_item`, and there is no other row. -/
structure TaskStatesMirror (s : Store) : Prop where
  one : ∀ row ∈ s.workItems.rows,
    s.runTaskStates.rows.filter (fun st => st.runId = row.payload.runId ∧
      st.payload.workItemId = some row.payload.workItemId) = [mirrorRow row.payload]
  only : ∀ st ∈ s.runTaskStates.rows, ∃ row ∈ s.workItems.rows, st = mirrorRow row.payload

/-- A list without repetition in which one element passes. -/
theorem filter_eq_singleton {α : Type} {l : List α} {p : α → Bool} {a : α} (hl : l.Nodup)
    (ha : a ∈ l) (hp : ∀ b ∈ l, p b = true ↔ b = a) : l.filter p = [a] := by
  refine List.perm_singleton.mp ?_
  refine (List.perm_ext_iff_of_nodup (hl.filter p) (List.nodup_singleton a)).mpr fun b => ?_
  rw [List.mem_filter, List.mem_singleton]
  exact ⟨fun h => (hp b h.1).mp h.2, fun h => ⟨h ▸ ha, (hp b (h ▸ ha)).mpr h⟩⟩

theorem Mirrored.taskStatesMirror {s : Store} (hs : Mirrored s) : TaskStatesMirror s where
  one row hrow := by
    have hitem : s.itemAt row.workItemId = some row.payload := by
      rw [Store.itemAt, Table.mem_rows_iff.mp hrow]
      rfl
    have hmirror := Table.mem_of_find? (hs.items _ _ hitem)
    refine filter_eq_singleton s.runTaskStates.nodup.of_map hmirror fun st hst => ?_
    rw [decide_eq_true_eq]
    constructor
    · rintro ⟨-, hid⟩
      obtain ⟨id, item, hother, rfl⟩ := hs.states st hst
      -- ids are those under which the items are stored
      have hsame : item.workItemId = row.payload.workItemId := Option.some.inj hid
      rw [← hs.ids id item hother, hsame, hs.ids _ _ hitem, hitem] at hother
      rw [Option.some.inj hother]
    · rintro rfl
      exact ⟨rfl, rfl⟩
  only st hst := by
    obtain ⟨id, item, hitem, hmirror⟩ := hs.states st hst
    obtain ⟨row, hrow, rfl⟩ := Option.map_eq_some_iff.mp hitem
    exact ⟨row, Table.mem_of_find? hrow, hmirror⟩

/-- The task states mirror the work items after every sequential run, whether its requests returned
    or raised, and after every store call of the request that comes next. -/
theorem taskStates_mirror (o : Outside) (evidence : Table RunEvidenceRow.runId)
    (requests : List (Request × DateTime)) (next : Request × DateTime) :
    TaskStatesMirror (afterRequests o { Store.empty with runEvidence := evidence } requests) ∧
      Within (fun _ s => TaskStatesMirror s) (next.1.perform o next.2)
        (afterRequests o { Store.empty with runEvidence := evidence } requests) := by
  have hrun : Mirrored (afterRequests o { Store.empty with runEvidence := evidence } requests) :=
    afterRequests_keeps requests (fun r _ => (mirrored_perform o r).preserves) _
      (mirrored_empty evidence)
  refine ⟨hrun.taskStatesMirror, ?_⟩
  have hcalls := (mirrored_perform o next _ hrun).mono fun _ _ hR => hR.2
  exact (hcalls.holds hrun).mono fun _ _ hs => hs.taskStatesMirror

end Vad
