/-
  The lock file of the control plane (`vad/control_plane/lifecycle.py`).

  Instances write the file, anyone may remove it once its heartbeat is old.  A recovery asks whether
  the file is there, opens it, reads it and removes it, each in a call of its own, so that others
  may write or remove in between; it may find a file that is just being written.

  1. **Processes** (`writeLock`, `recoverStaleLock`) — call by call; how a lock is turned into
     text and back is a parameter.
  2. **Counting** (`LockUser.tallies`) — the call that removes the file is the last one before a
     recovery is reported.
  3. **Reading** (`LockUser.relies`) — what is read back is a lock that somebody wrote.
  4. `lock_recovery_accounted` puts the two together.
-/
import Vad.ControlPlane.Lifecycle
import Vad.Lib.OneFile
import Vad.Lib.Rely
import Vad.Lib.Tally

namespace Vad

open PyText (Text strip)
open Atomic (Program Pool)
open OneFile (Slot)

/-! ## Locks -/

structure ControlPlaneLock where
  instanceId : String
  processId : Int
  state : ControlPlaneState
  startedAt : DateTime
  heartbeatAt : DateTime
deriving DecidableEq, Repr

instance : Model ControlPlaneLock where
  name := "ControlPlaneLock"
  normalize := id
  checks l := [("process_id", decide (0 ≤ l.processId))]
  normalize_idem _ := rfl

/-- How pydantic writes a lock, and what it makes of a text. -/
structure LockFormat where
  /-- `lock.model_dump_json(indent=2)`. -/
  modelDumpJson : ControlPlaneLock → Text
  /-- `ControlPlaneLock.model_validate_json(text)`; `none` is its `ValidationError`. -/
  modelValidateJson : Text → Option ControlPlaneLock

/-- What is relied on for some locks: they are read back, as objects they end with a brace, and
    with something behind the object that is not blank a text is no JSON, as is the empty text. -/
structure LockFormat.Reads (f : LockFormat) (locks : List ControlPlaneLock) : Prop where
  back : ∀ l ∈ locks, f.modelValidateJson (f.modelDumpJson l) = some l
  brace : ∀ l ∈ locks, (f.modelDumpJson l).getLast? = some '\x7d'
  behind : ∀ l ∈ locks, ∀ rest : Text, rest.getLast? = some '\x7d' →
    f.modelValidateJson (f.modelDumpJson l ++ rest) = none
  empty : f.modelValidateJson [] = none

/-- The exceptions of the functions on lock files. -/
inductive LockError where
  | fileNotFound
  | validation
  /-- An aware and a naive time have no difference. -/
  | typeError
deriving DecidableEq, Repr

/-- `a - b`, in microseconds. -/
def timeDifference (a b : DateTime) : Option Int :=
  if a.isAware = b.isAware then some (a.instant - b.instant) else none

/-- The event of a recovery. -/
def staleLockEvent (stamp : LifecycleStamp) (lock : ControlPlaneLock) (age : Int) :
    ControlPlaneLifecycleEvent where
  eventId := stamp.eventId
  fromState := some lock.state
  toState := .stopped
  reason := "recovered stale control-plane lock after " ++ toString (age.tdiv 1000000) ++
    " seconds"
  actor := "recovery"
  createdAt := stamp.now

theorem staleLockEvent_valid (stamp : LifecycleStamp) (lock : ControlPlaneLock) (age : Int) :
    Model.Valid (staleLockEvent stamp lock age) := by
  have hreason : strip (staleLockEvent stamp lock age).reason.toList ≠ [] := by
    show strip ("recovered stale control-plane lock after " ++ toString (age.tdiv 1000000) ++
      " seconds").toList ≠ []
    rw [String.toList_append, String.toList_append]
    intro hnone
    have hblank := List.rdropWhile_eq_nil_iff.mp hnone 'r' (List.mem_cons_self ..)
    exact absurd hblank (by decide)
  refine ⟨rfl, failedFields_eq_nil.mpr fun c hc => ?_⟩
  simp only [Model.checks, List.mem_cons, List.not_mem_nil, or_false] at hc
  rcases hc with rfl | rfl
  · exact decide_eq_true hreason
  · have hactor : ControlPlaneLifecycleEvent.nonEmptyText "recovery" = true := by decide
    show ControlPlaneLifecycleEvent.nonEmptyText (staleLockEvent stamp lock age).actor = true
    unfold staleLockEvent
    exact hactor

structure LockRecoveryResult where
  recovered : Bool
  reason : String
  event : Option (Checked ControlPlaneLifecycleEvent) := none

/-- A call of `recover_stale_lock`. -/
structure LockRecovery where
  now : Option DateTime := none
  staleAfterSeconds : Int := 60
  /-- What `utc_now()` gives. -/
  clock : DateTime
  /-- The digits of the uuid in the event. -/
  hex : String

namespace LockRecovery

def currentTime (r : LockRecovery) : DateTime := r.now.getD r.clock

def stamp (r : LockRecovery) : LifecycleStamp := ⟨r.hex, r.currentTime⟩

end LockRecovery

/-! ## Processes -/

abbrev LockProgram := Program (Slot Char) LockError

/-- `write_lock`, in a directory that is there. -/
def writeLock (f : LockFormat) (lock : Checked ControlPlaneLock) : LockProgram Unit :=
  OneFile.writeText (f.modelDumpJson lock.1)

def readLock (f : LockFormat) : LockProgram ControlPlaneLock := do
  let text ← OneFile.readText .fileNotFound
  match f.modelValidateJson text with
  | some lock => pure lock
  | none => Program.raise .validation

/-- `lock_path.unlink()` and the result that says so. -/
def removeLock (r : LockRecovery) (lock : ControlPlaneLock) (age : Int) :
    LockProgram LockRecoveryResult := do
  OneFile.unlink .fileNotFound
  pure {
    recovered := true
    reason := "stale lock recovered"
    event := some ⟨staleLockEvent r.stamp lock age, staleLockEvent_valid r.stamp lock age⟩ }

def recoverStaleLock (f : LockFormat) (r : LockRecovery) : LockProgram LockRecoveryResult := do
  let found ← OneFile.fileExists
  if found = false then
    pure { recovered := false, reason := "lock file does not exist" }
  else
    let lock ← readLock f
    match timeDifference r.currentTime lock.heartbeatAt with
    | none => Program.raise .typeError
    | some age =>
      if age ≤ r.staleAfterSeconds * 1000000 then
        pure { recovered := false, reason := "lock heartbeat is still fresh" }
      else removeLock r lock age

/-- What a process does with the file. -/
inductive LockUser where
  | write (lock : Checked ControlPlaneLock)
  | recover (r : LockRecovery)

def LockUser.program (f : LockFormat) : LockUser → LockProgram (Option LockRecoveryResult)
  | .write lock => do
    writeLock f lock
    pure none
  | .recover r => do
    let result ← recoverStaleLock f r
    pure (some result)

/-! ## Counting -/

/-- A result that reports a recovery. -/
def reportsRecovery : Except LockError LockRecoveryResult → Bool
  | .ok r => r.recovered
  | .error _ => false

/-- A process that has ended with such a result. -/
def hasRecovered : Except LockError (Option LockRecoveryResult) → Bool
  | .ok (some r) => r.recovered
  | _ => false

section Counting

open Atomic.Program (Silent Tallies silent_atomic silent_bind tallies_atomic tallies_bind tallies_map
  tallies_pure tallies_raise)

theorem silent_writeLock (f : LockFormat) (lock : Checked ControlPlaneLock) :
    Silent Slot.removed (writeLock f lock) :=
  silent_bind (silent_atomic fun s => s.removed_opened) fun fd =>
    silent_atomic fun s => s.removed_written fd _

theorem silent_readLock (f : LockFormat) : Silent Slot.removed (readLock f) := by
  refine silent_bind (silent_bind (silent_atomic fun _ => rfl) fun fd =>
    silent_atomic fun _ => rfl) fun text => ?_
  split
  · trivial
  · trivial

/-- The removal counts, and what follows says so. -/
theorem tallies_removeLock (r : LockRecovery) (lock : ControlPlaneLock) (age : Int) :
    Tallies Slot.removed reportsRecovery (removeLock r lock age) := by
  have hunlink : Tallies Slot.removed (fun r => r.isOk)
      (OneFile.unlink .fileNotFound : LockProgram Unit) := by
    refine tallies_atomic fun s => ?_
    by_cases hlinked : s.linked.isSome = true
    · rw [if_pos hlinked]
      exact Slot.removed_unlinked hlinked
    · rw [if_neg hlinked]
      rfl
  refine tallies_map hunlink fun result => ?_
  cases result <;> rfl

theorem tallies_recoverStaleLock (f : LockFormat) (r : LockRecovery) :
    Tallies Slot.removed reportsRecovery (recoverStaleLock f r) := by
  refine tallies_bind (silent_atomic fun _ => rfl) (fun _ => rfl) fun found => ?_
  split
  · exact tallies_pure rfl
  refine tallies_bind (silent_readLock f) (fun _ => rfl) fun lock => ?_
  split
  · exact tallies_raise rfl
  split
  · exact tallies_pure rfl
  · exact tallies_removeLock r lock _

/-- One removal for each recovery reported, and no other. -/
theorem LockUser.tallies (f : LockFormat) (u : LockUser) :
    Tallies Slot.removed hasRecovered (u.program f) := by
  cases u with
  | write lock => exact tallies_bind (silent_writeLock f lock) (fun _ => rfl) fun _ => tallies_pure rfl
  | recover r =>
    refine tallies_map (tallies_recoverStaleLock f r) fun result => ?_
    cases result <;> rfl

end Counting

/-! ## Reading -/

section Reading

open Atomic.Program (Rely rely_atomic rely_bind rely_pure rely_raise rely_through)

variable {f : LockFormat} {locks : List ControlPlaneLock} {users : List LockUser}

/-- The texts of some locks. -/
def LockFormat.texts (f : LockFormat) (locks : List ControlPlaneLock) : List Text :=
  locks.map f.modelDumpJson

/-- What is read from what a reader may see is one of the locks. -/
theorem LockFormat.Reads.mem (hf : f.Reads locks) {text : Text} {lock : ControlPlaneLock}
    (htext : OneFile.Remains (f.texts locks) '\x7d' text)
    (hlock : f.modelValidateJson text = some lock) : lock ∈ locks := by
  rcases htext with rfl | ⟨t, ht, rest, rfl, hrest⟩
  · rw [hf.empty] at hlock
    cases hlock
  obtain ⟨l, hl, rfl⟩ := List.mem_map.mp ht
  rcases hrest with rfl | hrest
  · rw [List.append_nil, hf.back l hl] at hlock
    cases hlock
    exact hl
  · rw [hf.behind l hl rest hrest] at hlock
    cases hlock

theorem LockFormat.Reads.closing (hf : f.Reads locks) :
    ∀ t ∈ f.texts locks, t.getLast? = some '\x7d' := by
  intro t ht
  obtain ⟨l, hl, rfl⟩ := List.mem_map.mp ht
  exact hf.brace l hl

/-- What no process takes back: the files made, and the removals. -/
def OnlyGrows (s s' : Slot Char) : Prop :=
  s.made.length ≤ s'.made.length ∧ s.removed ≤ s'.removed

theorem OnlyGrows.refl (s : Slot Char) : OnlyGrows s s := ⟨Nat.le_refl _, Nat.le_refl _⟩

theorem OnlyGrows.trans {a b c : Slot Char} (hab : OnlyGrows a b) (hbc : OnlyGrows b c) :
    OnlyGrows a c := ⟨Nat.le_trans hab.1 hbc.1, Nat.le_trans hab.2 hbc.2⟩

theorem onlyGrows_opened (s : Slot Char) : OnlyGrows s s.opened := by
  have hlength := s.length_opened
  have hlinked : s.linked.toList.length ≤ 1 := by cases s.linked <;> simp
  exact ⟨by omega, Nat.le_of_eq s.removed_opened.symm⟩

theorem onlyGrows_written (s : Slot Char) (fd : Nat) (text : Text) :
    OnlyGrows s (s.written fd text) :=
  ⟨by simp [Slot.written], Nat.le_of_eq (s.removed_written fd text).symm⟩

/-- A lock that was written, stale by the clock of one of the recoveries, is what an event is
    about. -/
def AboutStaleLock (users : List LockUser) (locks : List ControlPlaneLock)
    (event : ControlPlaneLifecycleEvent) : Prop :=
  ∃ r lock age, .recover r ∈ users ∧ lock ∈ locks ∧
    timeDifference r.currentTime lock.heartbeatAt = some age ∧
    r.staleAfterSeconds * 1000000 < age ∧ event = staleLockEvent r.stamp lock age

/-- A recovery has an event exactly if it recovered something. -/
def LockRecoveryResult.Faithful (users : List LockUser) (locks : List ControlPlaneLock)
    (r : LockRecoveryResult) : Prop :=
  r.recovered = r.event.isSome ∧ ∀ event, r.event = some event → AboutStaleLock users locks event.1

/-- A file is missing only where one was removed. -/
def MissesRemoved (e : LockError) (s : Slot Char) : Prop := e = .fileNotFound → 0 < s.removed

abbrev LockRely (f : LockFormat) (locks : List ControlPlaneLock) {α : Type}
    (post : α → Slot Char → Prop) (pre : Slot Char → Prop) (p : LockProgram α) : Prop :=
  Rely (Slot.Legible (f.texts locks) '\x7d') OnlyGrows post MissesRemoved pre p

theorem missesRemoved_of_made {s s' : Slot Char} (hmade : 0 < s.made.length)
    (hmissing : ¬ s.linked.isSome = true) (hgrows : OnlyGrows s s') : 0 < s'.removed := by
  have hadd := s.removed_add
  have hgone : s.linked.toList.length = 0 := by
    cases hl : s.linked with
    | none => rfl
    | some i => exact absurd (by rw [hl]; rfl) hmissing
  have hremoved := hgrows.2
  omega

theorem rely_writeLock (hf : f.Reads locks) {lock : Checked ControlPlaneLock}
    (hlock : lock.1 ∈ locks) :
    LockRely f locks (fun _ _ => True) (fun _ => True) (writeLock f lock) := by
  refine rely_through (fun _ _ => True) ?_ fun fd => ?_
  · refine rely_atomic (fun s hI _ => ⟨hI.opened, onlyGrows_opened s⟩) ?_ ?_
    · exact fun _ _ _ _ _ _ _ _ => trivial
    · intro s e _ _ he
      cases he
  · have htext : f.modelDumpJson lock.1 ∈ f.texts locks := List.mem_map_of_mem hlock
    refine rely_atomic (fun s hI _ => ⟨hI.written hf.closing htext fd, onlyGrows_written s fd _⟩)
      ?_ ?_
    · exact fun _ _ _ _ _ _ _ _ => trivial
    · intro s e _ _ he
      cases he

/-- What is read is a lock that somebody wrote. -/
theorem rely_readLock (hf : f.Reads locks) :
    LockRely f locks (fun lock s => lock ∈ locks ∧ 0 < s.made.length) (fun s => 0 < s.made.length)
      (readLock f) := by
  refine rely_through (fun text s => OneFile.Remains (f.texts locks) '\x7d' text ∧
    0 < s.made.length) ?_ fun text => ?_
  · refine rely_through (fun _ s => 0 < s.made.length) ?_ fun fd => ?_
    · refine rely_atomic (fun s hI _ => ⟨hI, OnlyGrows.refl s⟩) ?_ ?_
      · exact fun s fd _ hs _ s' _ hgrows => Nat.lt_of_lt_of_le hs hgrows.1
      · intro s e _ hs he s' _ hgrows _
        refine missesRemoved_of_made hs ?_ hgrows
        intro hsome
        obtain ⟨i, hi⟩ := Option.isSome_iff_exists.mp hsome
        rw [hi] at he
        cases he
    · refine rely_atomic (fun s hI _ => ⟨hI, OnlyGrows.refl s⟩) ?_ ?_
      · intro s text hI hs htext s' _ hgrows
        rw [← Except.ok.inj htext]
        exact ⟨hI.getD fd, Nat.lt_of_lt_of_le hs hgrows.1⟩
      · intro s e _ _ he
        cases he
  · split
    · rename_i lock hlock
      exact rely_pure fun s _ hs => ⟨hf.mem hs.1 hlock, hs.2⟩
    · exact rely_raise fun s _ _ he => by cases he

theorem rely_removeLock {r : LockRecovery} (hr : .recover r ∈ users) {lock : ControlPlaneLock}
    {age : Int} (hage : timeDifference r.currentTime lock.heartbeatAt = some age)
    (hstale : r.staleAfterSeconds * 1000000 < age) :
    LockRely f locks (fun result _ => result.Faithful users locks)
      (fun s => lock ∈ locks ∧ 0 < s.made.length) (removeLock r lock age) := by
  refine rely_through (fun _ _ => lock ∈ locks) ?_ fun _ => rely_pure fun s _ hlock => ?_
  · refine rely_atomic (fun s hI _ => ?_) (fun s _ _ hs _ s' _ _ => hs.1) ?_
    · by_cases hlinked : s.linked.isSome = true
      · rw [if_pos hlinked]
        refine ⟨hI, Nat.le_refl _, ?_⟩
        rw [Slot.removed_unlinked hlinked]
        exact Nat.le_succ _
      · rw [if_neg hlinked]
        exact ⟨hI, OnlyGrows.refl s⟩
    · intro s e _ hs he s' _ hgrows _
      by_cases hlinked : s.linked.isSome = true
      · rw [if_pos hlinked] at he
        cases he
      · rw [if_neg hlinked] at hgrows
        exact missesRemoved_of_made hs.2 hlinked hgrows
  · refine ⟨rfl, fun event hevent => ?_⟩
    cases hevent
    exact ⟨r, lock, age, hr, hlock, hage, hstale, rfl⟩

theorem rely_recoverStaleLock (hf : f.Reads locks) {r : LockRecovery} (hr : .recover r ∈ users) :
    LockRely f locks (fun result _ => result.Faithful users locks) (fun _ => True)
      (recoverStaleLock f r) := by
  have hnothing : ∀ reason : String,
      LockRecoveryResult.Faithful users locks { recovered := false, reason := reason } :=
    fun _ => ⟨rfl, fun event hevent => by cases hevent⟩
  refine rely_through (fun found s => found = true → 0 < s.made.length) ?_ fun found => ?_
  · refine Program.rely_read OnlyGrows.refl fun s _ _ s' _ hgrows hfound => ?_
    obtain ⟨i, hi⟩ := Option.isSome_iff_exists.mp hfound
    have hmade := s.linked_lt i hi
    exact Nat.lt_of_lt_of_le (Nat.lt_of_le_of_lt (Nat.zero_le i) hmade) hgrows.1
  split
  · exact rely_pure fun s _ _ => hnothing _
  rename_i hfound
  refine rely_through (fun lock s => lock ∈ locks ∧ 0 < s.made.length) ?_ fun lock => ?_
  · exact (rely_readLock hf).mono (fun s _ hs => hs (by simpa using hfound)) fun _ _ _ h => h
  split
  · exact rely_raise fun s _ _ he => by cases he
  rename_i age hage
  split
  · exact rely_pure fun s _ _ => hnothing _
  · rename_i hstale
    exact rely_removeLock hr hage (Int.not_le.mp hstale)

theorem LockUser.relies (hf : f.Reads locks) (hwritten : ∀ lock, .write lock ∈ users → lock.1 ∈ locks)
    {u : LockUser} (hu : u ∈ users) :
    LockRely f locks (fun result _ => ∀ r, result = some r → r.Faithful users locks) (fun _ => True)
      (u.program f) := by
  cases u with
  | write lock =>
    refine rely_bind (rely_writeLock hf (hwritten lock hu)) fun _ => rely_pure fun s _ _ r hr => ?_
    cases hr
  | recover r =>
    refine rely_bind (rely_recoverStaleLock hf hu) fun result => rely_pure fun s _ hresult r hr => ?_
    cases hr
    exact hresult

end Reading

/-! ## Any run -/

/-- The file at the start, if there is one. -/
def lockFileOf (f : LockFormat) : Option ControlPlaneLock → Slot Char
  | none => Slot.absent
  | some lock => Slot.holding (f.modelDumpJson lock)

def LockUser.written : LockUser → Option ControlPlaneLock
  | .write lock => some lock.1
  | .recover _ => none

/-- Processes that write the lock file and recover it at once: as many recoveries are reported as
    files were made that are no longer there, so that no two of them report the same one; every
    event is about a lock that somebody wrote and that was stale for the recovery; and a file is
    found missing, where it was there before, only when it was recovered. -/
theorem lock_recovery_accounted (f : LockFormat) (users : List LockUser)
    (file : Option ControlPlaneLock)
    (hf : f.Reads (file.toList ++ users.filterMap LockUser.written)) (schedule : List Nat) :
    let P := (Pool.mk (lockFileOf f file) (users.map (LockUser.program f))).exec schedule
    let recoveries := P.threads.countP (Pool.hasCounted hasRecovered)
    P.state.made.length = recoveries + P.state.linked.toList.length ∧
      (∀ r, .done (.ok (some r)) ∈ P.threads →
        r.Faithful users (file.toList ++ users.filterMap LockUser.written)) ∧
      (.done (.error .fileNotFound) ∈ P.threads → 0 < recoveries) := by
  intro P recoveries
  generalize hlocks : file.toList ++ users.filterMap LockUser.written = locks at hf ⊢
  have hcount : P.state.removed = recoveries := by
    have htally := @Pool.exec_tally _ _ _ Slot.removed hasRecovered schedule
      (Pool.mk (lockFileOf f file) (users.map (LockUser.program f))) fun p hp => by
        obtain ⟨u, -, rfl⟩ := List.mem_map.mp hp
        exact Or.inl (u.tallies f)
    have hstart : (lockFileOf f file).removed = 0 := by cases file <;> rfl
    have hnone : (users.map (LockUser.program f)).countP (Pool.hasCounted hasRecovered) = 0 := by
      rw [List.countP_eq_zero]
      intro p hp
      obtain ⟨u, -, rfl⟩ := List.mem_map.mp hp
      cases u <;> exact Bool.false_ne_true
    change P.state.removed + (users.map (LockUser.program f)).countP _ =
      (lockFileOf f file).removed + recoveries at htally
    omega
  have hahead : Pool.Ahead (Slot.Legible (f.texts locks) '\x7d') OnlyGrows
      (fun result _ => ∀ r, result = some r → r.Faithful users locks) MissesRemoved
      (Pool.mk (lockFileOf f file) (users.map (LockUser.program f))) := by
    refine ⟨?_, fun p hp => ?_⟩
    · cases file with
      | none => exact OneFile.legible_absent
      | some lock =>
        refine OneFile.legible_holding (List.mem_map_of_mem ?_)
        rw [← hlocks]
        exact List.mem_append_left _ (List.mem_singleton_self lock)
    · obtain ⟨u, hu, rfl⟩ := List.mem_map.mp hp
      refine (LockUser.relies hf (fun lock hlock => ?_) hu).mono (fun _ _ _ => trivial)
        fun _ _ _ h => h
      rw [← hlocks]
      exact List.mem_append_right _ (List.mem_filterMap.mpr ⟨_, hlock, rfl⟩)
  obtain ⟨hend, -⟩ := Pool.exec_rely OnlyGrows.refl OnlyGrows.trans schedule _ hahead
  refine ⟨?_, fun r hr => ?_, fun hmissing => ?_⟩
  · rw [← hcount]
    exact P.state.removed_add.symm
  · exact hend.returned OnlyGrows.refl hr r rfl
  · rw [← hcount]
    exact hend.raised OnlyGrows.refl hmissing rfl

/-! ### A lock written in between -/

/-- A lock whose heartbeat is from midnight. -/
def sampleOldLock : Checked ControlPlaneLock :=
  ⟨⟨"control-plane-1", 7, .ready, ⟨0, some 0⟩, ⟨0, some 0⟩⟩, ⟨rfl, rfl⟩⟩

/-- Its successor, two hours later. -/
def sampleNewLock : Checked ControlPlaneLock :=
  ⟨⟨"control-plane-2", 8, .ready, ⟨7200000000, some 0⟩, ⟨7200000000, some 0⟩⟩, ⟨rfl, rfl⟩⟩

def sampleLockText (instanceId processId time : String) : Text :=
  "\x7b\n  \"instance_id\": \"".toList ++ instanceId.toList ++
    "\",\n  \"process_id\": ".toList ++ processId.toList ++
    ",\n  \"state\": \"ready\",\n  \"started_at\": \"".toList ++ time.toList ++
    "\",\n  \"heartbeat_at\": \"".toList ++ time.toList ++ "\"\n\x7d".toList

theorem length_sampleLockText {a b p q t u : String} (hid : a.toList.length = b.toList.length)
    (hprocess : p.toList.length = q.toList.length) (htime : t.toList.length = u.toList.length) :
    (sampleLockText a p t).length = (sampleLockText b q u).length := by
  unfold sampleLockText
  simp only [List.length_append, hid, hprocess, htime]

theorem getLast?_sampleLockText (a p t : String) :
    (sampleLockText a p t).getLast? = some '\x7d' := by
  unfold sampleLockText
  rw [List.getLast?_append]
  rfl

def sampleOldText : Text := sampleLockText "control-plane-1" "7" "1970-01-01T00:00:00Z"

def sampleNewText : Text := sampleLockText "control-plane-2" "8" "1970-01-01T02:00:00Z"

/-- How the two are written and read. -/
def sampleLockFormat : LockFormat where
  modelDumpJson l := if l = sampleOldLock.1 then sampleOldText else sampleNewText
  modelValidateJson t :=
    if t = sampleOldText then some sampleOldLock.1
    else if t = sampleNewText then some sampleNewLock.1 else none

theorem sampleTexts_ne : sampleNewText ≠ sampleOldText := by
  intro heq
  have hdigit := congrArg (fun t : Text => t[34]?) heq
  exact absurd hdigit (by decide)

theorem sampleLockFormat_dumps :
    sampleLockFormat.modelDumpJson sampleOldLock.1 = sampleOldText ∧
      sampleLockFormat.modelDumpJson sampleNewLock.1 = sampleNewText := by
  have hne : sampleNewLock.1 ≠ sampleOldLock.1 := by decide
  constructor
  · show (if sampleOldLock.1 = sampleOldLock.1 then sampleOldText else sampleNewText) = _
    rw [if_pos rfl]
  · show (if sampleNewLock.1 = sampleOldLock.1 then sampleOldText else sampleNewText) = _
    rw [if_neg hne]

theorem sampleLockFormat_loads :
    sampleLockFormat.modelValidateJson sampleOldText = some sampleOldLock.1 ∧
      sampleLockFormat.modelValidateJson sampleNewText = some sampleNewLock.1 := by
  constructor
  · unfold sampleLockFormat
    dsimp only
    rw [if_pos rfl]
  · unfold sampleLockFormat
    dsimp only
    rw [if_neg sampleTexts_ne, if_pos rfl]

theorem sampleLockFormat_reads :
    sampleLockFormat.Reads [sampleOldLock.1, sampleNewLock.1] := by
  have hlength : sampleOldText.length = sampleNewText.length :=
    length_sampleLockText (by decide) (by decide) (by decide)
  have hlonger : ∀ t ∈ [sampleOldText, sampleNewText], ∀ rest : Text,
      rest.getLast? = some '\x7d' → sampleLockFormat.modelValidateJson (t ++ rest) = none := by
    intro t ht rest hrest
    have hrest' : rest.length ≠ 0 := by
      intro hnone
      rw [List.length_eq_zero_iff.mp hnone] at hrest
      cases hrest
    have hne : ∀ t' ∈ [sampleOldText, sampleNewText], t ++ rest ≠ t' := by
      intro t' ht' heq
      have hsum := congrArg List.length heq
      have hsame : t.length = t'.length := by
        simp only [List.mem_cons, List.not_mem_nil, or_false] at ht ht'
        rcases ht with rfl | rfl <;> rcases ht' with rfl | rfl <;> simp [hlength]
      rw [List.length_append] at hsum
      omega
    show (if t ++ rest = sampleOldText then _ else _) = none
    rw [if_neg (hne _ (by simp)), if_neg (hne _ (by simp))]
  obtain ⟨hdumpOld, hdumpNew⟩ := sampleLockFormat_dumps
  obtain ⟨hloadOld, hloadNew⟩ := sampleLockFormat_loads
  refine ⟨fun l hl => ?_, fun l hl => ?_, fun l hl => hlonger _ ?_, by decide⟩
  · simp only [List.mem_cons, List.not_mem_nil, or_false] at hl
    rcases hl with rfl | rfl
    · rw [hdumpOld, hloadOld]
    · rw [hdumpNew, hloadNew]
  · simp only [List.mem_cons, List.not_mem_nil, or_false] at hl
    rcases hl with rfl | rfl
    · rw [hdumpOld]
      exact getLast?_sampleLockText ..
    · rw [hdumpNew]
      exact getLast?_sampleLockText ..
  · simp only [List.mem_cons, List.not_mem_nil, or_false] at hl
    rcases hl with rfl | rfl
    · rw [hdumpOld]
      exact List.mem_cons_self ..
    · rw [hdumpNew]
      exact List.mem_cons_of_mem _ (List.mem_cons_self ..)

/-- A recovery reads the old lock; before it removes the file, the new instance has written its own
    lock into it. -/
def sampleLockUsers : List LockUser :=
  [.recover { clock := ⟨7200000000, some 0⟩, hex := "0" }, .write sampleNewLock]

set_option maxRecDepth 8000 in
/-- The recovery is accounted for, but the file that is gone has the fresh lock. -/
theorem sample_lock_race :
    let P := (Pool.mk (lockFileOf sampleLockFormat (some sampleOldLock.1))
      (sampleLockUsers.map (LockUser.program sampleLockFormat))).exec [0, 0, 0, 1, 1, 0]
    P.state.made = [sampleNewText] ∧ P.state.linked = none ∧
      P.threads.countP (Pool.hasCounted hasRecovered) = 1 := by
  intro P
  have haccount := (lock_recovery_accounted sampleLockFormat sampleLockUsers
    (some sampleOldLock.1) sampleLockFormat_reads [0, 0, 0, 1, 1, 0]).1
  have hmade : P.state.made = [sampleNewText] := by decide
  have hlinked : P.state.linked = none := by decide
  change P.state.made.length = _ + P.state.linked.toList.length at haccount
  rw [hmade, hlinked] at haccount
  exact ⟨hmade, hlinked, haccount.symm⟩

end Vad
