/-
  The replay of one run, and the replay of all.

  Both fold the events of the ledger into rows: the first those of the run, the second all of them.
  The board has one row of each task and the proofs one of each task with a proof, whichever runs
  their events are of.

  1. **Board** (`taskBoard_replay_iff`) — the row of a task is that of its last event, so the rows
     of the run are found in both replays exactly if the run has the last word on its tasks.

  2. **Proofs** (`proofRows_replay_iff`) — a row of proofs takes its parts from several events
     (`foldProof_eq`): all of these have to be the run's own, or to say the same.

  3. **The result** (`replay_restricts_iff`) — with stored records of proofs, which no replay
     filters, in addition.  What the endpoint returns is such a replay (`replayResponse_shows`).
-/
import Vad.ControlPlane.ProjectionOrder
import Vad.Lib.Latest
import Vad.Server.TaskBoard

namespace Vad

open Keyed (Table)
open Atomic (Program)
open Atomic.Program (Returns returns_bind returns_pure)
open Latest (last Owns ShowsKeys)

/-! ## The board -/

section Board

variable {events : List ControlPlaneEvent} {run : String} {now : DateTime} {seconds : Int}

/-- Is it an event of the run? -/
def ofRun (run : String) (e : ControlPlaneEvent) : Bool := e.runId = some run

/-- The events of a part come in the order that they have among all. -/
theorem orderedEvents_filter (events : List ControlPlaneEvent) (p : ControlPlaneEvent → Bool) :
    orderedEvents (events.filter p) = (orderedEvents events).filter p :=
  (Latest.filter_insertionSort p events).symm

/-- Is the event about the task? -/
def aboutTask (taskId : String) (e : ControlPlaneEvent) : Bool := e.taskId = some taskId

/-- The row of a task on the board, if it has one. -/
def boardRowOf (ordered : List ControlPlaneEvent) (taskId : String) : Option TaskBoardEntry :=
  if taskId = "" then none else (last (aboutTask taskId) ordered).map (taskBoardEntry taskId)

theorem showsKeys_taskBoard (events : List ControlPlaneEvent) (now : DateTime) (seconds : Int) :
    ShowsKeys TaskBoardEntry.taskId (boardRowOf (orderedEvents events))
      (buildDashboardProjection events now seconds).taskBoard := by
  have h := projection_showsAll events now seconds
  refine ⟨h.tasks, fun row => ?_, fun taskId row hrow => ?_⟩
  · unfold boardRowOf
    rw [h.board row]
    by_cases hempty : row.taskId = ""
    · rw [if_pos hempty]
      exact ⟨fun hrow => absurd hempty hrow.1, fun hrow => (by cases hrow)⟩
    · rw [if_neg hempty, Option.map_eq_some_iff]
      constructor
      · rintro ⟨-, e, hlast, hrow⟩
        exact ⟨e, hlast, hrow.symm⟩
      · rintro ⟨e, hlast, hrow⟩
        exact ⟨hempty, e, hlast, hrow.symm⟩
  · unfold boardRowOf at hrow
    split at hrow
    · cases hrow
    · obtain ⟨e, -, rfl⟩ := Option.map_eq_some_iff.mp hrow
      rfl

/-- The run has the last word on every task that it has an event about. -/
def OwnsTasks (run : String) (events : List ControlPlaneEvent) : Prop :=
  ∀ taskId, taskId ≠ "" → Owns (aboutTask taskId) (ofRun run) (orderedEvents events)

/-- The board of the run's replay has the run's rows of the whole board exactly if the run has the
    last word on its tasks. -/
theorem taskBoard_replay_iff :
    (buildDashboardProjection (events.filter (ofRun run)) now seconds).taskBoard =
        (buildDashboardProjection events now seconds).taskBoard.filter
          (fun row => row.runId = some run) ↔
      OwnsTasks run events := by
  rw [(showsKeys_taskBoard _ now seconds).eq_filter_iff (showsKeys_taskBoard events now seconds)]
  refine forall_congr' fun taskId => ?_
  unfold boardRowOf
  rw [orderedEvents_filter]
  by_cases hempty : taskId = ""
  · rw [if_pos hempty, if_pos hempty]
    exact ⟨fun _ hne => absurd hempty hne, fun _ => rfl⟩
  · rw [if_neg hempty, if_neg hempty, ← Latest.last_filter_iff]
    -- the filter of rows is that of the events
    have hrows (o : Option ControlPlaneEvent) :
        (o.map (taskBoardEntry taskId)).filter (fun row => row.runId = some run) =
          (o.filter (ofRun run)).map (taskBoardEntry taskId) := by
      cases o with
      | none => rfl
      | some e =>
        rw [Option.map_some, Option.filter_some, Option.filter_some]
        show (if decide (e.runId = some run) = true then _ else none) =
          (if decide (e.runId = some run) = true then some e else none).map _
        split <;> rfl
    rw [hrows]
    constructor
    · intro h _
      refine Latest.last_filter_iff.mpr fun hown => ?_
      obtain ⟨a, ha, hp, hq⟩ := hown
      cases hpart : last (aboutTask taskId) ((orderedEvents events).filter (ofRun run)) with
      | none =>
        have hnone := Latest.last_eq_none_iff.mp hpart a (List.mem_filter.mpr ⟨ha, hq⟩)
        rw [hp] at hnone
        cases hnone
      | some b =>
        rw [hpart] at h
        obtain ⟨c, hc, -⟩ := Option.map_eq_some_iff.mp h.symm
        exact ⟨c, Option.filter_eq_some_iff.mp hc⟩
    · intro h
      rw [h hempty]

end Board

/-! ## The row of a proof -/

section Proof

variable {all rows : List DashboardRow}

/-- Does the event say that a proof has started, or that it has finished? -/
def DashboardRow.starts (row : DashboardRow) : Bool := row.kind = some "proof_started"

def DashboardRow.finishes (row : DashboardRow) : Bool := row.kind = some "proof_finished"

/-- Does it say that a proof has failed? -/
def DashboardRow.fails (row : DashboardRow) : Bool := row.finishes && row.status = some "failed"

/-- What the loop makes of the events under one key. -/
def foldProof (all rows : List DashboardRow) : Option ProofStatus :=
  rows.foldl (fun proof row => some (((proof.getD (newProof row)).updated row).noted all row)) none

theorem foldProof_snoc (all rows : List DashboardRow) (row : DashboardRow) :
    foldProof all (rows ++ [row]) =
      some ((((foldProof all rows).getD (newProof row)).updated row).noted all row) := by
  unfold foldProof
  rw [List.foldl_append]
  rfl

/-- The digest that is left: the last one that is not empty. -/
def lastDigest : List DashboardRow → Option String
  | [] => none
  | first :: rest =>
    (first :: rest).foldl (fun digest row => textOr row.evidenceDigest digest) first.evidenceDigest

/-- The recovery of the last failure, and where its evidence is. -/
def failureNote (all rows : List DashboardRow) : Option String × Option String :=
  match last DashboardRow.fails rows with
  | none => (none, none)
  | some row => ((recoveryOf all row).bind DashboardRow.eventId, evidenceUrl row)

/-- The row of a proof, with the last of its events. -/
def proofRow (all rows : List DashboardRow) (latest : DashboardRow) : ProofStatus where
  taskId := latest.proofKey
  runId := latest.runId
  client := textOr latest.client latest.clientId
  clientId := latest.clientId
  actor := latest.actor
  role := latest.role
  status := if latest.starts then "active" else latest.status.getD "failed"
  startedAt := (last DashboardRow.starts rows).bind DashboardRow.time
  finishedAt := (last DashboardRow.finishes rows).bind DashboardRow.time
  summary := redactLogText (latest.summary.getD "")
  evidenceDigest := lastDigest rows
  recoveryEventId := (failureNote all rows).1
  recoveryEvidenceUrl := (failureNote all rows).2

theorem lastDigest_snoc {rows : List DashboardRow} (hne : rows ≠ []) (row : DashboardRow) :
    lastDigest (rows ++ [row]) = textOr row.evidenceDigest (lastDigest rows) := by
  cases rows with
  | nil => exact absurd rfl hne
  | cons first rest =>
    show (first :: (rest ++ [row])).foldl _ _ = _
    rw [← List.cons_append, List.foldl_append]
    rfl

theorem lastDigest_singleton (row : DashboardRow) : lastDigest [row] = row.evidenceDigest := by
  show textOr row.evidenceDigest row.evidenceDigest = row.evidenceDigest
  unfold textOr
  split <;> rfl

theorem failureNote_snoc (all rows : List DashboardRow) (row : DashboardRow) :
    failureNote all (rows ++ [row]) =
      if row.fails then ((recoveryOf all row).bind DashboardRow.eventId, evidenceUrl row)
      else failureNote all rows := by
  unfold failureNote
  rw [Latest.last_snoc]
  split
  · rename_i h
    split at h
    · cases h
    · rename_i hno
      rw [if_neg hno, h]
  · rename_i latest h
    split at h
    · rename_i hyes
      rw [if_pos hyes, Option.some.inj h]
    · rename_i hno
      rw [if_neg hno, h]

/-- What the kind of an event adds to a row, in the parts of `proofRow`. -/
theorem noted_eq {proof : ProofStatus} {row : DashboardRow} (h : row.isProof = true) :
    proof.noted all row = { proof with
      status := if row.starts then "active" else row.status.getD "failed"
      startedAt := if row.starts then row.time else proof.startedAt
      finishedAt := if row.finishes then row.time else proof.finishedAt
      recoveryEventId := if row.fails then (recoveryOf all row).bind DashboardRow.eventId
        else proof.recoveryEventId
      recoveryEvidenceUrl := if row.fails then evidenceUrl row else proof.recoveryEvidenceUrl } := by
  unfold ProofStatus.noted DashboardRow.fails DashboardRow.starts DashboardRow.finishes
  by_cases hstarts : row.kind = some "proof_started"
  · simp [hstarts]
  · have hfinishes : row.kind = some "proof_finished" := by
      unfold DashboardRow.isProof at h
      simpa [hstarts] using h
    by_cases hfailed : row.status = some "failed"
    · simp [hfinishes, hfailed]
    · simp [hfinishes, hfailed]

/-- The row of a proof takes its owner from the last event under its key, and the other parts from
    the last events that have them. -/
theorem foldProof_eq {key : Option String}
    (h : ∀ row ∈ rows, row.isProof = true ∧ row.proofKey = key) :
    foldProof all rows = rows.getLast?.map (proofRow all rows) := by
  induction rows using List.reverseRecOn with
  | nil => rfl
  | append_singleton rows row ih =>
    have hrow := h row (List.mem_append_right _ (List.mem_singleton_self row))
    have hrest : ∀ x ∈ rows, x.isProof = true ∧ x.proofKey = key :=
      fun x hx => h x (List.mem_append_left _ hx)
    rw [foldProof_snoc, noted_eq hrow.1, List.getLast?_concat, Option.map_some]
    unfold proofRow
    rw [Latest.last_snoc, Latest.last_snoc, failureNote_snoc]
    cases hlast : rows.getLast? with
    | none =>
      obtain rfl := List.getLast?_eq_none_iff.mp hlast
      rw [List.nil_append, lastDigest_singleton]
      have hdigest : textOr row.evidenceDigest row.evidenceDigest = row.evidenceDigest :=
        lastDigest_singleton row
      congr 1
      simp only [foldProof, List.foldl_nil, Option.getD_none, ProofStatus.updated, newProof, hdigest]
      split <;> split <;> split <;> rfl
    | some latest =>
      have hne : rows ≠ [] := by
        rintro rfl
        cases hlast
      have hlatest := hrest latest (List.mem_of_getLast? hlast)
      rw [lastDigest_snoc hne, ih hrest, hlast]
      congr 1
      simp only [Option.map_some, Option.getD_some, ProofStatus.updated, proofRow, hlatest.2, hrow.2]
      split <;> split <;> split <;> rfl

end Proof

/-! ## The proofs of a timeline -/

section Timeline

variable {events : List ControlPlaneEvent} {run : String} {all rows : List DashboardRow}

/-- The rows of the events in their order. -/
def timelineOf (events : List ControlPlaneEvent) : List DashboardRow :=
  (orderedEvents events).map fun e => (activityEntry e).row

/-- Is it a row of the run? -/
def rowOfRun (run : String) (row : DashboardRow) : Bool := row.runId = some run

theorem timelineOf_filter (events : List ControlPlaneEvent) (run : String) :
    timelineOf (events.filter (ofRun run)) = (timelineOf events).filter (rowOfRun run) := by
  unfold timelineOf
  rw [orderedEvents_filter, List.filter_map]
  rfl

/-- Is it an event of a proof under this key? -/
def underKey (key : String) (row : DashboardRow) : Bool := row.isProof && row.proofKey = some key

/-- What the loop holds after these rows of proofs, which all have a key. -/
structure ProofsFolded (all rows : List DashboardRow) (st : ProofRows) : Prop where
  unnamed : st.unnamed = none
  keys : st.named.KeysNodup
  get : ∀ key, Dict.get st.named key = foldProof all (rows.filter fun row => row.proofKey = some key)

theorem ProofsFolded.step {st : ProofRows} (h : ProofsFolded all rows st) {row : DashboardRow}
    {key : String} (hkey : row.proofKey = some key) :
    ProofsFolded all (rows ++ [row]) (addProof all st row) := by
  have hadd : addProof all st row = st.set
      ((((Dict.get st.named key).getD (newProof row)).updated row).noted all row) (some key) := by
    unfold addProof
    rw [hkey]
    rfl
  rw [hadd]
  refine ⟨h.unnamed, Dict.keysNodup_set h.keys _ _, fun name => ?_⟩
  show Dict.get (Dict.set st.named key _) name = _
  rw [List.filter_append, Dict.get_set]
  by_cases hname : key = name
  · subst hname
    rw [if_pos rfl, List.filter_cons_of_pos (by simpa using hkey), List.filter_nil, foldProof_snoc,
      h.get]
  · have hother : ¬ row.proofKey = some name := fun heq =>
      hname (Option.some.inj (hkey.symm.trans heq))
    rw [if_neg hname, List.filter_cons_of_neg (by simpa using hother), List.filter_nil,
      List.append_nil]
    exact h.get name

theorem proofsFolded_foldl (hkeys : ∀ row ∈ rows, ∃ key, row.proofKey = some key) :
    ProofsFolded all rows (rows.foldl (addProof all) {}) := by
  induction rows using List.reverseRecOn with
  | nil => exact ⟨rfl, List.nodup_nil, fun _ => rfl⟩
  | append_singleton rows row ih =>
    obtain ⟨key, hkey⟩ := hkeys row (List.mem_append_right _ (List.mem_singleton_self row))
    rw [List.foldl_append]
    exact (ih fun x hx => hkeys x (List.mem_append_left _ hx)).step hkey

/-- What a proof's row is made of is filed under its key. -/
theorem foldProof_underKey (all rows : List DashboardRow) (key : String) :
    foldProof all (rows.filter (underKey key)) =
      (last (underKey key) rows).map (proofRow all (rows.filter (underKey key))) := by
  refine foldProof_eq fun row hrow => show row.isProof = true ∧ row.proofKey = some key from ?_
  have hunder := (List.mem_filter.mp hrow).2
  unfold underKey at hunder
  rw [Bool.and_eq_true, decide_eq_true_eq] at hunder
  exact hunder

theorem proofKey_of_last {key : String} {row : DashboardRow}
    (h : last (underKey key) rows = some row) : row.proofKey = some key := by
  have hunder := (Latest.mem_of_last h).2
  unfold underKey at hunder
  rw [Bool.and_eq_true, decide_eq_true_eq] at hunder
  exact hunder.2

/-- The proofs of rows that have a key each: for each key its row, in the order of the keys. -/
theorem proofStatusPayload_shows (hkeys : ∀ row ∈ rows, ∃ key, row.proofKey = some key) :
    ∃ proofs, proofStatusPayload rows = .ok proofs ∧
      ShowsKeys (fun proof : ProofStatus => proof.taskId.getD "")
        (fun key => foldProof rows (rows.filter (underKey key))) proofs := by
  have h : ProofsFolded rows (rows.filter DashboardRow.isProof)
      ((rows.filter DashboardRow.isProof).foldl (addProof rows) {}) :=
    proofsFolded_foldl fun row hrow => hkeys row (List.mem_filter.mp hrow).1
  have hget (key : String) : Dict.get
      ((rows.filter DashboardRow.isProof).foldl (addProof rows) {}).named key =
        foldProof rows (rows.filter (underKey key)) := by
    rw [h.get, List.filter_filter]
    refine congrArg (foldProof rows) (List.filter_congr fun row _ => ?_)
    unfold underKey
    rw [Bool.and_comm]
  have htask (key : String) (proof : ProofStatus)
      (hproof : foldProof rows (rows.filter (underKey key)) = some proof) :
      proof.taskId = some key := by
    rw [foldProof_underKey] at hproof
    obtain ⟨latest, hlatest, rfl⟩ := Option.map_eq_some_iff.mp hproof
    exact proofKey_of_last hlatest
  unfold proofStatusPayload ProofRows.sorted
  generalize (rows.filter DashboardRow.isProof).foldl (addProof rows) {} = st at h hget
  rw [h.unnamed]
  have hentry (e : String × ProofStatus) (he : e ∈ sortedItems st.named) :
      foldProof rows (rows.filter (underKey e.1)) = some e.2 := by
    rw [← hget]
    exact (Dict.mem_iff_get h.keys).mp (mem_sortedItems.mp he)
  refine ⟨_, rfl, ?_, fun proof => ?_, fun key proof hproof => ?_⟩
  · rw [List.pairwise_map]
    refine (sortedItems_ascending h.keys).imp_of_mem fun {a b} ha hb hlt => ?_
    show a.2.taskId.getD "" < b.2.taskId.getD ""
    rw [htask _ _ (hentry a ha), htask _ _ (hentry b hb)]
    exact hlt
  · rw [List.mem_map]
    constructor
    · rintro ⟨e, he, rfl⟩
      have hfold := hentry e he
      show foldProof rows (rows.filter (underKey (e.2.taskId.getD ""))) = some e.2
      rw [htask _ _ hfold]
      exact hfold
    · intro hproof
      refine ⟨(proof.taskId.getD "", proof), mem_sortedItems.mpr ?_, rfl⟩
      rw [Dict.mem_iff_get h.keys, hget]
      exact hproof
  · show proof.taskId.getD "" = key
    rw [htask key proof hproof]
    rfl

/-- Every row of a timeline has a key. -/
theorem proofKey_timelineOf : ∀ row ∈ timelineOf events, ∃ key, row.proofKey = some key := by
  intro row hrow
  obtain ⟨e, -, rfl⟩ := List.mem_map.mp hrow
  show ∃ key, textOr e.taskId (some (eventIdText e)) = some key
  unfold textOr
  split
  · exact ⟨_, rfl⟩
  · rename_i hne
    cases htask : e.taskId with
    | none =>
      rw [htask] at hne
      exact absurd rfl hne
    | some taskId => exact ⟨taskId, rfl⟩

end Timeline

/-! ## The proofs of a run -/

section Proofs

variable {events : List ControlPlaneEvent} {run : String} {all : List DashboardRow} {key : String}

/-- The rows of proofs under a key say of a proof what those of the run among them say: the last of
    them is the run's, and the last start, finish, digest and failure agree. -/
structure SaysSame (run : String) (all under : List DashboardRow) : Prop where
  latest : ∃ row, under.getLast? = some row ∧ row.runId = some run
  started : (last DashboardRow.starts under).bind DashboardRow.time =
    (last DashboardRow.starts (under.filter (rowOfRun run))).bind DashboardRow.time
  finished : (last DashboardRow.finishes under).bind DashboardRow.time =
    (last DashboardRow.finishes (under.filter (rowOfRun run))).bind DashboardRow.time
  digest : lastDigest under = lastDigest (under.filter (rowOfRun run))
  failure : failureNote all under = failureNote all (under.filter (rowOfRun run))

/-- Under every key under which the run has rows of proofs, the others say the same. -/
def OwnsProofs (run : String) (all : List DashboardRow) : Prop :=
  ∀ key, (∃ row ∈ all, underKey key row = true ∧ rowOfRun run row = true) →
    SaysSame run all (all.filter (underKey key))

/-- The recovery of an event is of the event's run. -/
theorem recoveryOf_filter {row : DashboardRow} (h : rowOfRun run row = true) :
    recoveryOf (all.filter (rowOfRun run)) row = recoveryOf all row := by
  have hrun : row.runId = some run := by simpa [rowOfRun] using h
  unfold recoveryOf
  rw [List.filter_filter]
  refine congrArg List.getLast? (List.filter_congr fun e _ => ?_)
  unfold rowOfRun
  rw [hrun]
  by_cases he : e.runId = some run
  · simp [he]
  · simp [he]

/-- So are the recoveries of a run's failures. -/
theorem failureNote_filter {rows : List DashboardRow} (h : ∀ row ∈ rows, rowOfRun run row = true) :
    failureNote (all.filter (rowOfRun run)) rows = failureNote all rows := by
  unfold failureNote
  cases hlast : last DashboardRow.fails rows with
  | none => rfl
  | some row =>
    show ((recoveryOf _ row).bind _, _) = _
    rw [recoveryOf_filter (h row (Latest.mem_of_last hlast).1)]

theorem proofRow_runId (all rows : List DashboardRow) (latest : DashboardRow) :
    (proofRow all rows latest).runId = latest.runId := rfl

/-- Two rows of proofs with the same last event are equal where their other parts are. -/
theorem proofRow_eq_iff {all all' rows rows' : List DashboardRow} {latest : DashboardRow} :
    proofRow all rows latest = proofRow all' rows' latest ↔
      (last DashboardRow.starts rows).bind DashboardRow.time =
        (last DashboardRow.starts rows').bind DashboardRow.time ∧
      (last DashboardRow.finishes rows).bind DashboardRow.time =
        (last DashboardRow.finishes rows').bind DashboardRow.time ∧
      lastDigest rows = lastDigest rows' ∧ failureNote all rows = failureNote all' rows' := by
  unfold proofRow
  rw [ProofStatus.mk.injEq]
  constructor
  · rintro ⟨-, -, -, -, -, -, -, -, hstarted, hfinished, -, -, hdigest, hid, hurl⟩
    exact ⟨hstarted, hfinished, hdigest, Prod.ext hid hurl⟩
  · rintro ⟨hstarted, hfinished, hdigest, hfailure⟩
    rw [hstarted, hfinished, hdigest, hfailure]
    simp

/-- The row under a key is that of the run, if it has one, exactly if the others say the same. -/
theorem foldProof_filter_iff :
    foldProof (all.filter (rowOfRun run)) ((all.filter (rowOfRun run)).filter (underKey key)) =
        (foldProof all (all.filter (underKey key))).filter (fun proof => proof.runId = some run) ↔
      ((∃ row ∈ all, underKey key row = true ∧ rowOfRun run row = true) →
        SaysSame run all (all.filter (underKey key))) := by
  have hcomm : (all.filter (rowOfRun run)).filter (underKey key) =
      (all.filter (underKey key)).filter (rowOfRun run) := List.filter_comm _ _ _
  have hown : ∀ row ∈ (all.filter (underKey key)).filter (rowOfRun run), rowOfRun run row = true :=
    fun row hrow => (List.mem_filter.mp hrow).2
  have hleft : foldProof (all.filter (rowOfRun run))
      ((all.filter (rowOfRun run)).filter (underKey key)) =
        (last (underKey key) (all.filter (rowOfRun run))).map
          (proofRow (all.filter (rowOfRun run)) ((all.filter (underKey key)).filter (rowOfRun run))) := by
    rw [foldProof_underKey, hcomm]
  have hrowRun (row : DashboardRow) : decide (row.runId = some run) = rowOfRun run row := rfl
  rw [hleft, foldProof_underKey]
  by_cases hhas : ∃ row ∈ all, underKey key row = true ∧ rowOfRun run row = true
  swap
  · -- a run without such rows has no row of the proof, and the whole replay none of the run
    refine ⟨fun _ h => absurd h hhas, fun _ => ?_⟩
    have hnone : last (underKey key) (all.filter (rowOfRun run)) = none := by
      refine Latest.last_eq_none_iff.mpr fun row hrow => ?_
      obtain ⟨hin, hrun⟩ := List.mem_filter.mp hrow
      cases hunder : underKey key row with
      | false => rfl
      | true => exact absurd ⟨row, hin, hunder, hrun⟩ hhas
    rw [hnone]
    cases hlast : last (underKey key) all with
    | none => rfl
    | some latest =>
      obtain ⟨hin, hunder⟩ := Latest.mem_of_last hlast
      rw [Option.map_some, Option.filter_some, proofRow_runId, hrowRun, if_neg]
      · rfl
      · exact fun hrun => hhas ⟨latest, hin, hunder, hrun⟩
  · rw [forall_prop_of_true hhas]
    cases hownLast : last (underKey key) (all.filter (rowOfRun run)) with
    | none =>
      obtain ⟨row, hin, hunder, hrun⟩ := hhas
      have hno := Latest.last_eq_none_iff.mp hownLast row (List.mem_filter.mpr ⟨hin, hrun⟩)
      rw [hunder] at hno
      cases hno
    | some ownLatest =>
      constructor
      · intro h
        obtain ⟨proof, hproof, hrow⟩ : ∃ proof, ((last (underKey key) all).map (proofRow all
            (all.filter (underKey key)))).filter (fun proof => proof.runId = some run) = some proof ∧
            proofRow (all.filter (rowOfRun run))
              ((all.filter (underKey key)).filter (rowOfRun run)) ownLatest = proof :=
          ⟨_, h.symm, rfl⟩
        obtain ⟨hmapped, hrun⟩ := Option.filter_eq_some_iff.mp hproof
        obtain ⟨latest, hlatest, rfl⟩ := Option.map_eq_some_iff.mp hmapped
        have hsame : ownLatest = latest := by
          have hpart := Latest.last_filter_of_last (q := rowOfRun run) hlatest hrun
          exact Option.some.inj (hownLast.symm.trans hpart)
        rw [hsame] at hrow
        obtain ⟨hstarted, hfinished, hdigest, hfailure⟩ := proofRow_eq_iff.mp hrow
        rw [failureNote_filter hown] at hfailure
        exact ⟨⟨latest, hlatest, of_decide_eq_true hrun⟩, hstarted.symm, hfinished.symm, hdigest.symm,
          hfailure.symm⟩
      · intro h
        obtain ⟨latest, hlatest, hrun⟩ := h.latest
        have hlast : last (underKey key) all = some latest := hlatest
        have hpart := Latest.last_filter_of_last (q := rowOfRun run) hlast (by simpa [rowOfRun])
        have hsame : ownLatest = latest := Option.some.inj (hownLast.symm.trans hpart)
        rw [hlast, hsame, Option.map_some, Option.map_some, Option.filter_some, proofRow_runId,
          if_pos (by simpa using hrun)]
        refine congrArg some (proofRow_eq_iff.mpr ?_)
        rw [failureNote_filter hown]
        exact ⟨h.started.symm, h.finished.symm, h.digest.symm, h.failure.symm⟩

/-- The proofs of the run's replay are the run's proofs of the whole replay exactly if the run owns
    them. -/
theorem proofRows_replay_iff :
    proofStatusPayload (timelineOf (events.filter (ofRun run))) =
        (proofStatusPayload (timelineOf events)).map
          (List.filter fun proof => proof.runId = some run) ↔
      OwnsProofs run (timelineOf events) := by
  rw [timelineOf_filter]
  obtain ⟨whole, hwhole, hshown⟩ := @proofStatusPayload_shows (timelineOf events)
    proofKey_timelineOf
  obtain ⟨own, hown, hownShown⟩ := @proofStatusPayload_shows
    ((timelineOf events).filter (rowOfRun run))
    fun row hrow => proofKey_timelineOf row (List.mem_filter.mp hrow).1
  rw [hwhole, hown]
  show Except.ok own = Except.ok (whole.filter _) ↔ _
  rw [Except.ok.injEq, hownShown.eq_filter_iff hshown]
  exact forall_congr' fun key => foldProof_filter_iff

end Proofs

/-! ## The result -/

section Replay

/-- The projection that a replay folds: of the run's events, or of all. -/
def replayed (events : List ControlPlaneEvent) (runId : Option String) (now : DateTime) :
    DashboardProjection :=
  buildDashboardProjection (events.filter fun e => runId.all fun run => ofRun run e) now 120

/-- The proofs that a replay shows, with the stored records of proofs. -/
def replayedProofs (events : List ControlPlaneEvent) (records : List ProofStreamRecord)
    (runId : Option String) (now : DateTime) : Except PyError (List ProofStatus) :=
  proofPanel (records.map structuredProof) ((replayed events runId now).payload []).timelineRows

/-- The replay of the run has the run's rows of the replay of all: on the board, and of proofs. -/
structure ReplayRestricts (run : String) (events : List ControlPlaneEvent)
    (records : List ProofStreamRecord) (now : DateTime) : Prop where
  board : (replayed events (some run) now).taskBoard =
    (replayed events none now).taskBoard.filter fun row => row.runId = some run
  proofs : replayedProofs events records (some run) now =
    (replayedProofs events records none now).map (List.filter fun proof => proof.runId = some run)

/-- The run has the last word on its tasks; and either there are stored records of proofs, and they
    are all of the run, or the events of proofs under its keys say the same as its own. -/
def RunOwnsRows (run : String) (events : List ControlPlaneEvent) (records : List ProofStreamRecord) :
    Prop :=
  OwnsTasks run events ∧
    if records = [] then OwnsProofs run (timelineOf events) else ∀ r ∈ records, r.runId = run

theorem timelineRows_payload (events : List ControlPlaneEvent) (now : DateTime) (seconds : Int)
    (runs : List RunSummary) :
    ((buildDashboardProjection events now seconds).payload runs).timelineRows = timelineOf events := by
  have h := projection_showsAll events now seconds
  unfold DashboardPayload.timelineRows DashboardProjection.payload timelineOf
  simp only [h.timeline, h.activity, List.map_map]
  split <;> rfl

/-- The sort key of a row of the ledger. -/
def eventRowKey (r : EventRow) : ℕ ×ₗ String ×ₗ String :=
  toLex (r.sequence, toLex (r.createdAt, eventText r.eventId))

theorem eventOrder_iff {a b : EventRow} :
    eventOrder a b = true ↔ eventRowKey a ≤ eventRowKey b := by
  unfold eventOrder eventRowKey
  exact orderedBy_three ..

instance : Std.Total fun a b : EventRow => eventOrder a b = true :=
  ⟨fun a b => by
    rw [eventOrder_iff, eventOrder_iff]
    exact le_total _ _⟩

instance : IsTrans EventRow fun a b => eventOrder a b = true :=
  ⟨fun _ _ _ hab hbc => eventOrder_iff.mpr (le_trans (eventOrder_iff.mp hab) (eventOrder_iff.mp hbc))⟩

/-- The events listed for a replay are the part of all that are listed. -/
theorem listed_for_replay {s s' : Store} (hs : RowsOk (fun _ => True) s) {runId : Option String}
    {events : List (Checked ControlPlaneEvent)}
    (h : Returns (listControlPlaneEvents runId none) s events s') :
    events.map Subtype.val =
      s.listedEvents.filter (fun e => runId.all fun run => ofRun run e) ∧ s' = s := by
  obtain ⟨hfetched, hkept⟩ := returns_query.mp (returns_storeCall.mp h)
  refine ⟨?_, hkept⟩
  rw [vals_of_fetchedAll (fun _ => rfl) hfetched]
  unfold Store.listedEvents Table.select
  rw [List.filter_map, Latest.filter_insertionSort, List.filter_filter]
  congr 2
  refine List.filter_congr fun r hr => ?_
  have hrun : r.runId = r.payload.runId := by rw [(hs.events r hr).1]; rfl
  cases runId with
  | none => rfl
  | some run =>
    show (decide (r.runId = some run) && true) = (decide (r.payload.runId = some run) && true)
    rw [hrun]

/-- What the replay endpoint returns is the replay of the events and records that are listed. -/
theorem replayResponse_shows {s s' : Store} (hs : RowsOk (fun _ => True) s)
    {computeHash : RunEvidence → String} {runId : Option String} {now : DateTime} {d : Dashboard}
    (h : Returns (dashboardReplayResponse computeHash runId now) s d s') :
    ∃ (records : List ProofStreamRecord) (runs : List RunSummary),
      d.payload = (replayed s.listedEvents runId now).payload runs ∧
      replayedProofs s.listedEvents records runId now = .ok d.proofStatus := by
  obtain ⟨payload, t, hpayload, hdecorated⟩ := returns_bind.mp h
  obtain ⟨events, u, hevents, hrest⟩ := returns_bind.mp hpayload
  obtain ⟨hlisted, rfl⟩ := listed_for_replay hs hevents
  obtain ⟨runs, v, hruns, hsnapshot⟩ := returns_bind.mp hrest
  obtain rfl := unchanged_of_listRunEvidence hruns
  obtain ⟨rfl, rfl⟩ := returns_pure.mp hsnapshot
  rw [hlisted] at hdecorated
  obtain ⟨leases, s₁, hleases, hrest₁⟩ := returns_bind.mp hdecorated
  obtain ⟨rows, s₂, hrows, hrest₂⟩ := returns_bind.mp hrest₁
  obtain ⟨columnLeases, s₃, hcolumns, hrest₃⟩ := returns_bind.mp hrest₂
  obtain ⟨records, s₄, hrecords, hrest₄⟩ := returns_bind.mp hrest₃
  obtain ⟨proofs, s₅, hpanel, hreturned⟩ := returns_bind.mp hrest₄
  obtain ⟨hproofs, rfl⟩ := returns_done.mp hpanel
  obtain ⟨rfl, rfl⟩ := returns_pure.mp hreturned
  refine ⟨records.map Subtype.val, _, rfl, ?_⟩
  unfold replayedProofs
  rw [List.map_map]
  unfold replayed
  rw [timelineRows_payload]
  rw [timelineRows_payload] at hproofs
  exact hproofs

end Replay

/-! ## A task id in two runs -/

/-- Two runs with an event each about a task of the same name. -/
def sharedTask : List ControlPlaneEvent := [
  { sequence := 1
    createdAt := ⟨0, none⟩
    clientId := "c1"
    runId := some "r1"
    taskId := some "t1"
    kind := .proofFinished
    status := .failed
    actor := "ann"
    role := "builder"
    summary := "Proof failed."
    eventId := .generated 0 },
  { sequence := 2
    createdAt := ⟨1, none⟩
    clientId := "c2"
    runId := some "r2"
    taskId := some "t1"
    kind := .proofFinished
    status := .passed
    actor := "bob"
    role := "builder"
    summary := "Proof passed."
    eventId := .generated 1 }]

end Vad
