/-
  The events of a tool call (`vad/adapters/mcp.py`, `McpToolCallRecorder`).

  1. A call decides first and records as it goes: what it is to record after its started event, and
     what it is to answer, is a function of its arguments and of the handler's outcome (`callPlan`,
     `handleToolCall_eq`).
  2. Recording stops at the first event that the ledger refuses (`run_recordAll`).
  3. The closing event is the last of a plan, and a plan that raises has none (`callPlan_cases`).
     So a call is balanced exactly if nothing raises on the way (`toolCall_balanced_iff`).
-/
import Vad.Adapters.Mcp
import Vad.Server.Effects

namespace Vad

open Atomic (Program)
open Atomic.Program (bind_bind bind_done_unit run_bind)

/-! ## Records -/

/-- An event of a call before the recorder numbers it. -/
structure ToolRecord where
  status : ControlPlaneEventStatus
  digest : Json := .null
  summary : String

def startedRecord (env : McpEnv) (toolName : String) (args : Dict Json) : ToolRecord where
  status := .active
  summary := "MCP tool " ++ toolName ++ " started with args " ++ argsSummary env args ++ "."

def deniedRecord (toolName reason : String) : ToolRecord where
  status := .blocked
  summary := "MCP tool " ++ toolName ++ " denied: " ++ reason ++ "."

def finishedRecord (toolName : String) (result : Dict Json) : ToolRecord where
  status := if isErrorResult result then .failed else .passed
  digest := resultDigest result
  summary := "MCP tool " ++ toolName ++ " " ++
    (if isErrorResult result then "failed" else "finished") ++ "; evidence_digest=" ++
      orDefault (optionalTextOf (resultDigest result)) "none" ++ "."

/-- The envelope under which a record is ingested. -/
def ToolRecord.event (record : ToolRecord) (r : McpToolCallRecorder) (now : DateTime)
    (sequence : Nat) : EventFields :=
  toolCallEvent r record.status (optionalTextOf record.digest) record.summary now sequence

/-- Does the ledger take the record under this number?  The digest is missing or a text, the
    envelope passes its checks, and SQLite can hold the number. -/
def ToolRecord.accepted (record : ToolRecord) (r : McpToolCallRecorder) (now : DateTime)
    (sequence : Nat) : Prop :=
  optionalField (fun _ => true) record.digest = true ∧ (record.event r now sequence).ok = true ∧
    sequence < 2 ^ 63

/-- Are the records all taken, after `count` events? -/
def AllAccepted (r : McpToolCallRecorder) (now : DateTime) : Nat → List ToolRecord → Prop
  | _, [] => True
  | count, record :: rest =>
    record.accepted r now (count + 1) ∧ AllAccepted r now (count + 1) rest

/-- `_emit` for a record. -/
def ToolRecord.emit (record : ToolRecord) (r : McpToolCallRecorder) (now : DateTime) : Db Unit :=
  match record.digest with
  | .null => do
    let _ ← Vad.emit r record.status none record.summary now
    pure ()
  | .text digest => do
    let _ ← Vad.emit r record.status (some digest) record.summary now
    pure ()
  | _ => do
    let _ ← listControlPlaneEvents
    Program.raise (.validationError "ControlPlaneEvent" ["evidence_digest"])

def recordAll (r : McpToolCallRecorder) (now : DateTime) : List ToolRecord → Db Unit
  | [] => pure ()
  | record :: rest => do
    record.emit r now
    recordAll r now rest

theorem recordResult_eq (r : McpToolCallRecorder) (toolName : String) (result : Dict Json)
    (now : DateTime) : recordResult r toolName result now = (finishedRecord toolName result).emit r now := by
  unfold recordResult ToolRecord.emit
  simp only [finishedRecord]
  cases resultDigest result <;> rfl

/-! ### Recording one event -/

section Recording

variable {s : Store} (r : McpToolCallRecorder) (now : DateTime)

/-- The kinds of tool calls ask for no role. -/
theorem toolCallEvent_allowed (status : ControlPlaneEventStatus) (digest : Option String)
    (summary : String) (sequence : Nat) :
    (ingestionDecision (toolCallEvent r status digest summary now sequence)).allow = true := by
  cases status <;> rfl

/-- An event of a call is appended under the next number, or refused. -/
theorem run_emit (hs : s.ledgerLists) (status : ControlPlaneEventStatus) (digest : Option String)
    (summary : String) :
    let e := toolCallEvent r status digest summary now (s.eventCount + 1)
    (e.ok = true ∧ s.eventCount + 1 < 2 ^ 63 ∧
      ∃ ev, (Vad.emit r status digest summary now).run s = (.ok ev, s.putEvent e)) ∨
    (¬ (e.ok = true ∧ s.eventCount + 1 < 2 ^ 63) ∧
      ∃ x, (Vad.emit r status digest summary now).run s = (.error x, s)) := by
  obtain ⟨events, hevents⟩ := ledgerLists_iff.mp hs
  have hcount := length_of_fetchedAll hevents
  have hlist : (listControlPlaneEvents none none).run s = (.ok events, s) :=
    returns_listControlPlaneEvents.mpr ⟨hevents, rfl⟩
  intro e
  have hrun : (Vad.emit r status digest summary now).run s =
      (do let result ← ingest e none now; pure result.event : Db _).run s := by
    unfold Vad.emit
    rw [run_bind, hlist]
    simp only [hcount]
    rfl
  have hingest : ingest e none now = (do
      let event ← appendNumbered e
      pure { statusCode := 201, event := event, decision := ingestionDecision e }) := by
    have hallow : (ingestionDecision e).allow = true := toolCallEvent_allowed ..
    unfold ingest
    simp only [hallow, Bool.or_true, if_true]
    rfl
  rw [hrun, hingest]
  unfold appendNumbered
  by_cases hok : e.ok = true
  · rw [dif_pos hok]
    by_cases hroom : e.sequence < 2 ^ 63
    · rw [if_pos hroom]
      exact Or.inl ⟨hok, hroom, _, rfl⟩
    · rw [if_neg hroom]
      exact Or.inr ⟨fun h => hroom h.2, _, rfl⟩
  · rw [dif_neg hok]
    exact Or.inr ⟨fun h => hok h.1, _, rfl⟩

theorem emit_of_text {record : ToolRecord}
    (h : optionalField (fun _ => true) record.digest = true) :
    record.emit r now = (do
      let _ ← Vad.emit r record.status (optionalTextOf record.digest) record.summary now
      pure ()) := by
  obtain ⟨status, digest, summary⟩ := record
  cases digest with
  | null => rfl
  | text d => rfl
  | bool _ => cases h
  | number _ => cases h
  | array _ => cases h
  | object _ => cases h

theorem emit_of_no_text {record : ToolRecord}
    (h : ¬ optionalField (fun _ => true) record.digest = true) :
    record.emit r now = (do
      let _ ← listControlPlaneEvents
      Program.raise (.validationError "ControlPlaneEvent" ["evidence_digest"])) := by
  obtain ⟨status, digest, summary⟩ := record
  cases digest with
  | null => exact absurd rfl h
  | text d => exact absurd rfl h
  | bool _ => rfl
  | number _ => rfl
  | array _ => rfl
  | object _ => rfl

/-- A record is appended if it is accepted, and refused without a trace if it is not. -/
theorem run_record (hs : s.ledgerLists) (record : ToolRecord) :
    (record.accepted r now (s.eventCount + 1) ∧ (record.emit r now).run s =
      (.ok (), s.putEvent (record.event r now (s.eventCount + 1)))) ∨
    (¬ record.accepted r now (s.eventCount + 1) ∧
      ∃ x, (record.emit r now).run s = (.error x, s)) := by
  by_cases hdigest : optionalField (fun _ => true) record.digest = true
  · have heq := emit_of_text r now hdigest
    rcases run_emit r now hs record.status (optionalTextOf record.digest) record.summary with
      ⟨hok, hroom, ev, hrun⟩ | ⟨hno, x, hrun⟩
    · exact Or.inl ⟨⟨hdigest, hok, hroom⟩, by rw [heq, run_bind, hrun]; rfl⟩
    · exact Or.inr ⟨fun h => hno h.2, x, by rw [heq, run_bind, hrun]⟩
  · obtain ⟨events, hevents⟩ := ledgerLists_iff.mp hs
    have hlist : (listControlPlaneEvents none none).run s = (.ok events, s) :=
      returns_listControlPlaneEvents.mpr ⟨hevents, rfl⟩
    refine Or.inr ⟨fun h => hdigest h.1, .validationError "ControlPlaneEvent" ["evidence_digest"], ?_⟩
    rw [emit_of_no_text r now hdigest, run_bind, hlist]
    rfl

/-- The store after the records of a list, all taken. -/
def Store.putRecords (s : Store) : List ToolRecord → Store
  | [] => s
  | record :: rest => (s.putEvent (record.event r now (s.eventCount + 1))).putRecords rest

theorem ledgerLists_putEvent (hs : s.ledgerLists) {e : EventFields} (he : e.ok = true) :
    (s.putEvent e).ledgerLists := by
  intro row hrow
  rw [Store.putEvent_rows, List.mem_append, List.mem_singleton] at hrow
  rcases hrow with hrow | rfl
  · exact hs row hrow
  · exact (valid_generated_iff e _).mpr he

/-- Recording takes the records in order and stops before the first that is refused. -/
theorem run_recordAll : ∀ (records : List ToolRecord) {s : Store}, s.ledgerLists →
    ∃ taken rest, records = taken ++ rest ∧ AllAccepted r now s.eventCount taken ∧
      ((recordAll r now records).run s).2 = s.putRecords r now taken ∧
      ((rest = [] ∧ ((recordAll r now records).run s).1 = .ok ()) ∨
        (rest ≠ [] ∧ ¬ AllAccepted r now s.eventCount records ∧
          ∃ x, ((recordAll r now records).run s).1 = .error x)) := by
  intro records
  induction records with
  | nil => exact fun _ => ⟨[], [], rfl, trivial, rfl, Or.inl ⟨rfl, rfl⟩⟩
  | cons record rest ih =>
    intro s hs
    rcases run_record r now hs record with ⟨haccepted, hrun⟩ | ⟨hrefused, x, hrun⟩
    · have hs' := ledgerLists_putEvent hs haccepted.2.1
      obtain ⟨taken, left, heq, hall, hstore, hend⟩ := ih hs'
      rw [eventCount_putEvent] at hall hend
      have hstep : (recordAll r now (record :: rest)).run s =
          (recordAll r now rest).run (s.putEvent (record.event r now (s.eventCount + 1))) := by
        show Program.run (record.emit r now >>= fun _ => recordAll r now rest) s = _
        rw [run_bind, hrun]
      rw [hstep]
      refine ⟨record :: taken, left, by rw [heq]; rfl, ⟨haccepted, hall⟩, hstore, ?_⟩
      rcases hend with hdone | ⟨hleft, hno, hraise⟩
      · exact Or.inl hdone
      · exact Or.inr ⟨hleft, fun h => hno h.2, hraise⟩
    · have hstep : (recordAll r now (record :: rest)).run s = (.error x, s) := by
        show Program.run (record.emit r now >>= fun _ => recordAll r now rest) s = _
        rw [run_bind, hrun]
      rw [hstep]
      exact ⟨[], record :: rest, rfl, trivial, rfl,
        Or.inr ⟨List.cons_ne_nil _ _, fun h => hrefused h.1, x, rfl⟩⟩

end Recording

/-! ## The plan of a call -/

section Plan

variable (env : McpEnv) (handle : String → Handler)

/-- Is the call let through, for a visibility request? -/
def authorized (toolName : String) (visibility : Checked GatewayToolVisibilityRequest) : Bool :=
  (authorizeGatewayToolCall gatewayTools.1 toolName (some visibility)).visible

/-- How a call that comes to a result closes: a denial if the result is an error, then the
    finished event. -/
def closing (toolName reason : String) (result : Dict Json) :
    List ToolRecord × Except PyError (Dict Json) :=
  ((if isErrorResult result then [deniedRecord toolName reason] else []) ++
    [finishedRecord toolName result], .ok result)

/-- What a call records after its started event, and what it answers. -/
def callPlan (toolName : String) (args : Dict Json) :
    List ToolRecord × Except PyError (Dict Json) :=
  match visibilityRequestFromArgs args with
  | .error e => ([], .error e)
  | .ok visibility =>
    if authorized toolName visibility = false then
      let reason := (authorizeGatewayToolCall gatewayTools.1 toolName (some visibility)).reason
      closing toolName reason
        (withMcpAttribution env (policyDeniedResult env toolName reason) toolName args)
    else
      match handle toolName args with
      | .error e => ([], .error e)
      | .ok outcome =>
        closing toolName "tool returned error" (withMcpAttribution env outcome toolName args)

/-- A plan that raises records nothing more; any other one closes. -/
theorem callPlan_cases (toolName : String) (args : Dict Json) :
    (∃ e, callPlan env handle toolName args = ([], .error e)) ∨
      ∃ reason result, callPlan env handle toolName args = closing toolName reason result := by
  unfold callPlan
  cases visibilityRequestFromArgs args with
  | error e => exact Or.inl ⟨e, rfl⟩
  | ok visibility =>
    dsimp only
    by_cases hdenied : authorized toolName visibility = false
    · simp only [if_pos hdenied]
      exact Or.inr ⟨_, _, rfl⟩
    · simp only [if_neg hdenied]
      cases handle toolName args with
      | error e => exact Or.inl ⟨e, rfl⟩
      | ok outcome => exact Or.inr ⟨_, _, rfl⟩

/-- Attribution leaves the verdict on the result alone. -/
theorem isErrorResult_withMcpAttribution (result : Dict Json) (toolName : String)
    (args : Dict Json) :
    isErrorResult (withMcpAttribution env result toolName args) = isErrorResult result := by
  unfold withMcpAttribution
  show isErrorResult (Dict.set result "mcp_attribution" _) = _
  unfold isErrorResult
  rw [Dict.get_set, if_neg (by decide)]

theorem get_map_pair {β : Type} (f : String → β) (name : String) : ∀ names : List String,
    name ∈ names → Dict.get (names.map fun n => (n, f n)) name = some (f name) := by
  intro names
  induction names with
  | nil => exact fun h => absurd h List.not_mem_nil
  | cons n rest ih =>
    intro h
    by_cases hn : n = name
    · simp [Dict.get, hn]
    · have hrest : name ∈ rest := (List.mem_cons.mp h).resolve_left fun h => hn h.symm
      rw [← ih hrest]
      simp [Dict.get, hn]

/-- Every tool of the gateway has a handler in the tables. -/
theorem toolHandlers_of_authorized {toolName : String}
    {visibility : Checked GatewayToolVisibilityRequest}
    (h : authorized toolName visibility = true) :
    Dict.get (toolHandlers handle) toolName = some (handle toolName) := by
  have hlisted := (gatewayTools.listed_iff_authorized (some visibility) toolName).mpr h
  have hknown : toolName ∈ gatewayTools.1.map fun tool => tool.1.name := by
    obtain ⟨tool, htool, rfl⟩ := List.mem_map.mp hlisted
    exact List.mem_map.mpr ⟨tool, (List.mem_filter.mp htool).1, rfl⟩
  have hnames : (gatewayTools.1.map fun tool => tool.1.name) = handledTools := by decide
  rw [hnames] at hknown
  exact get_map_pair handle toolName handledTools hknown

/-- Recording in two steps is recording both. -/
theorem recording_bind {α : Type} (recorder : Option McpToolCallRecorder)
    (f g : McpToolCallRecorder → Db Unit) (k : Unit → Db α) :
    (recording recorder f >>= fun _ => recording recorder g >>= k) =
      recording recorder (fun r => f r >>= fun _ => g r) >>= k := by
  cases recorder with
  | none => rfl
  | some r => exact (bind_bind (f r) (fun _ => g r) k).symm

/-- The records of a closed call, as the dispatcher makes them. -/
theorem recordAll_closing (r : McpToolCallRecorder) (now : DateTime) (toolName reason : String)
    (result : Dict Json) :
    recordAll r now (closing toolName reason result).1 =
      if isErrorResult result then do
        let _ ← recordDenied r toolName reason now
        recordResult r toolName result now
      else recordResult r toolName result now := by
  rw [recordResult_eq]
  unfold closing
  by_cases hfailed : isErrorResult result = true
  · rw [if_pos hfailed, if_pos hfailed]
    show ((recordDenied r toolName reason now >>= fun _ => pure ()) >>= fun _ =>
      (finishedRecord toolName result).emit r now >>= fun _ => pure ()) = _
    rw [bind_bind, bind_done_unit]
    rfl
  · rw [if_neg hfailed, if_neg hfailed]
    exact bind_done_unit _

/-- A call is its plan: the records in order, then the answer. -/
theorem handleToolCall_eq (toolName : String) (args : Dict Json) (now : DateTime) :
    handleToolCall env handle toolName args now = (do
      let recorder ← Program.done (recorderFromArgs args)
      recording recorder fun r =>
        recordAll r now (startedRecord env toolName args :: (callPlan env handle toolName args).1)
      Program.done (callPlan env handle toolName args).2) := by
  unfold handleToolCall
  cases recorderFromArgs args with
  | error e => rfl
  | ok recorder =>
    have hsplit := recording_bind recorder
      (fun r => (startedRecord env toolName args).emit r now)
      (fun r => recordAll r now (callPlan env handle toolName args).1)
      (fun _ => Program.done (callPlan env handle toolName args).2)
    refine Eq.trans ?_ hsplit
    refine congrArg (recording recorder _ >>= ·) (funext fun _ => ?_)
    unfold callPlan
    cases visibilityRequestFromArgs args with
    | error e => cases recorder <;> rfl
    | ok visibility =>
      show (if authorized toolName visibility = false then _ else _ : Db (Dict Json)) = _
      dsimp only
      by_cases hdenied : authorized toolName visibility = false
      · -- the denial closes like a call that failed
        rw [if_pos hdenied, if_pos hdenied]
        simp only [recordAll_closing, isErrorResult_withMcpAttribution]
        rfl
      · rw [if_neg hdenied, if_neg hdenied]
        rw [toolHandlers_of_authorized handle (by simpa using hdenied)]
        dsimp only
        cases handle toolName args with
        | error e => cases recorder <;> rfl
        | ok outcome =>
          simp only [recordAll_closing]
          rfl

/-- Why a plan comes to an answer: the fields for the visibility request are valid, and the handler
    of a call that is let through returns. -/
theorem callPlan_isOk_iff (toolName : String) (args : Dict Json) :
    (callPlan env handle toolName args).2.isOk = true ↔
      (visibilityRequestFromArgs args).isOk = true ∧
        ∀ visibility, visibilityRequestFromArgs args = .ok visibility →
          authorized toolName visibility = true → (handle toolName args).isOk = true := by
  unfold callPlan
  cases visibilityRequestFromArgs args with
  | error e => exact ⟨fun h => (by cases h), fun h => (by cases h.1)⟩
  | ok visibility =>
    dsimp only
    by_cases hdenied : authorized toolName visibility = false
    · rw [if_pos hdenied]
      refine ⟨fun _ => ⟨rfl, fun v hv hallowed => ?_⟩, fun _ => rfl⟩
      rw [← Except.ok.inj hv, hdenied] at hallowed
      cases hallowed
    · rw [if_neg hdenied]
      cases hhandle : handle toolName args with
      | error e =>
        exact ⟨fun h => (by cases h), fun h => h.2 visibility rfl (by simpa using hdenied)⟩
      | ok outcome => exact ⟨fun _ => ⟨rfl, fun _ _ _ => rfl⟩, fun _ => rfl⟩

end Plan

/-! ## Balance -/

/-- What tells the events of a call apart. -/
abbrev Signature : Type := ControlPlaneEventKind × ControlPlaneEventStatus

def signature (e : ControlPlaneEvent) : Signature := (e.kind, e.status)

def opens (sig : Signature) : Bool := decide (sig.1 = .toolCallStarted)

def closes (sig : Signature) : Bool :=
  decide (sig.1 = .toolCallFinished ∧ (sig.2 = .passed ∨ sig.2 = .failed))

def denies (sig : Signature) : Bool := decide (sig = (.toolCallFinished, .blocked))

/-- One started event, then one passed or failed event, and a blocked one if the call failed. -/
structure Balanced (failed : Bool) (events : List Signature) : Prop where
  opened : ∃ started rest, events = started :: rest ∧ opens started = true ∧
    ∀ sig ∈ rest, opens sig = false
  closed : events.countP closes = 1
  denied : events.countP denies = if failed then 1 else 0

/-- Was the call denied, or did it fail? -/
def failedCall : Except PyError (Dict Json) → Bool
  | .ok result => isErrorResult result
  | .error _ => true

/-- What a call adds to the ledger is balanced. -/
def BalancedCall (s : Store) (outcome : Except PyError (Dict Json) × Store) : Prop :=
  ∃ events : List ControlPlaneEvent,
    outcome.2.controlPlaneEvents.rows = s.controlPlaneEvents.rows ++ events.map eventRow ∧
    Balanced (failedCall outcome.1) (events.map signature)

def ToolRecord.signature (record : ToolRecord) : Signature :=
  (if record.status = .active then .toolCallStarted else .toolCallFinished, record.status)

theorem rows_putRecords (r : McpToolCallRecorder) (now : DateTime) :
    ∀ (records : List ToolRecord) (s : Store), ∃ events : List ControlPlaneEvent,
      (s.putRecords r now records).controlPlaneEvents.rows =
        s.controlPlaneEvents.rows ++ events.map eventRow ∧
      events.map signature = records.map ToolRecord.signature := by
  intro records
  induction records with
  | nil => exact fun s => ⟨[], (List.append_nil _).symm, rfl⟩
  | cons record rest ih =>
    intro s
    let e := record.event r now (s.eventCount + 1)
    obtain ⟨events, hrows, hsig⟩ := ih (s.putEvent e)
    refine ⟨⟨e, .generated s.controlPlaneEvents.drawn⟩ :: events, ?_, ?_⟩
    · show ((s.putEvent e).putRecords r now rest).controlPlaneEvents.rows = _
      rw [hrows, Store.putEvent_rows, List.append_assoc]
      rfl
    · rw [List.map_cons, hsig]
      rfl

theorem startedRecord_signature (env : McpEnv) (toolName : String) (args : Dict Json) :
    (startedRecord env toolName args).signature = (.toolCallStarted, .active) := rfl

theorem deniedRecord_signature (toolName reason : String) :
    (deniedRecord toolName reason).signature = (.toolCallFinished, .blocked) := rfl

theorem finishedRecord_signature (toolName : String) (result : Dict Json) :
    (finishedRecord toolName result).signature =
      (.toolCallFinished, if isErrorResult result then .failed else .passed) := by
  unfold ToolRecord.signature finishedRecord
  cases isErrorResult result <;> rfl

/-- A call that is closed is balanced. -/
theorem balanced_closing (env : McpEnv) (toolName reason : String) (args result : Dict Json) :
    Balanced (isErrorResult result) ((startedRecord env toolName args ::
      (closing toolName reason result).1).map ToolRecord.signature) := by
  unfold closing
  cases hfailed : isErrorResult result with
  | true =>
    simp only [if_true, List.map_append, List.map_cons, List.map_nil, startedRecord_signature,
      deniedRecord_signature, finishedRecord_signature, hfailed]
    exact ⟨⟨_, _, rfl, rfl, by decide⟩, rfl, rfl⟩
  | false =>
    simp only [Bool.false_eq_true, if_false, List.nil_append, List.map_cons, List.map_nil,
      startedRecord_signature, finishedRecord_signature, hfailed]
    exact ⟨⟨_, _, rfl, rfl, by decide⟩, rfl, rfl⟩

/-- Before its last record a plan does not close the call. -/
theorem not_closes_of_incomplete {env : McpEnv} {handle : String → Handler} {toolName : String}
    {args : Dict Json} {taken rest : List ToolRecord}
    (hsplit : startedRecord env toolName args :: (callPlan env handle toolName args).1 =
      taken ++ rest)
    (hincomplete : rest ≠ [] ∨ (callPlan env handle toolName args).2.isOk = false) :
    ∀ record ∈ taken, closes record.signature = false := by
  have hstarted : closes (startedRecord env toolName args).signature = false := rfl
  intro record hrecord
  rcases callPlan_cases env handle toolName args with ⟨e, hplan⟩ | ⟨reason, result, hplan⟩
  · have hmem : record ∈ [startedRecord env toolName args] := by
      rw [hplan] at hsplit
      rw [hsplit]
      exact List.mem_append_left rest hrecord
    rw [List.mem_singleton.mp hmem]
    exact hstarted
  · have hrest : rest ≠ [] := by
      refine hincomplete.resolve_right fun h => ?_
      rw [hplan] at h
      cases h
    -- the last record is among the rest, and only that one closes
    have hlast := congrArg List.dropLast hsplit
    rw [hplan, List.dropLast_append_of_ne_nil hrest] at hlast
    have hmem : record ∈ startedRecord env toolName args ::
        (if isErrorResult result then [deniedRecord toolName reason] else []) := by
      have hdrop : (startedRecord env toolName args :: (closing toolName reason result).1).dropLast =
          startedRecord env toolName args ::
            (if isErrorResult result then [deniedRecord toolName reason] else []) := by
        unfold closing
        rw [← List.cons_append, List.dropLast_concat]
      rw [← hdrop, hlast]
      exact List.mem_append_left _ hrecord
    rcases List.mem_cons.mp hmem with rfl | hdenial
    · exact hstarted
    · split at hdenial
      · rw [List.mem_singleton.mp hdenial]
        rfl
      · exact absurd hdenial List.not_mem_nil

/-- When a call comes to its end: the fields for the visibility request are valid, the handler of a
    call that is let through returns, and the ledger takes every event of the call (the recorder's
    fields and the summaries keep to the lengths of an event, and the digest of the result is
    missing or 64 hexadecimal digits). -/
structure CallEnds (env : McpEnv) (handle : String → Handler) (r : McpToolCallRecorder)
    (toolName : String) (args : Dict Json) (now : DateTime) (s : Store) : Prop where
  request : (visibilityRequestFromArgs args).isOk = true
  handler : ∀ visibility, visibilityRequestFromArgs args = .ok visibility →
    authorized toolName visibility = true → (handle toolName args).isOk = true
  accepted : AllAccepted r now s.eventCount
    (startedRecord env toolName args :: (callPlan env handle toolName args).1)

section Run

variable (env : McpEnv) (handle : String → Handler) {r : McpToolCallRecorder} (toolName : String)
  {args : Dict Json} (now : DateTime) {s : Store}

/-- What a recorded call does: it takes its records up to one that is refused, if any is. -/
theorem run_handleToolCall (hr : recorderFromArgs args = .ok (some r)) (hs : s.ledgerLists) :
    ∃ taken rest,
      startedRecord env toolName args :: (callPlan env handle toolName args).1 = taken ++ rest ∧
      ((handleToolCall env handle toolName args now).run s).2 = s.putRecords r now taken ∧
      ((rest = [] ∧ ((handleToolCall env handle toolName args now).run s).1 =
          (callPlan env handle toolName args).2 ∧ AllAccepted r now s.eventCount taken) ∨
        (rest ≠ [] ∧ ¬ AllAccepted r now s.eventCount
          (startedRecord env toolName args :: (callPlan env handle toolName args).1) ∧
          ∃ x, ((handleToolCall env handle toolName args now).run s).1 = .error x)) := by
  have hrun : (handleToolCall env handle toolName args now).run s =
      (recordAll r now (startedRecord env toolName args :: (callPlan env handle toolName args).1) >>=
        fun _ => Program.done (callPlan env handle toolName args).2).run s := by
    rw [handleToolCall_eq, hr]
    rfl
  obtain ⟨taken, rest, hsplit, hall, hstore, hend⟩ := run_recordAll r now
    (startedRecord env toolName args :: (callPlan env handle toolName args).1) hs
  refine ⟨taken, rest, hsplit, ?_⟩
  rw [hrun, run_bind]
  generalize (recordAll r now _).run s = outcome at hstore hend ⊢
  obtain ⟨result, s'⟩ := outcome
  subst hstore
  rcases hend with ⟨hrest, rfl⟩ | ⟨hrest, hno, x, rfl⟩
  · exact ⟨rfl, Or.inl ⟨hrest, rfl, hall⟩⟩
  · exact ⟨rfl, Or.inr ⟨hrest, hno, x, rfl⟩⟩

/-- A call is balanced exactly if it comes to its end. -/
theorem balancedCall_iff (hr : recorderFromArgs args = .ok (some r)) (hs : s.ledgerLists) :
    BalancedCall s ((handleToolCall env handle toolName args now).run s) ↔
      CallEnds env handle r toolName args now s := by
  obtain ⟨taken, rest, hsplit, hstore, hend⟩ := run_handleToolCall env handle toolName
    now hr hs
  obtain ⟨events, hrows, hsig⟩ := rows_putRecords r now taken s
  have hends : CallEnds env handle r toolName args now s ↔
      rest = [] ∧ (callPlan env handle toolName args).2.isOk = true := by
    rw [callPlan_isOk_iff]
    constructor
    · rintro ⟨hrequest, hhandler, haccepted⟩
      refine ⟨?_, hrequest, hhandler⟩
      rcases hend with ⟨hrest, -⟩ | ⟨-, hno, -⟩
      · exact hrest
      · exact absurd haccepted hno
    · rintro ⟨rfl, hrequest, hhandler⟩
      rcases hend with ⟨-, -, hall⟩ | ⟨hrest, -⟩
      · exact ⟨hrequest, hhandler, by rw [hsplit, List.append_nil]; exact hall⟩
      · exact absurd rfl hrest
  rw [hends]
  constructor
  · rintro ⟨events', hrows', hbalanced⟩
    have heq : events'.map eventRow = events.map eventRow :=
      List.append_cancel_left (hrows'.symm.trans (by rw [hstore, hrows]))
    have hsame : events'.map signature = taken.map ToolRecord.signature := by
      have hpayload := congrArg (List.map EventRow.payload) heq
      simp only [List.map_map, Function.comp_def, eventRow, List.map_id'] at hpayload
      rw [hpayload, hsig]
    by_contra hincomplete
    have hnone := not_closes_of_incomplete hsplit (by
      by_cases hrest : rest = []
      · exact Or.inr (by simpa [hrest] using hincomplete)
      · exact Or.inl hrest)
    have hcount := hbalanced.closed
    rw [hsame, List.countP_map, List.countP_eq_zero.mpr (by simpa using hnone)] at hcount
    cases hcount
  · rintro ⟨rfl, hok⟩
    rcases callPlan_cases env handle toolName args with ⟨e, hplan⟩ | ⟨reason, result, hplan⟩
    · rw [hplan] at hok
      cases hok
    rcases hend with ⟨-, hanswer, -⟩ | ⟨hrest, -⟩
    · refine ⟨events, by rw [hstore, hrows], ?_⟩
      rw [hanswer, hplan, hsig, ← List.append_nil taken, ← hsplit, hplan]
      exact balanced_closing env toolName reason args result
    · exact absurd rfl hrest

/-- When a call returns, recorded or not. -/
structure CallReturns (env : McpEnv) (handle : String → Handler) (toolName : String)
    (args : Dict Json) (now : DateTime) (s : Store) : Prop where
  recorder : (recorderFromArgs args).isOk = true
  request : (visibilityRequestFromArgs args).isOk = true
  handler : ∀ visibility, visibilityRequestFromArgs args = .ok visibility →
    authorized toolName visibility = true → (handle toolName args).isOk = true
  accepted : ∀ r, recorderFromArgs args = .ok (some r) → AllAccepted r now s.eventCount
    (startedRecord env toolName args :: (callPlan env handle toolName args).1)

theorem handleToolCall_isOk_iff (hs : s.ledgerLists) :
    ((handleToolCall env handle toolName args now).run s).1.isOk = true ↔
      CallReturns env handle toolName args now s := by
  have hplan := callPlan_isOk_iff env handle toolName args
  cases hrecorder : recorderFromArgs args with
  | error e =>
    rw [handleToolCall_eq, hrecorder]
    refine ⟨fun h => (by cases h), fun h => ?_⟩
    have hrecorded := h.recorder
    rw [hrecorder] at hrecorded
    cases hrecorded
  | ok recorder =>
    cases recorder with
    | none =>
      have hrun : ((handleToolCall env handle toolName args now).run s).1 =
          (callPlan env handle toolName args).2 := by
        rw [handleToolCall_eq, hrecorder]
        rfl
      rw [hrun, hplan]
      refine ⟨fun h => ⟨by rw [hrecorder]; rfl, h.1, h.2, fun r hr => ?_⟩, fun h => ⟨h.2, h.3⟩⟩
      rw [hrecorder] at hr
      cases hr
    | some r =>
      obtain ⟨taken, rest, hsplit, -, hend⟩ := run_handleToolCall env handle toolName
        now hrecorder hs
      rcases hend with ⟨rfl, hanswer, hall⟩ | ⟨-, hno, x, hraise⟩
      · rw [hanswer, hplan]
        refine ⟨fun h => ⟨by rw [hrecorder]; rfl, h.1, h.2, fun r' hr' => ?_⟩, fun h => ⟨h.2, h.3⟩⟩
        rw [hrecorder] at hr'
        cases hr'
        rw [hsplit, List.append_nil]
        exact hall
      · rw [hraise]
        exact ⟨fun h => (by cases h), fun h => absurd (h.accepted r hrecorder) hno⟩

/-- Through either entry point, with one result and one sequence of events, a call is balanced
    exactly if it comes to its end. -/
theorem toolCalls_balanced_iff (adapter : MCPAdapter handle)
    (hr : recorderFromArgs args = .ok (some r)) (hs : s.ledgerLists) :
    (BalancedCall s ((handleToolCall env handle toolName args now).run s) ∧
      BalancedCall s ((adapter.callTool env handle toolName args now).run s) ∧
      (adapter.callTool env handle toolName args now).run s =
        (handleToolCall env handle toolName args now).run s) ↔
      CallEnds env handle r toolName args now s := by
  rw [callTool_eq, ← balancedCall_iff env handle toolName now hr hs]
  exact ⟨fun h => h.1, fun h => ⟨h, h, rfl⟩⟩

end Run

/-! ### A call without its argument -/

/-- The arguments of a recorded call that names no file. -/
def argsWithoutFile : Dict Json :=
  [("control_plane_db", .text "control-plane.sqlite"), ("client_id", .text "vscode")]

def vscodeRecorder : McpToolCallRecorder where
  clientId := "vscode"
  actorId := "vscode"
  role := "observer"

/-- `handle_validate_eip` as far as `args["file"]`, which raises when there is no file. -/
def validateWithoutFile : String → Handler := fun _ _ => .error (.keyError "file")

def mcpEnv : McpEnv where
  lower := String.toLower
  dumps _ := "{}"
  dumpsIndented _ := "{}"
  loads _ := none

theorem toolCalls_balanced_iff_withoutFile :
    (BalancedCall Store.empty ((handleToolCall mcpEnv validateWithoutFile "validate_eip"
        argsWithoutFile ⟨0, some 0⟩).run Store.empty) ∧
      BalancedCall Store.empty (((MCPAdapter.connect validateWithoutFile).callTool mcpEnv
        validateWithoutFile "validate_eip" argsWithoutFile ⟨0, some 0⟩).run Store.empty) ∧
      ((MCPAdapter.connect validateWithoutFile).callTool mcpEnv validateWithoutFile
        "validate_eip" argsWithoutFile ⟨0, some 0⟩).run Store.empty =
        (handleToolCall mcpEnv validateWithoutFile "validate_eip" argsWithoutFile
          ⟨0, some 0⟩).run Store.empty) ↔
      CallEnds mcpEnv validateWithoutFile vscodeRecorder "validate_eip" argsWithoutFile
        ⟨0, some 0⟩ Store.empty :=
  toolCalls_balanced_iff mcpEnv validateWithoutFile "validate_eip" ⟨0, some 0⟩
    (MCPAdapter.connect validateWithoutFile) rfl fun _ hr => absurd hr List.not_mem_nil

/-- The exception leaves the started event as the only one. -/
theorem validateWithoutFile_unbalanced :
    ¬ BalancedCall Store.empty ((handleToolCall mcpEnv validateWithoutFile "validate_eip"
      argsWithoutFile ⟨0, some 0⟩).run Store.empty) := by
  rintro ⟨events, hrows, hbalanced⟩
  have hrun : ((handleToolCall mcpEnv validateWithoutFile "validate_eip" argsWithoutFile
      ⟨0, some 0⟩).run Store.empty).2.controlPlaneEvents.rows.map (fun r => signature r.payload) =
        [(.toolCallStarted, .active)] := by decide
  have hevents : events.map signature = [(.toolCallStarted, .active)] := by
    rw [hrows, List.map_append, List.map_map] at hrun
    exact hrun
  have hclosed := hbalanced.closed
  rw [hevents] at hclosed
  revert hclosed
  decide

end Vad
