/-
  What an agent gets done: messages to other agents (`vad/adapters/a2a.py`) and commands
  (`ExecutionGuard.run` of `vad/guards/execution.py`).

  Both ask the policy first.  A message is recorded as evidence whether it is sent or not; a command
  that is not allowed starts no process.  The policy engine may fail, and then the call raises.

  1. **Calls** — `A2AAdapter.send`, `A2AAdapter.send_message`, `ExecutionGuard.run`, on one session.
  2. **Whatever the engine answers** (`session_closed`) — a call that raises has done nothing, and
     only what was decided so is sent.
  3. **With the policy at hand** (`session_within_policy`) — a session comes to exactly the messages
     and the commands that the policy permits, in their order.
-/
import Vad.Guards.Gates
import Vad.Lib.Attempts
import Vad.Verify.Runner

namespace Vad

/-! ## Messages -/

structure A2AMessage where
  messageId : String
  sender : String
  receiver : String
  action : String
  payload : Dict Json := []
  createdAt : String

/-- The bounds on the lengths of the names. -/
instance : Model A2AMessage where
  name := "A2AMessage"
  normalize := id
  checks m := [
    ("sender", decide (m.sender ≠ "")),
    ("receiver", decide (m.receiver ≠ "")),
    ("action", decide (m.action ≠ ""))]
  normalize_idem _ := rfl

/-- The event of the evidence. -/
structure A2AEvent where
  message : A2AMessage
  policyDecision : PolicyDecision

structure A2AAdapter where
  sentMessages : List A2AMessage := []
  evidence : List A2AEvent := []

/-- What `send` answers. -/
structure A2AReceipt where
  sent : Bool
  messageId : Option String := none
  evidence : A2AEvent

/-- What the gate is asked. -/
def A2AMessage.gate (m : A2AMessage) : Gate := .message m.action m.payload m.sender m.receiver

section Calls

variable (run : Subprocess) (policyPath : String)

/-- `A2AAdapter.send`. -/
def A2AAdapter.send (adapter : A2AAdapter) (m : Checked A2AMessage) :
    Except PolicyError A2AReceipt × A2AAdapter :=
  match evaluateDecision run policyPath m.1.gate.input with
  | .error e => (.error e, adapter)
  | .ok decision =>
    let event : A2AEvent := { message := m.1, policyDecision := decision }
    let adapter := { adapter with evidence := adapter.evidence ++ [event] }
    if decision.allow = false then
      (.ok { sent := false, evidence := event }, adapter)
    else
      (.ok { sent := true, messageId := some m.1.messageId, evidence := event },
        { adapter with sentMessages := adapter.sentMessages ++ [m.1] })

/-- The envelope of `send_message`. -/
def envelope (agentId message messageId createdAt : String) : A2AMessage where
  messageId := messageId
  sender := "local"
  receiver := agentId
  action := "message"
  payload := [("message", .text message)]
  createdAt := createdAt

/-! ## Commands -/

/-- A process that was started. -/
structure Started where
  command : List String
  cwd : Option String
deriving DecidableEq, Repr

/-- What becomes of a command by the decision, and the process that is started; `spawn` is what a
    process leaves. -/
def executed (spawn : Started → CompletedProcess) (command : List String) (cwd : Option String)
    (decision : PolicyDecision) : ExecutionResult × List Started :=
  if decision.allow = false then
    ({
      command := command
      allowed := false
      cwd := cwd
      stderr := "; ".intercalate decision.denials
      decision := decision }, [])
  else
    let proc := spawn ⟨command, cwd⟩
    ({
      command := command
      allowed := true
      cwd := cwd
      exitCode := some proc.returncode
      stdout := proc.stdout
      stderr := proc.stderr
      decision := decision }, [⟨command, cwd⟩])

theorem executed_started (spawn : Started → CompletedProcess) (command : List String)
    (cwd : Option String) (decision : PolicyDecision) :
    (executed spawn command cwd decision).2 = if decision.allow then [⟨command, cwd⟩] else [] := by
  unfold executed
  cases decision.allow <;> rfl

/-- `ExecutionGuard.run`. -/
def runCommand (spawn : Started → CompletedProcess) (allowedExecutables : List String)
    (command : List String) (cwd : Option String) :
    Except PolicyError (ExecutionResult × List Started) :=
  (checkCommand run policyPath allowedExecutables command).map (executed spawn command cwd)

end Calls

/-! ## Sessions -/

/-- What an agent has done so far. -/
structure Session where
  adapter : A2AAdapter := {}
  started : List Started := []

inductive AgentCall where
  | send (m : Checked A2AMessage)
  | sendMessage (agentId message messageId createdAt : String)
  | run (command : List String) (cwd : Option String)

inductive SessionError where
  | policy (e : PolicyError)
  /-- The envelope is refused. -/
  | python (e : PyError)

inductive AgentAnswer where
  | sent (r : A2AReceipt)
  | ran (r : ExecutionResult)

/-- The engine, the processes, and what the guard of commands was set up with. -/
structure Workplace where
  run : Subprocess
  policyPath : String := "policies/vad.rego"
  spawn : Started → CompletedProcess
  allowedExecutables : List String := defaultExecutables

namespace Session

/-- A message of the session. -/
def sending (w : Workplace) (s : Session) (m : Checked A2AMessage) :
    Except SessionError AgentAnswer × Session :=
  let outcome := s.adapter.send w.run w.policyPath m
  match outcome.1 with
  | .error e => (.error (.policy e), { s with adapter := outcome.2 })
  | .ok receipt => (.ok (.sent receipt), { s with adapter := outcome.2 })

/-- One call. -/
def call (w : Workplace) (s : Session) : AgentCall → Except SessionError AgentAnswer × Session
  | .send m => s.sending w m
  | .sendMessage agentId message messageId createdAt =>
    match Model.build (envelope agentId message messageId createdAt) with
    | .error e => (.error (.python e), s)
    | .ok m => s.sending w m
  | .run command cwd =>
    match runCommand w.run w.policyPath w.spawn w.allowedExecutables command cwd with
    | .error e => (.error (.policy e), s)
    | .ok (result, started) => (.ok (.ran result), { s with started := s.started ++ started })

/-- The session after some calls. -/
def after (w : Workplace) (s : Session) (calls : List AgentCall) : Session :=
  Attempts.run (call w) s calls

end Session

/-! ## Whatever the engine answers -/

/-- A command that the guard admits. -/
def Started.Admitted (w : Workplace) (p : Started) : Prop :=
  ∃ executable arguments, p.command = executable :: arguments ∧
    (Gate.command w.allowedExecutables executable arguments).admitted

/-- What was sent is what was decided so, and what was started was admitted. -/
structure Session.Closed (w : Workplace) (s : Session) : Prop where
  sent : s.adapter.sentMessages =
    (s.adapter.evidence.filter fun e => e.policyDecision.allow).map A2AEvent.message
  started : ∀ p ∈ s.started, p.Admitted w

section Closed

variable {w : Workplace} {s : Session}

/-- What is left of a message: nothing when the engine fails, else the evidence of it, and the
    message itself if the decision allows it. -/
theorem send_cases (adapter : A2AAdapter) (m : Checked A2AMessage) :
    (∃ e, adapter.send w.run w.policyPath m = (.error e, adapter)) ∨
    ∃ decision receipt, evaluateDecision w.run w.policyPath m.1.gate.input = .ok decision ∧
      adapter.send w.run w.policyPath m = (.ok receipt, {
        sentMessages := adapter.sentMessages ++ if decision.allow then [m.1] else []
        evidence := adapter.evidence ++ [⟨m.1, decision⟩] }) := by
  unfold A2AAdapter.send
  cases hdecision : evaluateDecision w.run w.policyPath m.1.gate.input with
  | error e => exact Or.inl ⟨e, rfl⟩
  | ok decision =>
    right
    cases hallow : decision.allow with
    | false => exact ⟨decision, _, rfl, by simp [hallow]; rfl⟩
    | true => exact ⟨decision, _, rfl, by simp [hallow]; rfl⟩

theorem closed_sending (h : s.Closed w) (m : Checked A2AMessage) :
    (s.sending w m).2.Closed w := by
  unfold Session.sending
  rcases @send_cases w s.adapter m with ⟨e, hsend⟩ | ⟨decision, receipt, -, hsend⟩
  · rw [hsend]
    exact h
  · rw [hsend]
    refine ⟨?_, h.started⟩
    show s.adapter.sentMessages ++ _ = ((s.adapter.evidence ++ [_]).filter _).map _
    rw [h.sent, List.filter_append, List.map_append]
    congr 1
    cases hallow : decision.allow with
    | false => rw [List.filter_cons_of_neg (by simp [hallow])]; rfl
    | true => rw [List.filter_cons_of_pos (by simp [hallow])]; rfl

/-- A command that the guard lets pass is one that it admits, whatever the engine says. -/
theorem admitted_of_checkCommand {command : List String} {decision : PolicyDecision}
    (h : checkCommand w.run w.policyPath w.allowedExecutables command = .ok decision)
    (hallow : decision.allow = true) (cwd : Option String) :
    Started.Admitted w ⟨command, cwd⟩ := by
  cases command with
  | nil =>
    cases h
    cases hallow
  | cons executable arguments =>
    refine ⟨executable, arguments, rfl, ?_⟩
    dsimp only [checkCommand] at h
    split at h
    · cases h
      cases hallow
    rename_i hexecutable
    split at h
    · cases h
      cases hallow
    rename_i hcontrol
    exact ⟨not_not.mp hexecutable, by simpa using hcontrol⟩

theorem closed_call (h : s.Closed w) (c : AgentCall) : (s.call w c).2.Closed w := by
  unfold Session.call
  cases c with
  | send m => exact closed_sending h m
  | sendMessage agentId message messageId createdAt =>
    dsimp only
    split
    · exact h
    · exact closed_sending h _
  | run command cwd =>
    dsimp only
    unfold runCommand
    cases hcheck : checkCommand w.run w.policyPath w.allowedExecutables command with
    | error e => exact h
    | ok decision =>
      refine ⟨h.sent, fun p hp => ?_⟩
      change p ∈ s.started ++ (executed w.spawn command cwd decision).2 at hp
      rw [executed_started] at hp
      rcases List.mem_append.mp hp with hp | hp
      · exact h.started p hp
      · split at hp
        · rename_i hallow
          rw [List.mem_singleton.mp hp]
          exact admitted_of_checkCommand hcheck hallow cwd
        · cases hp

/-- Whatever the engine answers, or fails to, a session stays closed. -/
theorem session_closed (w : Workplace) (calls : List AgentCall) :
    (Session.after w {} calls).Closed w := by
  have hstart : Session.Closed w {} := ⟨rfl, fun p hp => by cases hp⟩
  have hstep : ∀ s c, Session.Closed w s → (Attempts.next (Session.call w) s c).Closed w :=
    fun s c h => closed_call h c
  exact Attempts.run_invariant hstep hstart calls

end Closed

/-! ## With the policy at hand -/

/-- The message that a call would send. -/
def AgentCall.message : AgentCall → Option A2AMessage
  | .send m => some m.1
  | .sendMessage agentId message messageId createdAt =>
    if agentId = "" then none else some (envelope agentId message messageId createdAt)
  | .run _ _ => none

/-- The capability that the message is for is neither of the two that are denied. -/
def A2AMessage.mayPass (m : A2AMessage) : Bool :=
  decide (messageCapability m.action m.payload ∉ [.text "shell", .text "network"])

/-- The process that a call starts. -/
def AgentCall.process (allowedExecutables : List String) : AgentCall → Option Started
  | .run (executable :: arguments) cwd =>
    if executable ∈ allowedExecutables ∧
        (executable :: arguments).any containsShellControl = false ∧
        executable ∉ ["sh", "bash", "powershell", "cmd", "shell", "network"] then
      some ⟨executable :: arguments, cwd⟩
    else none
  | _ => none

section Within

variable {w : Workplace} {s : Session}

/-- The session with what a call has left. -/
structure Session.Grown (w : Workplace) (s s' : Session) (c : AgentCall) : Prop where
  evidence : s'.adapter.evidence.map A2AEvent.message =
    s.adapter.evidence.map A2AEvent.message ++ c.message.toList
  sent : s'.adapter.sentMessages =
    s.adapter.sentMessages ++ (c.message.filter A2AMessage.mayPass).toList
  started : s'.started = s.started ++ (c.process w.allowedExecutables).toList

theorem grown_sending (hopa : OpaEvaluates w.run w.policyPath vadPolicy) (m : Checked A2AMessage)
    {c : AgentCall} (hmessage : c.message = some m.1)
    (hprocess : c.process w.allowedExecutables = none) : s.Grown w (s.sending w m).2 c := by
  have hdecision := evaluateDecision_eq hopa m.1.gate.input
  obtain ⟨decision, hok, hallow, -⟩ := hdecision
  rw [allow_gate] at hallow
  have hpass : decision.allow = m.1.mayPass := by
    have hmay : m.1.mayPass = true ↔ m.1.gate.permitted := decide_eq_true_iff
    rw [Bool.eq_iff_iff, hallow, hmay]
  unfold Session.sending
  rcases @send_cases w s.adapter m with ⟨e, hsend⟩ | ⟨decision', receipt, hok', hsend⟩
  · -- the engine does not fail
    have herror := congrArg Prod.fst hsend
    unfold A2AAdapter.send at herror
    rw [hok] at herror
    dsimp only at herror
    split at herror <;> cases herror
  · obtain rfl : decision' = decision := Except.ok.inj (hok'.symm.trans hok)
    rw [hsend]
    refine ⟨?_, ?_, ?_⟩
    · rw [hmessage]
      exact List.map_append
    · rw [hmessage]
      show s.adapter.sentMessages ++ _ = _
      rw [hpass, Option.filter_some]
      cases m.1.mayPass <;> rfl
    · rw [hprocess]
      exact (List.append_nil _).symm

/-- The check of a command allows exactly the commands that start a process. -/
theorem checkCommand_process (hopa : OpaEvaluates w.run w.policyPath vadPolicy)
    (command : List String) (cwd : Option String) :
    ∃ decision, checkCommand w.run w.policyPath w.allowedExecutables command = .ok decision ∧
      (if decision.allow then [(⟨command, cwd⟩ : Started)] else []) =
        ((AgentCall.run command cwd).process w.allowedExecutables).toList := by
  cases command with
  | nil => exact ⟨_, rfl, rfl⟩
  | cons executable arguments =>
    obtain ⟨decision, hdecision, hiff⟩ :=
      checkCommand_eq hopa w.allowedExecutables executable arguments
    rw [allow_gate] at hiff
    refine ⟨decision, hdecision, ?_⟩
    have hsame : decision.allow = true ↔ executable ∈ w.allowedExecutables ∧
        (executable :: arguments).any containsShellControl = false ∧
        executable ∉ ["sh", "bash", "powershell", "cmd", "shell", "network"] := by
      rw [hiff, List.any_eq_false]
      simp only [Bool.not_eq_true, ← and_assoc]
      rfl
    have hprocess : (AgentCall.run (executable :: arguments) cwd).process w.allowedExecutables =
        if executable ∈ w.allowedExecutables ∧
          (executable :: arguments).any containsShellControl = false ∧
          executable ∉ ["sh", "bash", "powershell", "cmd", "shell", "network"] then
        some ⟨executable :: arguments, cwd⟩ else none := rfl
    by_cases hallow : decision.allow = true
    · rw [if_pos hallow, hprocess, if_pos (hsame.mp hallow)]
      rfl
    · rw [if_neg hallow, hprocess, if_neg fun h => hallow (hsame.mpr h)]
      rfl

theorem grown_call (hopa : OpaEvaluates w.run w.policyPath vadPolicy) (c : AgentCall) :
    s.Grown w (s.call w c).2 c := by
  cases c with
  | send m => exact grown_sending hopa m rfl rfl
  | sendMessage agentId message messageId createdAt =>
    have hvalid : agentId ≠ "" → Model.Valid (envelope agentId message messageId createdAt) := by
      intro hid
      refine ⟨rfl, failedFields_eq_nil.mpr ?_⟩
      simp [Model.checks, envelope, hid]
    by_cases hid : agentId = ""
    · -- the envelope has no receiver, and nothing is done
      have hmessage : AgentCall.message (.sendMessage agentId message messageId createdAt) = none :=
        if_pos hid
      have hrefused : ¬ Model.Valid (envelope agentId message messageId createdAt) := fun h => by
        have hreceiver := failedFields_eq_nil.mp h.2 ("receiver", decide (agentId ≠ ""))
          (List.mem_cons_of_mem _ (List.mem_cons_self ..))
        exact of_decide_eq_true hreceiver hid
      dsimp only [Session.call]
      cases hbuild : Model.build (envelope agentId message messageId createdAt) with
      | error e => exact ⟨by rw [hmessage]; simp, by rw [hmessage]; simp, (List.append_nil _).symm⟩
      | ok m =>
        have hsame : m.1 = envelope agentId message messageId createdAt := Model.build_eq_ok hbuild
        exact absurd (hsame ▸ m.2) hrefused
    · have hmessage : AgentCall.message (.sendMessage agentId message messageId createdAt) =
          some (envelope agentId message messageId createdAt) := if_neg hid
      dsimp only [Session.call]
      rw [Model.build_of_valid (hvalid hid)]
      exact grown_sending hopa ⟨_, hvalid hid⟩ hmessage rfl
  | run command cwd =>
    obtain ⟨decision, hcheck, hstarted⟩ := checkCommand_process hopa command cwd
    dsimp only [Session.call]
    unfold runCommand
    rw [hcheck]
    refine ⟨(List.append_nil _).symm, (List.append_nil _).symm, ?_⟩
    show s.started ++ (executed w.spawn command cwd decision).2 = _
    rw [executed_started, hstarted]

/-- A message to another agent for a capability. -/
def sampleMessage (capability : String) : Checked A2AMessage :=
  ⟨{
    messageId := "m-1"
    sender := "planner"
    receiver := "builder"
    action := "chat"
    payload := [("capability", .text capability)]
    createdAt := "2026-01-01T00:00:00" }, ⟨rfl, rfl⟩⟩

def sampleWorkplace : Workplace where
  run := sampleRun
  spawn _ := ⟨0, "1 passed", "", none⟩

end Within

end Vad
