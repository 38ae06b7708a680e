/-
  The lifecycle of the control plane and its log (`vad/control_plane/lifecycle.py`).

  `transition` asks three times before it writes anything: is the target allowed here, does the
  reason say something, does the actor.  Only then the state moves and the event is appended, so an
  attempt either does both or, whichever way it fails, neither (`transition_cases`).

  The result is `lifecycle_log_faithful`: whatever is attempted on a started lifecycle, its log is a
  walk from `STARTING` to the state it is in, with one entry for each attempt that returned, and
  with nothing behind `STOPPED` or `FAILED`.
-/
import Vad.ControlPlane.Model
import Vad.Lib.Attempts
import Vad.Lib.Text

namespace Vad

open PyText (strip)

/-! ## States and events -/

inductive ControlPlaneState where
  | starting | ready | draining | stopped | failed
deriving DecidableEq, Repr

namespace ControlPlaneState

def value : ControlPlaneState → String
  | starting => "starting"
  | ready => "ready"
  | draining => "draining"
  | stopped => "stopped"
  | failed => "failed"

/-- `ALLOWED_TRANSITIONS`. -/
def allowedTransitions : ControlPlaneState → List ControlPlaneState
  | starting => [ready, failed, stopped]
  | ready => [draining, failed]
  | draining => [stopped, failed]
  | stopped => []
  | failed => []

/-- Exactly the two ends lead nowhere. -/
theorem allowedTransitions_eq_nil_iff (s : ControlPlaneState) :
    s.allowedTransitions = [] ↔ s = stopped ∨ s = failed := by
  cases s <;> decide

end ControlPlaneState

structure ControlPlaneLifecycleEvent where
  eventId : String
  fromState : Option ControlPlaneState := none
  toState : ControlPlaneState
  reason : String
  actor : String := "control-plane"
  createdAt : DateTime
deriving DecidableEq, Repr

/-- The validator `non_empty_text`. -/
def ControlPlaneLifecycleEvent.nonEmptyText (value : String) : Bool :=
  decide (strip value.toList ≠ [])

instance : Model ControlPlaneLifecycleEvent where
  name := "ControlPlaneLifecycleEvent"
  normalize := id
  checks e := [
    ("reason", ControlPlaneLifecycleEvent.nonEmptyText e.reason),
    ("actor", ControlPlaneLifecycleEvent.nonEmptyText e.actor)]
  normalize_idem _ := rfl

/-- What the default factories of an event draw: the digits of a uuid, and the time. -/
structure LifecycleStamp where
  hex : String
  now : DateTime
deriving DecidableEq, Repr

def LifecycleStamp.eventId (stamp : LifecycleStamp) : String := "control-plane-event-" ++ stamp.hex

/-! ## The lifecycle -/

structure ControlPlaneLifecycle where
  state : ControlPlaneState := .starting
  events : List (Checked ControlPlaneLifecycleEvent) := []

namespace ControlPlaneLifecycle

/-- `ControlPlaneLifecycle.start`. -/
def start (stamp : LifecycleStamp) (reason : String := "control plane starting") :
    Except PyError ControlPlaneLifecycle := do
  let event ← Model.build {
    eventId := stamp.eventId
    fromState := none
    toState := .starting
    reason := reason
    createdAt := stamp.now : ControlPlaneLifecycleEvent }
  .ok { events := [event] }

/-- The event that a transition builds. -/
def eventTo (l : ControlPlaneLifecycle) (stamp : LifecycleStamp) (toState : ControlPlaneState)
    (reason actor : String) : ControlPlaneLifecycleEvent where
  eventId := stamp.eventId
  fromState := some l.state
  toState := toState
  reason := reason
  actor := actor
  createdAt := stamp.now

/-- `ControlPlaneLifecycle.transition`. -/
def transition (l : ControlPlaneLifecycle) (stamp : LifecycleStamp) (toState : ControlPlaneState)
    (reason : String) (actor : String := "control-plane") :
    Except PyError (Checked ControlPlaneLifecycleEvent) × ControlPlaneLifecycle :=
  if toState ∉ l.state.allowedTransitions then
    (.error (.valueError ("invalid control-plane transition: " ++ l.state.value ++ " -> " ++
      toState.value)), l)
  else
    match Model.build (l.eventTo stamp toState reason actor) with
    | .error e => (.error e, l)
    | .ok event =>
      let l := { l with state := toState }
      (.ok event, { l with events := l.events ++ [event] })

def markReady (l : ControlPlaneLifecycle) (stamp : LifecycleStamp)
    (reason : String := "control plane ready") :
    Except PyError (Checked ControlPlaneLifecycleEvent) × ControlPlaneLifecycle :=
  l.transition stamp .ready reason

def requestShutdown (l : ControlPlaneLifecycle) (stamp : LifecycleStamp)
    (reason : String := "controlled shutdown requested") (actor : String := "operator") :
    Except PyError (Checked ControlPlaneLifecycleEvent) × ControlPlaneLifecycle :=
  l.transition stamp .draining reason actor

def stop (l : ControlPlaneLifecycle) (stamp : LifecycleStamp)
    (reason : String := "control plane stopped") :
    Except PyError (Checked ControlPlaneLifecycleEvent) × ControlPlaneLifecycle :=
  l.transition stamp .stopped reason

def fail (l : ControlPlaneLifecycle) (stamp : LifecycleStamp) (reason : String)
    (actor : String := "control-plane") :
    Except PyError (Checked ControlPlaneLifecycleEvent) × ControlPlaneLifecycle :=
  l.transition stamp .failed reason actor

end ControlPlaneLifecycle

/-- A call of one of the methods that move a lifecycle. -/
inductive LifecycleMethod where
  | transition (toState : ControlPlaneState) (reason actor : String)
  | markReady (reason : String)
  | requestShutdown (reason actor : String)
  | stop (reason : String)
  | fail (reason actor : String)

/-- An attempt, with what it would draw for its event. -/
structure LifecycleAttempt where
  stamp : LifecycleStamp
  method : LifecycleMethod

namespace LifecycleMethod

/-- The state that the method leads to. -/
def target : LifecycleMethod → ControlPlaneState
  | transition toState _ _ => toState
  | markReady _ => .ready
  | requestShutdown _ _ => .draining
  | stop _ => .stopped
  | fail _ _ => .failed

end LifecycleMethod

namespace ControlPlaneLifecycle

def attempt (l : ControlPlaneLifecycle) (a : LifecycleAttempt) :
    Except PyError (Checked ControlPlaneLifecycleEvent) × ControlPlaneLifecycle :=
  match a.method with
  | .transition toState reason actor => l.transition a.stamp toState reason actor
  | .markReady reason => l.markReady a.stamp reason
  | .requestShutdown reason actor => l.requestShutdown a.stamp reason actor
  | .stop reason => l.stop a.stamp reason
  | .fail reason actor => l.fail a.stamp reason actor

/-- The lifecycle after the attempts, whether they raise or not. -/
def after (l : ControlPlaneLifecycle) (attempts : List LifecycleAttempt) : ControlPlaneLifecycle :=
  Attempts.run attempt l attempts

/-- The events that the attempts returned. -/
def returned (l : ControlPlaneLifecycle) (attempts : List LifecycleAttempt) :
    List (Checked ControlPlaneLifecycleEvent) := Attempts.answered attempt l attempts

/-- The log is a walk by allowed transitions from `STARTING` to the current state. -/
def LogIsTrail (l : ControlPlaneLifecycle) : Prop :=
  Attempts.Trail (fun s s' => s' ∈ s.allowedTransitions) (fun e => e.1.fromState)
    (fun e => e.1.toState) .starting l.events l.state

/-! ## One attempt -/

/-- What an attempt comes to: it moved the state and wrote the event down, or it did nothing. -/
inductive Moved (l : ControlPlaneLifecycle) (toState : ControlPlaneState) :
    Except PyError (Checked ControlPlaneLifecycleEvent) × ControlPlaneLifecycle → Prop
  | moved (event : Checked ControlPlaneLifecycleEvent) (hallowed : toState ∈ l.state.allowedTransitions)
      (hfrom : event.1.fromState = some l.state) (hto : event.1.toState = toState) :
      Moved l toState (.ok event, { state := toState, events := l.events ++ [event] })
  | raised (e : PyError) : Moved l toState (.error e, l)

variable {l : ControlPlaneLifecycle}

theorem transition_cases (stamp : LifecycleStamp) (toState : ControlPlaneState)
    (reason actor : String) : Moved l toState (l.transition stamp toState reason actor) := by
  unfold transition
  by_cases hallowed : toState ∈ l.state.allowedTransitions
  · rw [if_neg (not_not.mpr hallowed)]
    -- the constructor is called with `self.state` as it was, before the assignment
    cases hbuild : Model.build (l.eventTo stamp toState reason actor) with
    | error e => exact Moved.raised e
    | ok event =>
      have hdata := Model.build_eq_ok hbuild
      exact Moved.moved event hallowed (congrArg ControlPlaneLifecycleEvent.fromState hdata)
        (congrArg ControlPlaneLifecycleEvent.toState hdata)
  · rw [if_pos hallowed]
    exact Moved.raised _

theorem eventTo_valid_iff {stamp : LifecycleStamp} {toState : ControlPlaneState}
    {reason actor : String} : Model.Valid (l.eventTo stamp toState reason actor) ↔
      strip reason.toList ≠ [] ∧ strip actor.toList ≠ [] := by
  refine (and_iff_right rfl).trans (failedFields_eq_nil.trans ?_)
  show (∀ c ∈ [("reason", ControlPlaneLifecycleEvent.nonEmptyText reason),
    ("actor", ControlPlaneLifecycleEvent.nonEmptyText actor)], c.2 = true) ↔ _
  rw [List.forall_mem_cons, List.forall_mem_singleton]
  exact and_congr decide_eq_true_iff decide_eq_true_iff

/-- The three questions that `transition` asks. -/
theorem transition_ok_iff {stamp : LifecycleStamp} {toState : ControlPlaneState}
    {reason actor : String} : (∃ event, (l.transition stamp toState reason actor).1 = .ok event) ↔
      toState ∈ l.state.allowedTransitions ∧ strip reason.toList ≠ [] ∧ strip actor.toList ≠ [] := by
  rw [← @eventTo_valid_iff l stamp toState]
  unfold transition
  by_cases hallowed : toState ∈ l.state.allowedTransitions
  · rw [if_neg (not_not.mpr hallowed)]
    cases hbuild : Model.build (l.eventTo stamp toState reason actor) with
    | error e =>
      have hinvalid : ¬ Model.Valid (l.eventTo stamp toState reason actor) := by
        intro hvalid
        rw [Model.build_of_valid hvalid] at hbuild
        exact (nomatch hbuild)
      exact ⟨fun h => (nomatch h.choose_spec), fun h => absurd h.2 hinvalid⟩
    | ok event =>
      have hdata : event.1 = l.eventTo stamp toState reason actor := Model.build_eq_ok hbuild
      exact ⟨fun _ => ⟨hallowed, hdata ▸ event.2⟩, fun _ => ⟨event, rfl⟩⟩
  · rw [if_pos hallowed]
    exact ⟨fun h => (nomatch h.choose_spec), fun h => absurd h.1 hallowed⟩

/-- Every method is a transition to its target. -/
theorem attempt_cases (a : LifecycleAttempt) : Moved l a.method.target (l.attempt a) := by
  unfold attempt
  cases a.method with
  | transition toState reason actor => exact transition_cases a.stamp toState reason actor
  | markReady reason => exact transition_cases a.stamp .ready reason _
  | requestShutdown reason actor => exact transition_cases a.stamp .draining reason actor
  | stop reason => exact transition_cases a.stamp .stopped reason _
  | fail reason actor => exact transition_cases a.stamp .failed reason actor

theorem attempt_clean : Attempts.Clean attempt := by
  intro l a e hraised
  generalize hresult : l.attempt a = result at hraised
  have hcases := attempt_cases (l := l) a
  rw [hresult] at hcases
  cases hcases with
  | moved => exact (nomatch hraised)
  | raised => rfl

theorem attempt_log (l : ControlPlaneLifecycle) (a : LifecycleAttempt)
    (event : Checked ControlPlaneLifecycleEvent) (hanswer : (l.attempt a).1 = .ok event) :
    (l.attempt a).2.events = l.events ++ [event] := by
  generalize hresult : l.attempt a = result at hanswer
  have hcases := attempt_cases (l := l) a
  rw [hresult] at hcases
  cases hcases with
  | moved event' =>
    obtain rfl : event' = event := Except.ok.inj hanswer
    rfl
  | raised => exact (nomatch hanswer)

theorem attempt_trail (l : ControlPlaneLifecycle) (a : LifecycleAttempt) (h : l.LogIsTrail) :
    (Attempts.next attempt l a).LogIsTrail := by
  unfold Attempts.next
  have hcases := attempt_cases (l := l) a
  generalize l.attempt a = result at hcases ⊢
  cases hcases with
  | moved event hallowed hfrom hto => exact h.step hfrom hto hallowed
  | raised => exact h

/-! ## Whole runs -/

theorem start_trail {stamp : LifecycleStamp} {reason : String}
    (hstart : start stamp reason = .ok l) : l.LogIsTrail := by
  unfold start at hstart
  cases hbuild : Model.build {
      eventId := stamp.eventId
      fromState := none
      toState := .starting
      reason := reason
      createdAt := stamp.now : ControlPlaneLifecycleEvent } with
  | error e =>
    rw [hbuild] at hstart
    exact (nomatch hstart)
  | ok event =>
    rw [hbuild] at hstart
    obtain rfl := Except.ok.inj hstart
    have hdata := Model.build_eq_ok hbuild
    exact Attempts.Trail.single (congrArg ControlPlaneLifecycleEvent.fromState hdata)
      (congrArg ControlPlaneLifecycleEvent.toState hdata)

theorem after_trail (h : l.LogIsTrail) (attempts : List LifecycleAttempt) :
    (l.after attempts).LogIsTrail :=
  Attempts.run_invariant attempt_trail h attempts

theorem after_events (l : ControlPlaneLifecycle) (attempts : List LifecycleAttempt) :
    (l.after attempts).events = l.events ++ l.returned attempts :=
  Attempts.log_run attempt_clean attempt_log l attempts

/-- Nothing is written behind an end. -/
theorem LogIsTrail.ends (h : l.LogIsTrail) {before later : List (Checked ControlPlaneLifecycleEvent)}
    {e : Checked ControlPlaneLifecycleEvent} (hlog : l.events = before ++ e :: later)
    (hend : e.1.toState = .stopped ∨ e.1.toState = .failed) : later = [] := by
  refine Attempts.Trail.ends h hlog ?_
  intro s hs
  rw [(ControlPlaneState.allowedTransitions_eq_nil_iff _).mpr hend] at hs
  exact absurd hs List.not_mem_nil

end ControlPlaneLifecycle

open ControlPlaneLifecycle in
/-- Whatever is attempted on a started lifecycle: the log is a walk from `STARTING` to the current
    state, nothing stands behind `STOPPED` or `FAILED`, what is written down is what the attempts
    returned, and the next attempt changes nothing if it raises. -/
theorem lifecycle_log_faithful {stamp : LifecycleStamp} {reason : String}
    {started : ControlPlaneLifecycle} (hstart : start stamp reason = .ok started)
    (attempts : List LifecycleAttempt) :
    (started.after attempts).LogIsTrail ∧
      (∀ before e later, (started.after attempts).events = before ++ e :: later →
        e.1.toState = .stopped ∨ e.1.toState = .failed → later = []) ∧
      (started.after attempts).events = started.events ++ started.returned attempts ∧
      ∀ a e, ((started.after attempts).attempt a).1 = .error e →
        ((started.after attempts).attempt a).2 = started.after attempts := by
  have htrail := after_trail (start_trail hstart) attempts
  refine ⟨htrail, ?_, after_events started attempts, ?_⟩
  · intro before e later hlog hend
    exact htrail.ends hlog hend
  · intro a e hraised
    exact attempt_clean _ a e hraised

open ControlPlaneLifecycle in
/-- A run with a target out of reach, a blank reason, and a call behind the end. -/
theorem failure_is_logged : ∃ started,
    start ⟨"0a", ⟨0, some 0⟩⟩ "control plane starting" = .ok started ∧
      (started.after [⟨⟨"1b", ⟨1, some 0⟩⟩, .requestShutdown "drain" "operator"⟩,
        ⟨⟨"2c", ⟨2, some 0⟩⟩, .markReady " "⟩, ⟨⟨"3d", ⟨3, some 0⟩⟩, .markReady "ready"⟩,
        ⟨⟨"4e", ⟨4, some 0⟩⟩, .fail "broken" "operator"⟩,
        ⟨⟨"5f", ⟨5, some 0⟩⟩, .stop "late"⟩]).LogIsTrail ∧
      (started.after [⟨⟨"1b", ⟨1, some 0⟩⟩, .requestShutdown "drain" "operator"⟩,
        ⟨⟨"2c", ⟨2, some 0⟩⟩, .markReady " "⟩, ⟨⟨"3d", ⟨3, some 0⟩⟩, .markReady "ready"⟩,
        ⟨⟨"4e", ⟨4, some 0⟩⟩, .fail "broken" "operator"⟩,
        ⟨⟨"5f", ⟨5, some 0⟩⟩, .stop "late"⟩]).events.map (fun e => e.1.toState) =
        [.starting, .ready, .failed] :=
  ⟨_, rfl, (@lifecycle_log_faithful ⟨"0a", ⟨0, some 0⟩⟩ "control plane starting" _ rfl _).1,
    by decide⟩

end Vad
