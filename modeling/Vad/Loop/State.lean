/-
  The state of the loop (`vad/loop/state.py`).

  A state remembers where it has been.  `transition` is the only way on: it refuses what the table
  does not allow, and what it gives is again a path of the table (`Traced`, `transition_traced`).
-/
import Mathlib.Data.List.Chain
import Vad.ControlPlane.Model

namespace Vad

inductive LoopStatus where
  | initialized | assessed | planned | policyChecked | building | verifying | releasing | feedback
  | passed | failed | blocked | needsHuman
deriving DecidableEq, Repr

def LoopStatus.value : LoopStatus → String
  | .initialized => "initialized"
  | .assessed => "assessed"
  | .planned => "planned"
  | .policyChecked => "policy_checked"
  | .building => "building"
  | .verifying => "verifying"
  | .releasing => "releasing"
  | .feedback => "feedback"
  | .passed => "passed"
  | .failed => "failed"
  | .blocked => "blocked"
  | .needsHuman => "needs_human"

/-- `ALLOWED_TRANSITIONS`. -/
def LoopStatus.allowed : LoopStatus → List LoopStatus
  | .initialized => [.assessed, .planned, .blocked]
  | .assessed => [.planned, .needsHuman, .blocked]
  | .planned => [.policyChecked, .blocked]
  | .policyChecked => [.building, .verifying, .needsHuman, .blocked]
  | .building => [.verifying, .failed, .blocked]
  | .verifying => [.releasing, .feedback, .passed, .failed, .blocked]
  | .releasing => [.feedback, .passed, .failed, .blocked]
  | .feedback => [.passed, .failed, .blocked]
  | .passed => []
  | .failed => []
  | .blocked => []
  | .needsHuman => []

/-- A status that nothing follows. -/
def LoopStatus.Terminal (s : LoopStatus) : Prop := s.allowed = []

theorem terminal_passed : LoopStatus.Terminal .passed := rfl
theorem terminal_failed : LoopStatus.Terminal .failed := rfl
theorem terminal_blocked : LoopStatus.Terminal .blocked := rfl
theorem terminal_needsHuman : LoopStatus.Terminal .needsHuman := rfl

structure LoopState where
  status : LoopStatus := .initialized
  history : List LoopStatus := [.initialized]
deriving DecidableEq, Repr

/-- `LoopState.transition`. -/
def LoopState.transition (s : LoopState) (next : LoopStatus) : Except PyError LoopState :=
  if next ∈ s.status.allowed then .ok ⟨next, s.history ++ [next]⟩
  else .error (.valueError
    ("Invalid loop transition: " ++ s.status.value ++ " -> " ++ next.value))

/-- The history is a path of the table, from `initialized` to the status. -/
structure LoopState.Traced (s : LoopState) : Prop where
  start : s.history.head? = some .initialized
  path : s.history.IsChain (fun a b => b ∈ a.allowed)
  finish : s.history.getLast? = some s.status

theorem traced_initial : LoopState.Traced {} := ⟨rfl, List.isChain_singleton _, rfl⟩

theorem transition_of_allowed {s : LoopState} {next : LoopStatus} (h : next ∈ s.status.allowed) :
    s.transition next = .ok ⟨next, s.history ++ [next]⟩ := if_pos h

/-- One transition extends the path. -/
theorem transition_traced {s s' : LoopState} {next : LoopStatus} (hs : s.Traced)
    (h : s.transition next = .ok s') : s'.Traced ∧ s'.status = next := by
  unfold LoopState.transition at h
  split at h
  · rename_i hallowed
    cases h
    have hne : s.history ≠ [] := fun hnil => by
      have hstart := hs.start
      rw [hnil] at hstart
      cases hstart
    refine ⟨⟨?_, ?_, ?_⟩, rfl⟩
    · rw [List.head?_append_of_ne_nil _ hne]
      exact hs.start
    · refine List.isChain_append.mpr ⟨hs.path, List.isChain_singleton _, fun a ha b hb => ?_⟩
      rw [hs.finish] at ha
      cases ha
      cases hb
      exact hallowed
    · exact List.getLast?_concat ..
  · cases h

end Vad
