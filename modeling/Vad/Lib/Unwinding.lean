/-
  Runs in which one party's actions are all that its view depends on.

  A run is a list of actions, and some of them are a party's own.  A relation unwinds the run when a
  step by an own action leads related states to related ones, and any other step leads to a state
  that is still related to the one before.  Then the run is related to the run of the own actions
  alone (`run_own`).  Both may be asked for allowed steps only.
-/
import Mathlib.Tactic.Common

namespace Unwinding

variable {σ α : Type} {step : σ → α → σ}

/-- The state after the actions. -/
def run (step : σ → α → σ) (s : σ) (actions : List α) : σ := actions.foldl step s

theorem run_snoc (s : σ) (actions : List α) (a : α) :
    run step s (actions ++ [a]) = step (run step s actions) a := by
  rw [run, List.foldl_append]
  rfl

/-- Each step of the run is allowed where it is taken. -/
def Along (step : σ → α → σ) (allowed : σ → α → Prop) : σ → List α → Prop
  | _, [] => True
  | s, a :: rest => allowed s a ∧ Along step allowed (step s a) rest

theorem along_iff {allowed : σ → α → Prop} {s : σ} {actions : List α} :
    Along step allowed s actions ↔
      ∀ done a rest, actions = done ++ a :: rest → allowed (run step s done) a := by
  induction actions generalizing s with
  | nil => simp [Along]
  | cons first rest ih =>
    show allowed s first ∧ Along step allowed (step s first) rest ↔ _
    rw [ih]
    constructor
    · rintro ⟨hfirst, hrest⟩ done a rest' heq
      cases done with
      | nil =>
        obtain ⟨rfl, -⟩ := List.cons.inj heq
        exact hfirst
      | cons b done =>
        obtain ⟨rfl, hmore⟩ := List.cons.inj heq
        exact hrest done a rest' hmore
    · intro h
      exact ⟨h [] first rest rfl, fun done a rest' heq => h (first :: done) a rest' (by rw [heq]; rfl)⟩

/-- What is true before the first step and kept by every step is true after the run. -/
theorem run_invariant {inv : σ → Prop} {actions : List α}
    (hstep : ∀ s, ∀ a ∈ actions, inv s → inv (step s a)) {s : σ} (hs : inv s) :
    inv (run step s actions) := by
  induction actions generalizing s with
  | nil => exact hs
  | cons a rest ih =>
    exact ih (fun s b hb => hstep s b (List.mem_cons_of_mem a hb))
      (hstep s a List.mem_cons_self hs)

/-- A relation of a run with the run of the own actions alone. -/
structure Unwinds (step : σ → α → σ) (allowed : σ → α → Prop) (own : α → Bool)
    (R : σ → σ → Prop) : Prop where
  inside : ∀ s s' a, R s s' → allowed s a → own a = true → R (step s a) (step s' a)
  outside : ∀ s s' a, R s s' → allowed s a → own a = false → R (step s a) s'

theorem Unwinds.run_own {allowed : σ → α → Prop} {own : α → Bool} {R : σ → σ → Prop}
    (h : Unwinds step allowed own R) {s s' : σ} (hR : R s s') {actions : List α}
    (hallowed : Along step allowed s actions) :
    R (run step s actions) (run step s' (actions.filter own)) := by
  induction actions generalizing s s' with
  | nil => exact hR
  | cons a rest ih =>
    obtain ⟨ha, hrest⟩ := hallowed
    by_cases hown : own a = true
    · rw [List.filter_cons_of_pos hown]
      exact ih (h.inside s s' a hR ha hown) hrest
    · rw [List.filter_cons_of_neg hown]
      exact ih (h.outside s s' a hR ha (by simpa using hown)) hrest

end Unwinding
