/-
  Calls that answer or raise, made one after the other on one object, and the log they leave.

  A call takes the object to what it answers and to the object it leaves behind.  Over a run of
  calls:

  1. **Answers** (`log_run`) — if a call that answers writes its answer at the end of a log, and a
     call that raises leaves the object alone (`Clean`), then the log is what it was, and behind it
     the answers of the run.
  2. **Counts** (`counter_run`) — a number that grows by one with each call of a kind, and with no
     other, has grown by the number of these calls, each judged on the object it finds.
  3. **Rest** (`run_at_rest`) — an object that no call changes is what any run leaves.
  4. **Trails** (`Trail`) — a log whose entries say where they come from and where they lead is a
     walk from the start to where the object is now; it ends where no step is allowed
     (`Trail.ends`).
-/
import Vad.Lib.Unwinding
import Mathlib.Data.List.Chain

namespace Attempts

variable {σ α β ε : Type}

/-- The object that a call leaves. -/
def next (call : σ → α → Except ε β × σ) (s : σ) (a : α) : σ := (call s a).2

/-- The object that the calls leave, one after the other. -/
def run (call : σ → α → Except ε β × σ) (s : σ) (calls : List α) : σ :=
  Unwinding.run (next call) s calls

/-- A call that raises leaves the object as it was. -/
def Clean (call : σ → α → Except ε β × σ) : Prop :=
  ∀ s a e, (call s a).1 = .error e → (call s a).2 = s

/-- The answers of the calls that returned. -/
def answered (call : σ → α → Except ε β × σ) : σ → List α → List β
  | _, [] => []
  | s, a :: rest => (call s a).1.toOption.toList ++ answered call (next call s a) rest

/-- How many calls are of the kind on the object that they find. -/
def counted (call : σ → α → Except ε β × σ) (kind : σ → α → Bool) : σ → List α → Nat
  | _, [] => 0
  | s, a :: rest => (if kind s a then 1 else 0) + counted call kind (next call s a) rest

section Runs

variable {call : σ → α → Except ε β × σ}

theorem run_cons (s : σ) (a : α) (rest : List α) :
    run call s (a :: rest) = run call (next call s a) rest := rfl

theorem run_append (s : σ) (calls more : List α) :
    run call s (calls ++ more) = run call (run call s calls) more :=
  List.foldl_append

theorem run_invariant {inv : σ → Prop} (hstep : ∀ s a, inv s → inv (next call s a)) {s : σ}
    (hs : inv s) (calls : List α) : inv (run call s calls) :=
  Unwinding.run_invariant (fun s a _ h => hstep s a h) hs

/-- The log grows by the answers. -/
theorem log_run (hclean : Clean call) {log : σ → List β}
    (hlog : ∀ s a b, (call s a).1 = .ok b → log (call s a).2 = log s ++ [b]) (s : σ)
    (calls : List α) : log (run call s calls) = log s ++ answered call s calls := by
  induction calls generalizing s with
  | nil => exact (List.append_nil _).symm
  | cons a rest ih =>
    have hstep : log (next call s a) = log s ++ (call s a).1.toOption.toList := by
      unfold next
      cases hanswer : (call s a).1 with
      | error e =>
        rw [hclean s a e hanswer]
        exact (List.append_nil _).symm
      | ok b => exact hlog s a b hanswer
    calc log (run call s (a :: rest))
        = log (next call s a) ++ answered call (next call s a) rest := ih _
      _ = log s ++ answered call s (a :: rest) := by rw [hstep, List.append_assoc]; rfl

/-- The number grows by the calls of the kind. -/
theorem counter_run {kind : σ → α → Bool} {counter : σ → Int}
    (hcount : ∀ s a, counter (next call s a) = counter s + if kind s a then 1 else 0) (s : σ)
    (calls : List α) : counter (run call s calls) = counter s + counted call kind s calls := by
  induction calls generalizing s with
  | nil => exact (Int.add_zero _).symm
  | cons a rest ih =>
    have hrest := ih (next call s a)
    have hfirst := hcount s a
    show counter (run call (next call s a) rest) =
      counter s + (((if kind s a then 1 else 0) + counted call kind (next call s a) rest : Nat) : Int)
    by_cases hkind : kind s a = true
    · rw [if_pos hkind] at hfirst ⊢
      omega
    · rw [if_neg hkind] at hfirst ⊢
      omega

/-- No call of a run changes what no call changes. -/
theorem run_at_rest {s : σ} (hrest : ∀ a, next call s a = s) (calls : List α) :
    run call s calls = s := by
  induction calls with
  | nil => rfl
  | cons a rest ih => rw [run_cons, hrest a, ih]

end Runs

/-! ## Trails -/

/-- The log is a walk by allowed steps from the start to where we are now: the first entry comes
    from nowhere, every other one from where the one before it leads. -/
structure Trail (allowed : σ → σ → Prop) (source : β → Option σ) (target : β → σ) (start : σ)
    (log : List β) (now : σ) : Prop where
  opens : ∃ first rest, log = first :: rest ∧ source first = none ∧ target first = start
  chain : log.IsChain fun e e' => source e' = some (target e) ∧ allowed (target e) (target e')
  last : log.getLast?.map target = some now

namespace Trail

variable {allowed : σ → σ → Prop} {source : β → Option σ} {target : β → σ} {start now : σ}
  {log : List β}

theorem single {e : β} (hsource : source e = none) (htarget : target e = start) :
    Trail allowed source target start [e] start where
  opens := ⟨e, [], rfl, hsource, htarget⟩
  chain := List.isChain_singleton e
  last := congrArg some htarget

/-- One more step. -/
theorem step (h : Trail allowed source target start log now) {e : β} {there : σ}
    (hsource : source e = some now) (htarget : target e = there) (hallowed : allowed now there) :
    Trail allowed source target start (log ++ [e]) there := by
  obtain ⟨first, rest, hlog, hfirst, hstart⟩ := h.opens
  refine ⟨⟨first, rest ++ [e], by rw [hlog]; rfl, hfirst, hstart⟩, ?_, ?_⟩
  · refine List.IsChain.append h.chain (List.isChain_singleton e) ?_
    intro x hx y hy
    obtain rfl : y = e := by simpa using hy.symm
    have hnow : target x = now := by
      have hlast := h.last
      rw [Option.mem_def.mp hx] at hlast
      exact Option.some.inj hlast
    rw [hnow, htarget]
    exact ⟨hsource, hallowed⟩
  · rw [List.getLast?_concat]
    exact congrArg some htarget

/-- Nothing stands behind an entry that leads to where no step is allowed. -/
theorem ends (h : Trail allowed source target start log now) {before later : List β} {e : β}
    (hlog : log = before ++ e :: later) (hend : ∀ s, ¬ allowed (target e) s) : later = [] := by
  cases later with
  | nil => rfl
  | cons e' later =>
    have hchain := h.chain
    rw [hlog] at hchain
    have hstep := (List.isChain_append_cons_cons.mp hchain).2.1
    exact absurd hstep.2 (hend _)

end Trail

end Attempts
