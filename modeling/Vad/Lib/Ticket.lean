/-
  Numbering the records of a log by reading its length.

  A program that appends a record first reads how long the log is, and then, in a second call,
  appends the record under the next number.  Alone this numbers the log `1, 2, …`; among others the
  log may have grown in between.

  1. `Counts` — the shape of such a program: every call either leaves the log as it is, or appends
     one record under the number that the call just before it read;
  2. `AppendsAlone` — the condition on a step: nothing is appended while another program's next
     call is an append;
  3. `exec_numbered` — under that condition the log stays numbered, whatever the schedule.
-/
import Vad.Lib.Program

namespace Atomic

variable {σ ε α β ρ : Type}

namespace Program

section Counting

variable (log : σ → List ρ) (num : ρ → Nat)

/-- Every call of `p` keeps the log, or appends one record numbered after the length that the call
    before it saw; `seen` is what was seen when `p` starts. -/
def Counts : Option Nat → Program σ ε α → Prop
  | _, done _ => True
  | seen, call next cont =>
    ((∀ s, log (next s) = log s) ∧ ∀ s, Counts (some (log s).length) (cont s)) ∨
      ∃ n, seen = some n ∧ (∀ s, ∃ r, log (next s) = log s ++ [r] ∧ num r = n + 1) ∧
        ∀ s, Counts none (cont s)

/-- `p` is about to append to the log. -/
def AppendsNext (p : Program σ ε α) : Prop :=
  ∃ next cont, p = call next cont ∧ ∃ s, log (next s) ≠ log s

variable {log num}

theorem Counts.mono {p : Program σ ε α} (h : Counts log num none p) (seen : Option Nat) :
    Counts log num seen p := by
  cases p with
  | done r => trivial
  | call next cont =>
    rcases h with h | ⟨n, hseen, -⟩
    · exact Or.inl h
    · cases hseen

theorem counts_done (r : Except ε α) : Counts log num none (done r : Program σ ε α) := trivial

theorem counts_bind {seen : Option Nat} {p : Program σ ε α} {k : α → Program σ ε β}
    (hp : Counts log num seen p) (hk : ∀ a, Counts log num none (k a)) :
    Counts log num seen (p >>= k) := by
  show Counts log num seen (bind p k)
  induction p generalizing seen with
  | done r =>
    cases r with
    | ok a => exact (hk a).mono seen
    | error e => trivial
  | call next cont ih =>
    rcases hp with ⟨hkept, hcont⟩ | ⟨n, hseen, happend, hcont⟩
    · exact Or.inl ⟨hkept, fun s => ih s (hcont s)⟩
    · exact Or.inr ⟨n, hseen, happend, fun s => ih s (hcont s)⟩

/-- Reading the length, and appending in the next call. -/
theorem counts_readThen {f : σ → Except ε α} {k : α → Program σ ε β}
    (hk : ∀ s a, f s = .ok a → Counts log num (some (log s).length) (k a)) :
    Counts log num none (atomic (fun s => (f s, s)) >>= k) := by
  refine Or.inl ⟨fun s => rfl, fun s => ?_⟩
  show Counts log num _ (bind (done (f s)) k)
  cases hf : f s with
  | ok a => exact hk s a hf
  | error e => trivial

theorem counts_append {n : Nat} {f : σ → Except ε α × σ}
    (h : ∀ s, ∃ r, log (f s).2 = log s ++ [r] ∧ num r = n + 1) :
    Counts log num (some n) (atomic f) := Or.inr ⟨n, rfl, h, fun _ => trivial⟩

end Counting

end Program

/-! ## Among others -/

namespace Pool

variable (log : σ → List ρ) (num : ρ → Nat)

/-- A thread appends only while no other thread is about to. -/
def AppendsAlone (P : Pool σ ε α) (i : Nat) : Prop :=
  ∀ p : Program σ ε α, P.threads[i]? = some p → p.AppendsNext log →
    ∀ j (q : Program σ ε α), j ≠ i → P.threads[j]? = some q → ¬ q.AppendsNext log

/-- The records are numbered from 1 on, in the order of the log. -/
def Numbered (l : List ρ) : Prop := l.map num = List.range' 1 l.length

/-- The log is numbered, and a thread about to append has seen its present length. -/
structure Counting (P : Pool σ ε α) : Prop where
  numbered : Numbered num (log P.state)
  threads : ∀ (i : Nat) (p : Program σ ε α), P.threads[i]? = some p →
    ∃ seen, p.Counts log num seen ∧ (p.AppendsNext log → seen = some (log P.state).length)

variable {log num}

theorem numbered_append {l : List ρ} {r : ρ} (h : Numbered num l) (hr : num r = l.length + 1) :
    Numbered num (l ++ [r]) := by
  rw [Numbered, List.map_append, List.map_singleton, h, hr, List.length_append,
    List.length_singleton, List.range'_concat]
  congr 2
  omega

theorem Numbered.nodup {l : List ρ} (h : Numbered num l) : (l.map num).Nodup := by
  rw [h]
  exact List.nodup_range'

theorem Numbered.sorted {l : List ρ} (h : Numbered num l) :
    l.Pairwise (fun a b => num a < num b) := by
  rw [← List.pairwise_map (f := num) (R := (· < ·)), h]
  exact List.pairwise_lt_range'

theorem not_appendsNext_of_counts {p : Program σ ε α} (h : p.Counts log num none) :
    ¬ p.AppendsNext log := by
  rintro ⟨next, cont, rfl, s, hne⟩
  rcases h with ⟨hkept, -⟩ | ⟨n, hseen, -⟩
  · exact hne (hkept s)
  · cases hseen

theorem counting_step {P : Pool σ ε α} {i : Nat} (h : Counting log num P)
    (halone : AppendsAlone log P i) : Counting log num (P.step i) := by
  rcases step_cases P i with hstay | ⟨next, cont, hi, hstep⟩
  · rw [hstay]; exact h
  obtain ⟨seen, hcounts, hfresh⟩ := h.threads i _ hi
  have hthread (j : Nat) (q : Program σ ε α) (hj : (P.step i).threads[j]? = some q) :
      (j = i ∧ q = cont P.state) ∨ (j ≠ i ∧ P.threads[j]? = some q) := by
    rw [hstep] at hj
    by_cases hji : j = i
    · subst hji
      have hlt : j < P.threads.length := (List.getElem?_eq_some_iff.mp hi).1
      rw [List.getElem?_set_self hlt] at hj
      exact Or.inl ⟨rfl, (Option.some.inj hj).symm⟩
    · rw [List.getElem?_set_ne fun h => hji h.symm] at hj
      exact Or.inr ⟨hji, hj⟩
  rcases hcounts with ⟨hkept, hcont⟩ | ⟨n, hseen, happend, hcont⟩
  · -- the log is what it was, so every number that was read is still the length
    have hlog : log (P.step i).state = log P.state := by rw [hstep]; exact hkept P.state
    refine ⟨by rw [hlog]; exact h.numbered, fun j q hj => ?_⟩
    rcases hthread j q hj with ⟨-, rfl⟩ | ⟨-, hq⟩
    · exact ⟨_, hcont P.state, fun _ => by rw [hlog]⟩
    · rw [hlog]
      exact h.threads j q hq
  · -- the log grows, but nobody else was about to append
    obtain ⟨r, hlog, hnum⟩ := happend P.state
    have hnext : Program.AppendsNext log (.call next cont : Program σ ε α) :=
      ⟨next, cont, rfl, P.state, fun heq => by simp [heq] at hlog⟩
    have hn : n = (log P.state).length := Option.some.inj (hseen.symm.trans (hfresh hnext))
    have hstate : log (P.step i).state = log P.state ++ [r] := by rw [hstep]; exact hlog
    refine ⟨by rw [hstate]; exact numbered_append h.numbered (hn ▸ hnum), fun j q hj => ?_⟩
    rcases hthread j q hj with ⟨-, rfl⟩ | ⟨hji, hq⟩
    · exact ⟨none, hcont P.state, fun hq => absurd hq (not_appendsNext_of_counts (hcont P.state))⟩
    · obtain ⟨seen', hcounts', -⟩ := h.threads j q hq
      exact ⟨seen', hcounts', fun hnext' => absurd hnext' (halone _ hi hnext j q hji hq)⟩

/-- The rule: programs that count keep a numbered log numbered, as long as each of them appends
    while no other is about to. -/
theorem exec_numbered (sched : List Nat) (P : Pool σ ε α) (hlog : Numbered num (log P.state))
    (hP : ∀ p ∈ P.threads, p.Counts log num none) (halone : Along (AppendsAlone log) P sched) :
    Numbered num (log (P.exec sched).state) := by
  have hstart : Counting log num P := ⟨hlog, fun i p hi => ⟨none, hP p (List.mem_of_getElem? hi),
    fun hnext => absurd hnext (not_appendsNext_of_counts (hP p (List.mem_of_getElem? hi)))⟩⟩
  exact (exec_along (fun P i h hG => counting_step h hG) sched P hstart halone).numbered

end Pool

end Atomic
