/-
  Counting: a number that the shared state keeps, and the results that it is the number of.

  A program tallies if none of its calls moves the count, except that one may raise it by one when
  it is the last, and then the result is one of those counted (`Tallies`).  So one result stands
  for one raise, and nothing is counted twice or missed, whatever the others do in between.

  1. **Rules** — a program that never moves the count, in front (`tallies_bind`) or alone
     (`Silent.tallies`), and the call that raises it (`tallies_atomic`).
  2. **Among others** (`Pool.exec_tally`) — under every schedule, the count has risen by the number
     of counted results.
-/
import Vad.Lib.Program

namespace Atomic

namespace Program

variable {σ ε α β : Type}

/-- No call moves the count. -/
def Silent (count : σ → Nat) : Program σ ε α → Prop
  | done _ => True
  | call next cont => ∀ s, count (next s) = count s ∧ Silent count (cont s)

/-- The count rises with the last call, if the result is counted, and never else. -/
def Tallies (count : σ → Nat) (counted : Except ε α → Bool) : Program σ ε α → Prop
  | done r => counted r = false
  | call next cont => ∀ s,
      (count (next s) = count s ∧ Tallies count counted (cont s)) ∨
      (count (next s) = count s + 1 ∧ ∃ r, cont s = done r ∧ counted r = true)

section Tallies

variable {count : σ → Nat} {counted : Except ε α → Bool} {counted' : Except ε β → Bool}

theorem silent_atomic {f : σ → Except ε α × σ} (h : ∀ s, count (f s).2 = count s) :
    Silent count (atomic f) := fun s => ⟨h s, trivial⟩

theorem silent_bind {p : Program σ ε α} {k : α → Program σ ε β} (hp : Silent count p)
    (hk : ∀ a, Silent count (k a)) : Silent count (p >>= k) := by
  show Silent count (bind p k)
  induction p with
  | done r =>
    cases r with
    | ok a => exact hk a
    | error e => trivial
  | call next cont ih => exact fun s => ⟨(hp s).1, ih s (hp s).2⟩

/-- What comes behind a program that never moves the count. -/
theorem tallies_bind {p : Program σ ε α} {k : α → Program σ ε β} (hp : Silent count p)
    (hfail : ∀ e, counted' (.error e) = false) (hk : ∀ a, Tallies count counted' (k a)) :
    Tallies count counted' (p >>= k) := by
  show Tallies count counted' (bind p k)
  induction p with
  | done r =>
    cases r with
    | ok a => exact hk a
    | error e => exact hfail e
  | call next cont ih => exact fun s => Or.inl ⟨(hp s).1, ih s (hp s).2⟩

/-- A program that never moves the count and has no counted result. -/
theorem Silent.tallies {p : Program σ ε α} (hp : Silent count p) (h : ∀ r, counted r = false) :
    Tallies count counted p := by
  induction p with
  | done r => exact h r
  | call next cont ih => exact fun s => Or.inl ⟨(hp s).1, ih s (hp s).2⟩

/-- A last call that raises the count iff its result is counted. -/
theorem tallies_atomic {f : σ → Except ε α × σ}
    (h : ∀ s, count (f s).2 = count s + (counted (f s).1).toNat) :
    Tallies count counted (atomic f) := by
  intro s
  cases hr : counted (f s).1 with
  | false => exact Or.inl ⟨by rw [h s, hr]; rfl, hr⟩
  | true => exact Or.inr ⟨by rw [h s, hr]; rfl, _, rfl, hr⟩

/-- A program whose result is turned into another one. -/
theorem tallies_map {p : Program σ ε α} (hp : Tallies count counted p) {f : α → β}
    (hf : ∀ r, counted' (Except.map f r) = counted r) :
    Tallies count counted' (p >>= fun a => pure (f a)) := by
  show Tallies count counted' (bind p _)
  induction p with
  | done r =>
    cases r with
    | ok a => exact (hf (.ok a)).trans hp
    | error e => exact (hf (.error e)).trans hp
  | call next cont ih =>
    intro s
    rcases hp s with ⟨hsame, hrest⟩ | ⟨hraise, r, hend, hr⟩
    · exact Or.inl ⟨hsame, ih s hrest⟩
    · refine Or.inr ⟨hraise, Except.map f r, ?_, (hf r).trans hr⟩
      show bind (cont s) _ = _
      rw [hend]
      cases r <;> rfl

theorem tallies_raise {e : ε} (h : counted (.error e) = false) :
    Tallies count counted (raise e) := h

theorem tallies_pure {a : α} (h : counted (.ok a) = false) :
    Tallies count counted (pure a) := h

end Tallies

end Program

namespace Pool

open Program (Tallies)

variable {σ ε α : Type} {count : σ → Nat} {counted : Except ε α → Bool}

/-- The thread has ended with a counted result. -/
def hasCounted (counted : Except ε α → Bool) : Program σ ε α → Bool
  | .done r => counted r
  | .call _ _ => false

/-- Every thread tallies, or has ended. -/
def Tallied (count : σ → Nat) (counted : Except ε α → Bool) (P : Pool σ ε α) : Prop :=
  ∀ p ∈ P.threads, Tallies count counted p ∨ ∃ r, p = .done r

/-- One thread of a list is replaced. -/
theorem countP_set {γ : Type} {f : γ → Bool} {a b : γ} (ha : f a = false) :
    ∀ {l : List γ} {i : Nat}, l[i]? = some a → (l.set i b).countP f = l.countP f + (f b).toNat := by
  intro l
  induction l with
  | nil => intro i hi; cases hi
  | cons x l ih =>
    intro i hi
    cases i with
    | zero =>
      cases hi
      rw [List.set_cons_zero, List.countP_cons, List.countP_cons, ha]
      cases f b <;> simp
    | succ i =>
      rw [List.set_cons_succ, List.countP_cons, List.countP_cons, ih hi]
      omega

theorem step_tally {P : Pool σ ε α} (i : Nat) (h : Tallied count counted P) :
    Tallied count counted (P.step i) ∧
      count (P.step i).state + P.threads.countP (hasCounted counted) =
        count P.state + (P.step i).threads.countP (hasCounted counted) := by
  rcases step_cases P i with hstep | ⟨next, cont, hi, hstep⟩
  · rw [hstep]
    exact ⟨h, rfl⟩
  · have hthread := h _ (List.mem_of_getElem? hi)
    have hcount := countP_set (f := hasCounted counted) (b := cont P.state) rfl hi
    rw [hstep]
    show Tallied count counted ⟨next P.state, P.threads.set i (cont P.state)⟩ ∧
      count (next P.state) + _ = _ + (P.threads.set i (cont P.state)).countP (hasCounted counted)
    rw [hcount]
    rcases hthread with htallies | ⟨r, hr⟩
    · rcases htallies P.state with ⟨hsame, hrest⟩ | ⟨hraise, r, hend, hr⟩
      · -- the count stays, and if this was the end, the result is not counted
        have hnone : hasCounted counted (cont P.state) = false := by
          cases hc : cont P.state with
          | done r =>
            rw [hc] at hrest
            exact hrest
          | call next' cont' => rfl
        refine ⟨fun p hp => ?_, by rw [hnone, hsame]; simp⟩
        rcases List.mem_or_eq_of_mem_set hp with hp | rfl
        · exact h p hp
        · exact Or.inl hrest
      · have hone : hasCounted counted (cont P.state) = true := by
          rw [hend]
          exact hr
        refine ⟨fun p hp => ?_, by rw [hone, hraise, Bool.toNat_true]; omega⟩
        rcases List.mem_or_eq_of_mem_set hp with hp | rfl
        · exact h p hp
        · exact Or.inr ⟨r, hend⟩
    · cases hr

/-- The count has risen by the number of counted results. -/
theorem exec_tally : ∀ (sched : List Nat) (P : Pool σ ε α), Tallied count counted P →
    count (P.exec sched).state + P.threads.countP (hasCounted counted) =
      count P.state + (P.exec sched).threads.countP (hasCounted counted) := by
  intro sched
  induction sched with
  | nil => exact fun P _ => rfl
  | cons i rest ih =>
    intro P h
    obtain ⟨hnext, hstep⟩ := step_tally i h
    have hrest := ih (P.step i) hnext
    show count ((P.step i).exec rest).state + _ = _ +
      ((P.step i).exec rest).threads.countP (hasCounted counted)
    omega

end Pool

end Atomic
