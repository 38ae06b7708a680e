/-
  Rely and guarantee: what one thread of a pool may conclude while others take calls in between.

  The threads share an invariant `I` and a relation `R` between states, reflexive and transitive,
  along which every call of every thread goes.  `Rely I R post err pre p` says of one thread:
  started where `pre` holds, it keeps `I` and goes along `R`, and where it ends, `post` holds of
  what it returns or `err` of what it raises, no matter how often the others have moved the state
  along `R` before each of its calls.

  1. **Rules** — an atomic call (`rely_atomic`), sequencing (`rely_bind`), a weaker conclusion or a
     stronger assumption (`Rely.mono`).
  2. **Alone** (`Rely.run`) — nobody interferes.
  3. **Among others** (`Pool.exec_rely`) — if every thread relies on `R` and guarantees it, then
     under every schedule each has its conclusion (`Pool.exec_returned`).
-/
import Vad.Lib.Program

namespace Atomic

namespace Program

variable {σ ε α β : Type}

def Rely (I : σ → Prop) (R : σ → σ → Prop) (post : α → σ → Prop) (err : ε → σ → Prop) :
    (σ → Prop) → Program σ ε α → Prop
  | pre, done (.ok a) => ∀ s, I s → pre s → post a s
  | pre, done (.error e) => ∀ s, I s → pre s → err e s
  | pre, call next cont => ∀ s, I s → pre s →
      I (next s) ∧ R s (next s) ∧ Rely I R post err (R (next s)) (cont s)

section Rely

variable {I : σ → Prop} {R : σ → σ → Prop} {err : ε → σ → Prop}

theorem Rely.mono {post post' : α → σ → Prop} {pre pre' : σ → Prop} {p : Program σ ε α}
    (h : Rely I R post err pre p) (hpre : ∀ s, I s → pre' s → pre s)
    (hpost : ∀ a s, I s → post a s → post' a s) : Rely I R post' err pre' p := by
  induction p generalizing pre pre' with
  | done r =>
    cases r with
    | ok a => exact fun s hI hs => hpost a s hI (h s hI (hpre s hI hs))
    | error e => exact fun s hI hs => h s hI (hpre s hI hs)
  | call next cont ih =>
    intro s hI hs
    obtain ⟨hnext, hR, hrest⟩ := h s hI (hpre s hI hs)
    exact ⟨hnext, hR, ih s hrest fun _ _ h => h⟩

theorem rely_pure {post : α → σ → Prop} {pre : σ → Prop} {a : α}
    (h : ∀ s, I s → pre s → post a s) : Rely I R post err pre (pure a) := h

theorem rely_raise {post : α → σ → Prop} {pre : σ → Prop} {e : ε}
    (h : ∀ s, I s → pre s → err e s) : Rely I R post err pre (raise e) := h

theorem rely_atomic {post : α → σ → Prop} {pre : σ → Prop} {f : σ → Except ε α × σ}
    (hstep : ∀ s, I s → pre s → I (f s).2 ∧ R s (f s).2)
    (hpost : ∀ s a, I s → pre s → (f s).1 = .ok a → ∀ s', I s' → R (f s).2 s' → post a s')
    (herr : ∀ s e, I s → pre s → (f s).1 = .error e → ∀ s', I s' → R (f s).2 s' → err e s') :
    Rely I R post err pre (atomic f) := by
  intro s hI hs
  refine ⟨(hstep s hI hs).1, (hstep s hI hs).2, ?_⟩
  show Rely I R post err (R (f s).2) (done (f s).1)
  cases hr : (f s).1 with
  | ok a => exact hpost s a hI hs hr
  | error e => exact herr s e hI hs hr

/-- The rule for sequencing. -/
theorem rely_bind {mid : α → σ → Prop} {post : β → σ → Prop} {pre : σ → Prop}
    {p : Program σ ε α} {k : α → Program σ ε β} (hp : Rely I R mid err pre p)
    (hk : ∀ a, Rely I R post err (mid a) (k a)) : Rely I R post err pre (p >>= k) := by
  show Rely I R post err pre (bind p k)
  induction p generalizing pre with
  | done r =>
    cases r with
    | ok a => exact (hk a).mono (fun s hI hs => hp s hI hs) fun _ _ _ h => h
    | error e => exact hp
  | call next cont ih =>
    intro s hI hs
    obtain ⟨hnext, hR, hrest⟩ := hp s hI hs
    exact ⟨hnext, hR, ih s hrest⟩

/-- The same, with what holds between the two. -/
theorem rely_through (mid : α → σ → Prop) {post : β → σ → Prop} {pre : σ → Prop}
    {p : Program σ ε α} {k : α → Program σ ε β} (hp : Rely I R mid err pre p)
    (hk : ∀ a, Rely I R post err (mid a) (k a)) : Rely I R post err pre (p >>= k) :=
  rely_bind hp hk

/-- Where nothing can be, anything holds. -/
theorem rely_of_never {post : α → σ → Prop} {pre : σ → Prop} {p : Program σ ε α}
    (h : ∀ s, I s → ¬ pre s) : Rely I R post err pre p := by
  cases p with
  | done r =>
    cases r with
    | ok a => exact fun s hI hs => absurd hs (h s hI)
    | error e => exact fun s hI hs => absurd hs (h s hI)
  | call next cont => exact fun s hI hs => absurd hs (h s hI)

/-- A read of the shared state, of which the rest of the program knows what others keep. -/
theorem rely_read {mid : α → σ → Prop} {pre : σ → Prop} {f : σ → α} (hrefl : ∀ s, R s s)
    (hmid : ∀ s, I s → pre s → ∀ s', I s' → R s s' → mid (f s) s') :
    Rely I R mid err pre (atomic fun s => (.ok (f s), s)) := by
  refine rely_atomic (fun s hI _ => ⟨hI, hrefl s⟩) ?_ ?_
  · intro s a hI hs ha s' hI' hR
    rw [← Except.ok.inj ha]
    exact hmid s hI hs s' hI' hR
  · intro s e _ _ he
    cases he

/-- A program that runs alone. -/
theorem Rely.run {post : α → σ → Prop} {pre : σ → Prop} {p : Program σ ε α}
    (h : Rely I R post err pre p) (hrefl : ∀ s, R s s)
    (htrans : ∀ {a b c}, R a b → R b c → R a c) {s : σ} (hI : I s) (hs : pre s) :
    I (p.run s).2 ∧ R s (p.run s).2 ∧ (∀ a, (p.run s).1 = .ok a → post a (p.run s).2) ∧
      ∀ e, (p.run s).1 = .error e → err e (p.run s).2 := by
  induction p generalizing pre s with
  | done r =>
    refine ⟨hI, hrefl s, fun a ha => ?_, fun e he => ?_⟩
    · change r = .ok a at ha
      subst ha
      exact h s hI hs
    · change r = .error e at he
      subst he
      exact h s hI hs
  | call next cont ih =>
    obtain ⟨hnext, hR, hrest⟩ := h s hI hs
    obtain ⟨hI', hR', hends⟩ := ih s hrest hnext (hrefl (next s))
    exact ⟨hI', htrans hR hR', hends⟩

end Rely

end Program

namespace Pool

open Program (Rely)

variable {σ ε α : Type} {I : σ → Prop} {R : σ → σ → Prop} {post : α → σ → Prop}
  {err : ε → σ → Prop}

/-- Every thread still has its conclusion ahead, from where the pool is. -/
def Ahead (I : σ → Prop) (R : σ → σ → Prop) (post : α → σ → Prop) (err : ε → σ → Prop)
    (P : Pool σ ε α) : Prop :=
  I P.state ∧ ∀ p ∈ P.threads, Rely I R post err (R P.state) p

theorem step_rely (hrefl : ∀ s, R s s) (htrans : ∀ {a b c}, R a b → R b c → R a c)
    {P : Pool σ ε α} (i : Nat) (h : Ahead I R post err P) :
    Ahead I R post err (P.step i) ∧ R P.state (P.step i).state := by
  obtain ⟨hI, hP⟩ := h
  rcases step_cases P i with hstep | ⟨next, cont, hi, hstep⟩
  · rw [hstep]
    exact ⟨⟨hI, hP⟩, hrefl _⟩
  · obtain ⟨hnext, hR, hrest⟩ := hP _ (List.mem_of_getElem? hi) P.state hI (hrefl _)
    rw [hstep]
    refine ⟨⟨hnext, fun p hp => ?_⟩, hR⟩
    rcases List.mem_or_eq_of_mem_set hp with hp | rfl
    · -- the others have been relying on more states than are left
      exact (hP p hp).mono (fun _ _ h => htrans hR h) fun _ _ _ h => h
    · exact hrest

/-- The rule for a pool of threads that rely on each other. -/
theorem exec_rely (hrefl : ∀ s, R s s) (htrans : ∀ {a b c}, R a b → R b c → R a c) :
    ∀ (sched : List Nat) (P : Pool σ ε α), Ahead I R post err P →
      Ahead I R post err (P.exec sched) ∧ R P.state (P.exec sched).state := by
  intro sched
  induction sched with
  | nil => exact fun P h => ⟨h, hrefl _⟩
  | cons i rest ih =>
    intro P h
    obtain ⟨hahead, hR⟩ := step_rely hrefl htrans i h
    obtain ⟨hend, hrest⟩ := ih (P.step i) hahead
    exact ⟨hend, htrans hR hrest⟩

/-- What a thread that has returned concludes. -/
theorem Ahead.returned {P : Pool σ ε α} (h : Ahead I R post err P) (hrefl : ∀ s, R s s) {a : α}
    (ha : .done (.ok a) ∈ P.threads) : post a P.state :=
  h.2 _ ha P.state h.1 (hrefl _)

/-- What a thread that has raised concludes. -/
theorem Ahead.raised {P : Pool σ ε α} (h : Ahead I R post err P) (hrefl : ∀ s, R s s) {e : ε}
    (he : .done (.error e) ∈ P.threads) : err e P.state :=
  h.2 _ he P.state h.1 (hrefl _)

end Pool

end Atomic
