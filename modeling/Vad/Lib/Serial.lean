/-
  When programs over one state can be put in a sequential order.

  Requests that run among others are serializable when what they did could have been done by the
  same requests one after another.  This file gives the condition under which that holds of
  programs each of which writes at one point of its run, and proves it.

  1. **Two runs side by side** — `Agree R Q p q`: `p` and `q`, call by call, lead related states to
     related states and end in related results.
  2. **What is observed** — an `Observer` says which states and which results count as the same;
     what it does not see (a log, the number of a record) may depend on the schedule.
  3. **One write** — a `Transaction` reads, changes the observed state in at most one call, and
     leaves it alone after that.  A program that is `Detached` neither changes nor reads it.
  4. **The theorem** — in a run in which, whenever a thread changes the observed state, every other
     thread has not begun or is detached (`WritesAlone`), the threads that wrote and those that
     only read stand in one sequential order (`exec_serial`), and once all have ended their answers
     are the ones of that order (`Serial.endsInTurn`).
-/
import Vad.Lib.Program
import Mathlib.Data.List.Perm.Basic
import Mathlib.Data.List.Nodup

namespace Atomic

namespace Program

variable {σ ε α β γ δ : Type}

/-! ## Two runs side by side -/

/-- Both end in values related by `Q`, or in the same exception. -/
def SameResult (Q : α → β → Prop) : Except ε α → Except ε β → Prop
  | .ok a, .ok b => Q a b
  | .error e, .error e' => e = e'
  | _, _ => False

/-- From related states, the calls of `p` and `q` lead to related states and their results are
    related, whatever related states are put between the calls. -/
def Agree (R : σ → σ → Prop) (Q : α → β → Prop) : Program σ ε α → Program σ ε β → Prop
  | done r, done r' => SameResult Q r r'
  | call next cont, call next' cont' =>
    ∀ s s', R s s' → R (next s) (next' s') ∧ Agree R Q (cont s) (cont' s')
  | _, _ => False

section Agree

variable {R : σ → σ → Prop} {Q : α → β → Prop}

theorem agree_pure {a : α} {b : β} (h : Q a b) :
    Agree R Q (pure a : Program σ ε α) (pure b : Program σ ε β) := h

theorem agree_raise (e : ε) : Agree R Q (raise e : Program σ ε α) (raise e : Program σ ε β) := rfl

theorem agree_atomic {f : σ → Except ε α × σ} {g : σ → Except ε β × σ}
    (h : ∀ s s', R s s' → R (f s).2 (g s').2 ∧ SameResult Q (f s).1 (g s').1) :
    Agree R Q (atomic f) (atomic g) := h

theorem agree_bind {Q' : γ → δ → Prop} {p : Program σ ε α} {q : Program σ ε β}
    {k : α → Program σ ε γ} {l : β → Program σ ε δ} (h : Agree R Q p q)
    (hk : ∀ a b, Q a b → Agree R Q' (k a) (l b)) : Agree R Q' (p >>= k) (q >>= l) := by
  show Agree R Q' (bind p k) (bind q l)
  induction p generalizing q with
  | done r =>
    cases q with
    | call next' cont' => exact h.elim
    | done r' =>
      cases r <;> cases r'
      · exact h
      · exact h.elim
      · exact h.elim
      · exact hk _ _ h
  | call next cont ih =>
    cases q with
    | done r' => exact h.elim
    | call next' cont' => exact fun s s' hs => ⟨(h s s' hs).1, ih s (h s s' hs).2⟩

/-- Programs whose loop bodies agree on each element. -/
theorem agree_forEach {f g : γ → Program σ ε α} (h : ∀ c, Agree R (· = ·) (f c) (g c)) :
    ∀ l : List γ, Agree R (· = ·) (forEach l f) (forEach l g) := by
  intro l
  induction l with
  | nil => exact agree_pure rfl
  | cons c l ih =>
    refine agree_bind (h c) fun a b hab => agree_bind ih fun as bs habs => ?_
    exact agree_pure (by rw [hab, habs])

/-- Run alone from related states, programs that agree end in related states and results. -/
theorem Agree.run {p : Program σ ε α} {q : Program σ ε β} (h : Agree R Q p q) {s s' : σ}
    (hs : R s s') : SameResult Q (run p s).1 (run q s').1 ∧ R (run p s).2 (run q s').2 := by
  induction p generalizing q s s' with
  | done r =>
    cases q with
    | done r' => exact ⟨h, hs⟩
    | call next' cont' => exact h.elim
  | call next cont ih =>
    cases q with
    | done r' => exact h.elim
    | call next' cont' => exact ih s (h s s' hs).2 (h s s' hs).1

end Agree

end Program

open Program

/-! ## What is left of a program -/

/-- `q` is what is left of `p` after one call or more. -/
inductive Program.After {σ ε α : Type} : Program σ ε α → Program σ ε α → Prop where
  | one {next : σ → σ} {cont : σ → Program σ ε α} (s : σ) : After (.call next cont) (cont s)
  | more {next : σ → σ} {cont : σ → Program σ ε α} {q : Program σ ε α} (s : σ)
      (h : After (cont s) q) : After (.call next cont) q

section After

variable {σ ε α : Type}

theorem Program.After.trans {p q r : Program σ ε α} (h : After p q) (h' : After q r) :
    After p r := by
  induction h with
  | one s => exact .more s h'
  | more s _ ih => exact .more s (ih h')

theorem Program.After.call {p : Program σ ε α} {next : σ → σ} {cont : σ → Program σ ε α}
    (h : After p (.call next cont)) (s : σ) : After p (cont s) := h.trans (.one s)

/-- What is left of a program is another program. -/
theorem Program.After.ne {p : Program σ ε α} : ∀ {q}, After p q → q ≠ p := by
  induction p with
  | done r => intro q h; cases h
  | call next cont ih =>
    intro q h heq
    cases h with
    | one s =>
      have hself : After (.call next cont) (cont s) := .one s
      rw [← heq] at hself
      exact ih s hself rfl
    | more s h =>
      rw [heq] at h
      exact ih s (h.call s) rfl

end After

/-! ## What is observed -/

/-- What counts of the states and results of programs over `σ`. -/
structure Observer (σ α β : Type) where
  /-- The states considered. -/
  inv : σ → Prop
  /-- The states look the same. -/
  same : σ → σ → Prop
  equivalence : Equivalence same
  /-- What is seen of a result. -/
  view : α → β

namespace Observer

variable {σ ε α β : Type} (O : Observer σ α β)

/-- Two considered states that look the same. -/
def Near (s s' : σ) : Prop := O.inv s ∧ O.inv s' ∧ O.same s s'

/-- The considered states that look like `s`. -/
def Around (s v : σ) : Prop := O.inv v ∧ O.same s v

/-- The results look the same. -/
def SameAnswer (r r' : Except ε α) : Prop := r.map O.view = r'.map O.view

theorem sameAnswer_of_sameResult {r r' : Except ε α}
    (h : SameResult (fun a b => O.view a = O.view b) r r') : O.SameAnswer r r' := by
  cases r <;> cases r'
  · exact congrArg Except.error h
  · exact h.elim
  · exact h.elim
  · exact congrArg Except.ok h

/-- What is seen of the run depends only on what is seen of the states. -/
def Steady (p : Program σ ε α) : Prop := Agree O.Near (fun a b => O.view a = O.view b) p p

/-- A program that neither changes what is observed nor depends on it. -/
structure Detached (p : Program σ ε α) : Prop where
  safe : Safe O.inv O.same p
  agree : Agree (fun s s' => O.inv s ∧ O.inv s') (fun a b => O.view a = O.view b) p p

/-- A program that changes what is observed in at most one call, and none of whose later calls
    changes it from what that one made it. -/
def OneWrite {γ : Type} : Program σ ε γ → Prop
  | .done _ => True
  | .call next cont => ∀ s, O.inv s → O.inv (next s) ∧
      (O.same s (next s) ∧ OneWrite (cont s) ∨ Safe (O.Around (next s)) O.same (cont s))

/-- A program that reads, writes once, and does both as far as the observer can see. -/
structure Transaction (p : Program σ ε α) : Prop where
  steady : O.Steady p
  oneWrite : O.OneWrite p

variable {O}

theorem SameAnswer.trans {r r' r'' : Except ε α} (h : O.SameAnswer r r')
    (h' : O.SameAnswer r' r'') : O.SameAnswer r r'' := Eq.trans h h'

theorem SameAnswer.symm {r r' : Except ε α} (h : O.SameAnswer r r') : O.SameAnswer r' r :=
  Eq.symm h

theorem Around.refl {s : σ} (h : O.inv s) : O.Around s s := ⟨h, O.equivalence.refl s⟩

theorem Around.of_same {s t v : σ} (h : O.Around s v) (hs : O.same s t) : O.Around t v :=
  ⟨h.1, O.equivalence.trans (O.equivalence.symm hs) h.2⟩

theorem around_eq {s t : σ} (h : O.same s t) : O.Around s = O.Around t := by
  funext v
  exact propext ⟨fun hv => hv.of_same h, fun hv => hv.of_same (O.equivalence.symm h)⟩

theorem Around.near {s v w : σ} (hv : O.Around s v) (hw : O.Around s w) : O.Near v w :=
  ⟨hv.1, hw.1, O.equivalence.trans (O.equivalence.symm hv.2) hw.2⟩

theorem near_self {s : σ} (h : O.inv s) : O.Near s s := ⟨h, h, O.equivalence.refl s⟩

section Rules

variable {γ δ : Type}

/-! ### Rules for one write -/

/-- What changes nothing observed stays within the states that look the same. -/
theorem safe_around {p : Program σ ε γ} (h : Safe O.inv O.same p) (u : σ) :
    Safe (O.Around u) O.same p := by
  induction p with
  | done r => trivial
  | call next cont ih =>
    intro s hs
    obtain ⟨hsame, hinv, hrest⟩ := h s hs.1
    exact ⟨hsame, ⟨hinv, O.equivalence.trans hs.2 hsame⟩, ih s hrest⟩

/-- A program that changes nothing observed is a transaction's reading part. -/
theorem oneWrite_of_safe {p : Program σ ε γ} (h : Safe O.inv O.same p) : O.OneWrite p := by
  induction p with
  | done r => trivial
  | call next cont ih =>
    intro s hs
    obtain ⟨hsame, hinv, hrest⟩ := h s hs
    exact ⟨hinv, Or.inl ⟨hsame, ih s hrest⟩⟩

/-- Reading first. -/
theorem oneWrite_bind {p : Program σ ε γ} {k : γ → Program σ ε δ} (hp : Safe O.inv O.same p)
    (hk : ∀ a, O.OneWrite (k a)) : O.OneWrite (p >>= k) := by
  show O.OneWrite (Program.bind p k)
  induction p with
  | done r =>
    cases r with
    | ok a => exact hk a
    | error e => trivial
  | call next cont ih =>
    intro s hs
    obtain ⟨hsame, hinv, hrest⟩ := hp s hs
    exact ⟨hinv, Or.inl ⟨hsame, ih s hrest⟩⟩

/-- Going on without another write. -/
theorem OneWrite.bind_safe {p : Program σ ε γ} {k : γ → Program σ ε δ} (hp : O.OneWrite p)
    (hk : ∀ a, Safe O.inv O.same (k a)) : O.OneWrite (p >>= k) := by
  show O.OneWrite (Program.bind p k)
  induction p with
  | done r =>
    cases r with
    | ok a => exact oneWrite_of_safe (hk a)
    | error e => trivial
  | call next cont ih =>
    intro s hs
    obtain ⟨hinv, ⟨hsame, hrest⟩ | hrest⟩ := hp s hs
    · exact ⟨hinv, Or.inl ⟨hsame, ih s hrest⟩⟩
    · exact ⟨hinv, Or.inr (safe_bind hrest fun a => safe_around (hk a) _)⟩

/-- What `Detached` asks of two states, two states that look the same have. -/
theorem agree_near {Q : γ → δ → Prop} {p : Program σ ε γ} {q : Program σ ε δ}
    (hp : Safe O.inv O.same p) (hq : Safe O.inv O.same q)
    (h : Agree (fun s s' => O.inv s ∧ O.inv s') Q p q) : Agree O.Near Q p q := by
  induction p generalizing q with
  | done r =>
    cases q with
    | done r' => exact h
    | call next' cont' => exact h.elim
  | call next cont ih =>
    cases q with
    | done r' => exact h.elim
    | call next' cont' =>
      intro s s' hs
      obtain ⟨hsame, hinv, hrest⟩ := hp s hs.1
      obtain ⟨hsame', hinv', hrest'⟩ := hq s' hs.2.1
      refine ⟨⟨hinv, hinv', ?_⟩, ih s hrest hrest' (h s s' ⟨hs.1, hs.2.1⟩).2⟩
      exact O.equivalence.trans (O.equivalence.symm hsame) (O.equivalence.trans hs.2.2 hsame')

end Rules

theorem Detached.steady {p : Program σ ε α} (h : O.Detached p) : O.Steady p :=
  agree_near h.safe h.safe h.agree

theorem detached_done (r : Except ε α) : O.Detached (.done r) :=
  ⟨trivial, by cases r <;> rfl⟩

/-- Two runs of a steady program from states that look the same. -/
theorem Steady.run {p : Program σ ε α} (h : O.Steady p) {v w : σ} (hvw : O.Near v w) :
    O.SameAnswer (Program.run p v).1 (Program.run p w).1 ∧
      O.Near (Program.run p v).2 (Program.run p w).2 :=
  ⟨O.sameAnswer_of_sameResult (Agree.run h hvw).1, (Agree.run h hvw).2⟩

/-! ## Where a thread stands -/

variable (O) in
/-- What is left of a thread, `p`, does from `u` what the whole program `p₀` does from there. -/
structure Follows (u : σ) (p p₀ : Program σ ε α) : Prop where
  oneWrite : O.OneWrite p
  steady : O.Steady p
  answer : ∀ v, O.Around u v → O.SameAnswer (Program.run p v).1 (Program.run p₀ v).1
  state : ∀ v, O.Around u v → O.same (Program.run p v).2 (Program.run p₀ v).2

variable (O) in
/-- What is left of a thread changes nothing observed any more, and its answer is `r`. -/
structure Stable (u : σ) (p : Program σ ε α) (r : Except ε α) : Prop where
  safe : Safe (O.Around u) O.same p
  steady : O.Steady p
  answer : ∀ v, O.Around u v → O.SameAnswer (Program.run p v).1 r

theorem Transaction.follows {p : Program σ ε α} (h : O.Transaction p) (u : σ) :
    O.Follows u p p := ⟨h.oneWrite, h.steady, fun _ _ => rfl, fun _ _ => O.equivalence.refl _⟩

theorem Follows.of_same {u u' : σ} {p p₀ : Program σ ε α} (h : O.Follows u p p₀)
    (hu : O.same u u') : O.Follows u' p p₀ :=
  ⟨h.oneWrite, h.steady, around_eq hu ▸ h.answer, around_eq hu ▸ h.state⟩

theorem Stable.of_same {u u' : σ} {p : Program σ ε α} {r : Except ε α} (h : O.Stable u p r)
    (hu : O.same u u') : O.Stable u' p r :=
  ⟨around_eq hu ▸ h.safe, h.steady, around_eq hu ▸ h.answer⟩

/-- A detached thread does not care for what is observed. -/
theorem Stable.move {u u' : σ} {p : Program σ ε α} {r : Except ε α} (h : O.Stable u p r)
    (hp : O.Detached p) (hu : O.inv u) : O.Stable u' p r := by
  refine ⟨safe_around hp.safe u', h.steady, fun v hv => ?_⟩
  have hrun := @Agree.run _ _ _ _ _ _ _ _ hp.agree v u ⟨hv.1, hu⟩
  exact (O.sameAnswer_of_sameResult hrun.1).trans (h.answer u (Around.refl hu))

theorem Steady.cont {next : σ → σ} {cont : σ → Program σ ε α}
    (h : O.Steady (.call next cont)) {u : σ} (hu : O.inv u) : O.Steady (cont u) :=
  (h u u (near_self hu)).2

/-- The next call of a stable thread. -/
theorem Stable.call {u : σ} {next : σ → σ} {cont : σ → Program σ ε α} {r : Except ε α}
    (h : O.Stable u (.call next cont) r) (hu : O.inv u) :
    O.same u (next u) ∧ O.inv (next u) ∧ O.Stable u (cont u) r := by
  obtain ⟨hsame, haround, hrest⟩ := h.safe u (Around.refl hu)
  have hcont := h.steady.cont hu
  refine ⟨hsame, haround.1, hrest, hcont, fun v hv => ?_⟩
  exact (hcont.run (hv.near haround)).1.trans (h.answer u (Around.refl hu))

/-- The next call of a thread that has changed nothing yet, when it changes nothing either. -/
theorem Follows.read {u : σ} {next : σ → σ} {cont : σ → Program σ ε α} {p₀ : Program σ ε α}
    (h : O.Follows u (.call next cont) p₀) (hu : O.inv u) (hsame : O.same u (next u))
    (hrest : O.OneWrite (cont u)) : O.Follows u (cont u) p₀ := by
  have hrun (v : σ) (hv : O.Around u v) :
      O.SameAnswer (Program.run (cont u) v).1 (Program.run (.call next cont) v).1 ∧
        O.Near (Program.run (cont u) v).2 (Program.run (.call next cont) v).2 := by
    have hcall := h.steady u v ((Around.refl hu).near hv)
    have hv' : O.Around u (next v) := ⟨hcall.1.2.1, O.equivalence.trans hsame hcall.1.2.2⟩
    have hagree := Agree.run hcall.2 (hv.near hv')
    exact ⟨O.sameAnswer_of_sameResult hagree.1, hagree.2⟩
  exact ⟨hrest, h.steady.cont hu, fun v hv => (hrun v hv).1.trans (h.answer v hv),
    fun v hv => O.equivalence.trans (hrun v hv).2.2.2 (h.state v hv)⟩

/-- The write of a thread, put at the end of a sequential run that has led to `t`. -/
theorem Follows.write {u t : σ} {next : σ → σ} {cont : σ → Program σ ε α} {p₀ : Program σ ε α}
    (h : O.Follows u (.call next cont) p₀) (hu : O.inv u) (ht : O.Around u t)
    (hrest : Safe (O.Around (next u)) O.same (cont u)) :
    O.Stable (next u) (cont u) (Program.run p₀ t).1 ∧
      O.same (next u) (Program.run p₀ t).2 := by
  have hnext : O.inv (next u) := (h.steady u u (near_self hu)).1.1
  have hcont := h.steady.cont hu
  have hrun := h.steady.run ((Around.refl hu).near ht)
  refine ⟨⟨hrest, hcont, fun v hv => ?_⟩, ?_⟩
  · exact (hcont.run (hv.near (Around.refl hnext))).1.trans (hrun.1.trans (h.answer t ht))
  · have hstay : O.same (next u) (Program.run (cont u) (next u)).2 :=
      hrest.run_within O.equivalence.refl O.equivalence.trans (Around.refl hnext)
    exact O.equivalence.trans hstay (O.equivalence.trans hrun.2.2.2 (h.state t ht))

/-- A thread that will not write, put at the end of a sequential run that has led to `t`. -/
theorem Follows.settle {u t : σ} {p p₀ : Program σ ε α} (h : O.Follows u p p₀)
    (ht : O.Around u t) (hp : Safe O.inv O.same p) :
    O.Stable u p (Program.run p₀ t).1 ∧ O.same u (Program.run p₀ t).2 := by
  refine ⟨⟨safe_around hp u, h.steady, fun v hv => ?_⟩, ?_⟩
  · exact (h.steady.run (hv.near ht)).1.trans (h.answer t ht)
  · have hstay : O.same t (Program.run p t).2 :=
      hp.run_within O.equivalence.refl O.equivalence.trans ht.1
    exact O.equivalence.trans ht.2 (O.equivalence.trans hstay (h.state t ht))

end Observer

/-! ## One after another -/

section Serial

variable {σ ε α β : Type}

/-- `InTurn programs s log t`: the programs of the log, run alone one after another, answer what the
    log says and lead from `s` to `t`. -/
inductive InTurn (programs : List (Program σ ε α)) (s : σ) : List (Nat × Except ε α) → σ → Prop where
  | start : InTurn programs s [] s
  | next {log : List (Nat × Except ε α)} {t : σ} {i : Nat} {p : Program σ ε α}
      (h : InTurn programs s log t) (hp : programs[i]? = some p) :
      InTurn programs s (log ++ [(i, (Program.run p t).1)]) (Program.run p t).2

/-- Thread `i` does not change what is observed now, or no other thread is under way with reading
    or writing it. -/
def WritesAlone (O : Observer σ α β) (programs : List (Program σ ε α)) (P : Pool σ ε α) (i : Nat) :
    Prop :=
  ¬ O.same P.state (P.step i).state → ∀ j p, j ≠ i → P.threads[j]? = some p →
    programs[j]? = some p ∨ O.Detached p

variable {O : Observer σ α β} {programs : List (Program σ ε α)} {s : σ}

/-- Every thread is what is left of its program: all of it, unless the thread has taken a call. -/
structure Begun (programs : List (Program σ ε α)) (log : List (Nat × Except ε α))
    (P : Pool σ ε α) : Prop where
  length : P.threads.length = programs.length
  left : ∀ j p₀ p, programs[j]? = some p₀ → P.threads[j]? = some p →
    p = p₀ ∧ j ∉ log.map Prod.fst ∨ Program.After p₀ p

/-- A sequential run that looks like the state, and where each thread stands to it: it is in the
    log, and stable; or not, and what is left of it does what all of it would do now. -/
structure Serial (O : Observer σ α β) (programs : List (Program σ ε α)) (s : σ) (P : Pool σ ε α)
    (log : List (Nat × Except ε α)) (t : σ) : Prop where
  turn : InTurn programs s log t
  nodup : (log.map Prod.fst).Nodup
  inv : O.inv P.state
  around : O.Around P.state t
  logged : ∀ x ∈ log, ∀ p, P.threads[x.1]? = some p → O.Stable P.state p x.2
  others : ∀ j p₀ p, programs[j]? = some p₀ → P.threads[j]? = some p → j ∉ log.map Prod.fst →
    O.Follows P.state p p₀

theorem notMem_log_append {log : List (Nat × Except ε α)} {i j : Nat} {r : Except ε α}
    (h : j ∉ (log ++ [(i, r)]).map Prod.fst) : j ∉ log.map Prod.fst ∧ j ≠ i := by
  simpa using h

/-- Appending a thread to the log. -/
theorem Serial.append {P : Pool σ ε α} {log : List (Nat × Except ε α)} {t : σ} {u : σ}
    {threads : List (Program σ ε α)} {i : Nat} {p₀ : Program σ ε α}
    (h : Serial O programs s P log t) (hsteady : O.Steady p₀) (hi : programs[i]? = some p₀)
    (hnew : i ∉ log.map Prod.fst) (hu : O.inv u) (hstate : O.same u (Program.run p₀ t).2)
    (hstable : ∀ p, threads[i]? = some p → O.Stable u p (Program.run p₀ t).1)
    (hlogged : ∀ x ∈ log, ∀ p, threads[x.1]? = some p → O.Stable u p x.2)
    (hothers : ∀ j q₀ q, j ≠ i → programs[j]? = some q₀ → threads[j]? = some q →
      j ∉ log.map Prod.fst → O.Follows u q q₀) :
    Serial O programs s ⟨u, threads⟩ (log ++ [(i, (Program.run p₀ t).1)]) (Program.run p₀ t).2 where
  turn := h.turn.next hi
  nodup := by
    rw [List.map_append, List.nodup_append]
    refine ⟨h.nodup, List.nodup_singleton _, ?_⟩
    rintro x hx _ hy rfl
    have hxi : x = i := List.mem_singleton.mp hy
    exact hnew (hxi ▸ hx)
  inv := hu
  around := ⟨(hsteady.run (Observer.near_self h.around.1)).2.1, hstate⟩
  logged := by
    intro x hx p hp
    rcases List.mem_append.mp hx with hx | hx
    · exact hlogged x hx p hp
    · obtain rfl := List.mem_singleton.mp hx
      exact hstable p hp
  others := by
    intro j q₀ q hj hq hno
    obtain ⟨hno, hne⟩ := notMem_log_append hno
    exact hothers j q₀ q hne hj hq hno

/-- Threads that will not write can be appended to the log one after the other. -/
theorem Serial.settle {P : Pool σ ε α} (hprograms : ∀ p ∈ programs, O.Transaction p)
    (hlength : P.threads.length = programs.length) :
    ∀ (js : List Nat) {log : List (Nat × Except ε α)} {t : σ}, Serial O programs s P log t →
      (∀ j ∈ js, ∃ p, P.threads[j]? = some p ∧ Safe O.inv O.same p) →
      ∃ log' t', Serial O programs s P log' t' ∧ (∀ j ∈ js, j ∈ log'.map Prod.fst) ∧
        ∀ j ∈ log'.map Prod.fst, j ∈ log.map Prod.fst ∨ j ∈ js := by
  intro js
  induction js with
  | nil => exact fun h _ => ⟨_, _, h, fun j hj => (List.not_mem_nil hj).elim, fun j hj => Or.inl hj⟩
  | cons j js ih =>
    intro log t h hjs
    obtain ⟨log₁, t₁, h₁, hin, hfrom⟩ := ih h fun k hk => hjs k (List.mem_cons_of_mem j hk)
    by_cases hj : j ∈ log₁.map Prod.fst
    · refine ⟨log₁, t₁, h₁, fun k hk => ?_, fun k hk => ?_⟩
      · rcases List.mem_cons.mp hk with rfl | hk
        · exact hj
        · exact hin k hk
      · exact (hfrom k hk).imp_right (List.mem_cons_of_mem j)
    · obtain ⟨p, hp, hsafe⟩ := hjs j (List.mem_cons_self ..)
      have hlt : j < programs.length := by
        rw [← hlength]
        exact (List.getElem?_eq_some_iff.mp hp).1
      have hp₀ : programs[j]? = some programs[j] := List.getElem?_eq_getElem hlt
      have htrans := hprograms _ (List.getElem_mem hlt)
      obtain ⟨hstable, hsame⟩ := (h₁.others j _ p hp₀ hp hj).settle h₁.around hsafe
      have hends : ∀ q, P.threads[j]? = some q →
          O.Stable P.state q (Program.run programs[j] t₁).1 := by
        intro q hq
        rw [hp] at hq
        cases hq
        exact hstable
      have hserial := h₁.append htrans.steady hp₀ hj h₁.inv hsame hends h₁.logged
        (fun k q₀ q _ => h₁.others k q₀ q)
      refine ⟨_, _, hserial, fun k hk => ?_, fun k hk => ?_⟩
      · rw [List.map_append]
        rcases List.mem_cons.mp hk with rfl | hk
        · exact List.mem_append_right _ (List.mem_singleton.mpr rfl)
        · exact List.mem_append_left _ (hin k hk)
      · rw [List.map_append] at hk
        rcases List.mem_append.mp hk with hk | hk
        · exact (hfrom k hk).imp_right (List.mem_cons_of_mem j)
        · exact Or.inr (List.mem_singleton.mp hk ▸ List.mem_cons_self ..)

theorem InTurn.lt {log : List (Nat × Except ε α)} {t : σ} (h : InTurn programs s log t) :
    ∀ j ∈ log.map Prod.fst, j < programs.length := by
  induction h with
  | start => exact fun j hj => (List.not_mem_nil hj).elim
  | next _ hp ih =>
    intro j hj
    rw [List.map_append] at hj
    rcases List.mem_append.mp hj with hj | hj
    · exact ih j hj
    · rw [List.mem_singleton.mp hj]
      exact (List.getElem?_eq_some_iff.mp hp).1

theorem Begun.program {log : List (Nat × Except ε α)} {P : Pool σ ε α}
    (h : Begun programs log P) {i : Nat} {p : Program σ ε α} (hi : P.threads[i]? = some p) :
    ∃ p₀, programs[i]? = some p₀ ∧ p₀ ∈ programs := by
  have hlt : i < programs.length := h.length ▸ (List.getElem?_eq_some_iff.mp hi).1
  exact ⟨programs[i], List.getElem?_eq_getElem hlt, List.getElem_mem hlt⟩

/-- A thread in the log has begun. -/
theorem Begun.logged {log : List (Nat × Except ε α)} {P : Pool σ ε α}
    (h : Begun programs log P) {i : Nat} {p : Program σ ε α} (hi : P.threads[i]? = some p)
    (hlog : i ∈ log.map Prod.fst) : programs[i]? ≠ some p := by
  intro hp
  rcases h.left i p p hp hi with ⟨-, hno⟩ | hafter
  · exact hno hlog
  · exact hafter.ne rfl

/-- The next call of thread `i`. -/
theorem Begun.call {log log' : List (Nat × Except ε α)} {P : Pool σ ε α} {u : σ}
    (h : Begun programs log P) {i : Nat} {next : σ → σ} {cont : σ → Program σ ε α}
    (hi : P.threads[i]? = some (.call next cont))
    (hlog : ∀ j ∈ log'.map Prod.fst,
      j ∈ log.map Prod.fst ∨ j = i ∨ programs[j]? ≠ P.threads[j]?) :
    Begun programs log' ⟨u, P.threads.set i (cont P.state)⟩ where
  length := (List.length_set ..).trans h.length
  left := by
    intro j p₀ p hp₀ hp
    by_cases hij : i = j
    · subst hij
      right
      rw [List.getElem?_set_self', hi] at hp
      cases hp
      rcases h.left i p₀ _ hp₀ hi with ⟨rfl, -⟩ | hafter
      · exact .one _
      · exact hafter.call _
    · rw [List.getElem?_set_ne hij] at hp
      rcases h.left j p₀ p hp₀ hp with ⟨rfl, hno⟩ | hafter
      · refine Or.inl ⟨rfl, fun hj => ?_⟩
        rcases hlog j hj with hj | rfl | hj
        · exact hno hj
        · exact hij rfl
        · exact hj (hp₀.trans hp.symm)
      · exact Or.inr hafter

/-- The pool after the next call of thread `i`, when that call changes nothing observed. -/
theorem Serial.same {P : Pool σ ε α} {log : List (Nat × Except ε α)} {t u : σ} {i : Nat}
    {p : Program σ ε α} (h : Serial O programs s P log t) (hu : O.inv u)
    (hsame : O.same P.state u) (hlogged : ∀ r, (i, r) ∈ log → O.Stable P.state p r)
    (hother : ∀ p₀, programs[i]? = some p₀ → i ∉ log.map Prod.fst → O.Follows P.state p p₀) :
    Serial O programs s ⟨u, P.threads.set i p⟩ log t where
  turn := h.turn
  nodup := h.nodup
  inv := hu
  around := h.around.of_same hsame
  logged := by
    rintro ⟨j, r⟩ hx q hq
    by_cases hij : i = j
    · subst hij
      rw [List.getElem?_set_self'] at hq
      obtain ⟨_, -, rfl⟩ := Option.map_eq_some_iff.mp hq
      exact (hlogged r hx).of_same hsame
    · exact (h.logged _ hx q (List.getElem?_set_ne hij ▸ hq)).of_same hsame
  others := by
    intro j q₀ q hq₀ hq hno
    by_cases hij : i = j
    · subst hij
      rw [List.getElem?_set_self'] at hq
      obtain ⟨_, -, rfl⟩ := Option.map_eq_some_iff.mp hq
      exact (hother q₀ hq₀ hno).of_same hsame
    · exact (h.others j q₀ q hq₀ (List.getElem?_set_ne hij ▸ hq) hno).of_same hsame

/-- A write: the threads that are under way are put into the log, and then the thread that writes. -/
theorem Serial.write {P : Pool σ ε α} {log : List (Nat × Except ε α)} {t : σ} {i : Nat}
    {next : σ → σ} {cont : σ → Program σ ε α} (hprograms : ∀ p ∈ programs, O.Transaction p)
    (h : Serial O programs s P log t) (hbegun : Begun programs log P)
    (hi : P.threads[i]? = some (.call next cont)) (hno : i ∉ log.map Prod.fst)
    (hrest : Safe (O.Around (next P.state)) O.same (cont P.state))
    (halone : ∀ j p, j ≠ i → P.threads[j]? = some p → programs[j]? = some p ∨ O.Detached p) :
    ∃ log' t', Serial O programs s ⟨next P.state, P.threads.set i (cont P.state)⟩ log' t' ∧
      Begun programs log' ⟨next P.state, P.threads.set i (cont P.state)⟩ := by
  classical
  let js := (List.range P.threads.length).filter fun j => j ≠ i ∧ programs[j]? ≠ P.threads[j]?
  have hjs : ∀ j ∈ js, ∃ p, P.threads[j]? = some p ∧ Safe O.inv O.same p := by
    intro j hj
    obtain ⟨hlt, hne⟩ := List.mem_filter.mp hj
    obtain ⟨hji, hne⟩ := of_decide_eq_true hne
    have hget := List.getElem?_eq_getElem (List.mem_range.mp hlt)
    refine ⟨_, hget, ?_⟩
    rcases halone j _ hji hget with hp | hp
    · exact absurd (hp.trans hget.symm) hne
    · exact hp.safe
  obtain ⟨log', t', h', hin, hfrom⟩ := h.settle hprograms hbegun.length js hjs
  have hno' : i ∉ log'.map Prod.fst := by
    intro hi'
    rcases hfrom i hi' with hlog | hjs
    · exact hno hlog
    · exact (of_decide_eq_true (List.mem_filter.mp hjs).2).1 rfl
  have hwaits : ∀ j p, j ≠ i → P.threads[j]? = some p → j ∉ log'.map Prod.fst →
      programs[j]? = some p := by
    intro j p hji hp hj
    by_contra hne
    refine hj (hin j (List.mem_filter.mpr ⟨?_, decide_eq_true ⟨hji, hp ▸ hne⟩⟩))
    exact List.mem_range.mpr (List.getElem?_eq_some_iff.mp hp).1
  obtain ⟨p₀, hp₀, hmem⟩ := hbegun.program hi
  have hfollows := h'.others i p₀ _ hp₀ hi hno'
  have hinv := (hfollows.oneWrite P.state h.inv).1
  obtain ⟨hstable, hsame⟩ := hfollows.write h.inv h'.around hrest
  refine ⟨_, _, h'.append (hprograms p₀ hmem).steady hp₀ hno' hinv hsame ?_ ?_ ?_, ?_⟩
  · intro p hp
    rw [List.getElem?_set_self', hi] at hp
    cases hp
    exact hstable
  · rintro ⟨j, r⟩ hx p hp
    have hxlog : j ∈ log'.map Prod.fst := List.mem_map_of_mem hx
    have hji : j ≠ i := fun hji => hno' (hji ▸ hxlog)
    rw [List.getElem?_set_ne (Ne.symm hji)] at hp
    refine (h'.logged _ hx p hp).move ?_ h.inv
    rcases halone j p hji hp with hwait | hdetached
    · rcases hfrom j hxlog with hlog | hjs
      · exact absurd hwait (hbegun.logged hp hlog)
      · exact absurd (hwait.trans hp.symm) (of_decide_eq_true (List.mem_filter.mp hjs).2).2
    · exact hdetached
  · intro j q₀ q hji hq₀ hq hj
    rw [List.getElem?_set_ne (Ne.symm hji)] at hq
    cases hq₀.symm.trans (hwaits j q hji hq hj)
    exact (hprograms q₀ (List.mem_of_getElem? hq₀)).follows _
  · refine hbegun.call hi fun j hj => ?_
    rw [List.map_append] at hj
    rcases List.mem_append.mp hj with hj | hj
    · rcases hfrom j hj with hlog | hjs
      · exact Or.inl hlog
      · exact Or.inr (Or.inr (of_decide_eq_true (List.mem_filter.mp hjs).2).2)
    · exact Or.inr (Or.inl (List.mem_singleton.mp hj))

/-- A step along the condition keeps the sequential run. -/
theorem serial_step (hprograms : ∀ p ∈ programs, O.Transaction p) {P : Pool σ ε α} {i : Nat}
    (h : ∃ log t, Serial O programs s P log t ∧ Begun programs log P)
    (halone : WritesAlone O programs P i) :
    ∃ log t, Serial O programs s (P.step i) log t ∧ Begun programs log (P.step i) := by
  obtain ⟨log, t, h, hbegun⟩ := h
  rcases P.step_cases i with hstep | ⟨next, cont, hi, hstep⟩
  · rw [hstep]
    exact ⟨log, t, h, hbegun⟩
  obtain ⟨p₀, hp₀, hmem⟩ := hbegun.program hi
  unfold WritesAlone at halone
  rw [hstep] at halone ⊢
  by_cases hlog : i ∈ log.map Prod.fst
  · -- the thread has its place in the log
    obtain ⟨⟨_, r⟩, hr, rfl⟩ := List.mem_map.mp hlog
    obtain ⟨hsame, hinv, -⟩ := (h.logged _ hr _ hi).call h.inv
    refine ⟨log, t, h.same hinv hsame (fun r hr => ?_) (fun _ _ hno => absurd hlog hno),
      hbegun.call hi fun j hj => Or.inl hj⟩
    exact ((h.logged _ hr _ hi).call h.inv).2.2
  · have hfollows := h.others i p₀ _ hp₀ hi hlog
    obtain ⟨hinv, ⟨hsame, hrest⟩ | hrest⟩ := hfollows.oneWrite P.state h.inv
    · -- it reads
      refine ⟨log, t, h.same hinv hsame (fun r hr => absurd (List.mem_map_of_mem hr) hlog)
        (fun q₀ hq₀ _ => ?_), hbegun.call hi fun j hj => Or.inl hj⟩
      cases hp₀.symm.trans hq₀
      exact hfollows.read h.inv hsame hrest
    by_cases hsame : O.same P.state (next P.state)
    · -- it writes what is there already
      obtain ⟨hstable, hstate⟩ := hfollows.write h.inv h.around hrest
      refine ⟨_, _, h.append (hprograms p₀ hmem).steady hp₀ hlog hinv hstate ?_ ?_ ?_,
        hbegun.call hi fun j hj => ?_⟩
      · intro p hp
        rw [List.getElem?_set_self', hi] at hp
        cases hp
        exact hstable
      · rintro ⟨j, r⟩ hx p hp
        have hji : i ≠ j := fun hji => hlog (hji ▸ List.mem_map_of_mem hx)
        exact (h.logged _ hx p (List.getElem?_set_ne hji ▸ hp)).of_same hsame
      · intro j q₀ q hji hq₀ hq hj
        rw [List.getElem?_set_ne (Ne.symm hji)] at hq
        exact (h.others j q₀ q hq₀ hq hj).of_same hsame
      · rw [List.map_append] at hj
        exact (List.mem_append.mp hj).imp_right fun hj => Or.inl (List.mem_singleton.mp hj)
    · exact h.write hprograms hbegun hi hlog hrest (halone hsame)

/-- Every step either changes nothing observed, or does at once all that some program does. -/
theorem Serial.step_observed {P : Pool σ ε α} {log : List (Nat × Except ε α)} {t : σ}
    (h : Serial O programs s P log t) (hbegun : Begun programs log P) (i : Nat) :
    O.same P.state (P.step i).state ∨
      ∃ p ∈ programs, O.same (P.step i).state (Program.run p P.state).2 := by
  rcases P.step_cases i with hstep | ⟨next, cont, hi, hstep⟩
  · rw [hstep]
    exact Or.inl (O.equivalence.refl _)
  rw [hstep]
  obtain ⟨p₀, hp₀, hmem⟩ := hbegun.program hi
  by_cases hlog : i ∈ log.map Prod.fst
  · obtain ⟨⟨_, r⟩, hr, rfl⟩ := List.mem_map.mp hlog
    exact Or.inl ((h.logged _ hr _ hi).call h.inv).1
  · have hfollows := h.others i p₀ _ hp₀ hi hlog
    obtain ⟨-, ⟨hsame, -⟩ | hrest⟩ := hfollows.oneWrite P.state h.inv
    · exact Or.inl hsame
    · exact Or.inr ⟨p₀, hmem, (hfollows.write h.inv (Observer.Around.refl h.inv) hrest).2⟩

/-! ## Runs -/

/-- After every schedule along the condition there is a sequential run. -/
theorem exec_serial (hprograms : ∀ p ∈ programs, O.Transaction p) (hs : O.inv s)
    (schedule : List Nat) (halone : Pool.Along (WritesAlone O programs) ⟨s, programs⟩ schedule) :
    ∃ log t, Serial O programs s ((Pool.mk s programs).exec schedule) log t ∧
      Begun programs log ((Pool.mk s programs).exec schedule) := by
  refine Pool.exec_along
    (J := fun P => ∃ log t, Serial O programs s P log t ∧ Begun programs log P)
    (fun P i h halone => serial_step hprograms h halone) schedule _ ⟨[], s, ?_, ?_⟩ halone
  · refine ⟨.start, List.nodup_nil, hs, Observer.Around.refl hs,
      fun x hx => (List.not_mem_nil hx).elim, fun j p₀ p hp₀ hp _ => ?_⟩
    cases hp₀.symm.trans hp
    exact (hprograms _ (List.mem_of_getElem? hp)).follows s
  · refine ⟨rfl, fun j p₀ p hp₀ hp => Or.inl ⟨?_, List.not_mem_nil⟩⟩
    exact Option.some.inj (hp.symm.trans hp₀)

/-- The pool has ended as if its programs had run one after another. -/
def EndsInTurn (O : Observer σ α β) (programs : List (Program σ ε α)) (s : σ) (P : Pool σ ε α) :
    Prop :=
  ∃ log t, InTurn programs s log t ∧ (log.map Prod.fst).Perm (List.range programs.length) ∧
    O.same P.state t ∧
    ∀ x ∈ log, ∃ r, P.threads[x.1]? = some (.done r) ∧ O.SameAnswer r x.2

/-- When all threads have ended, all of them have their place in the log. -/
theorem Serial.endsInTurn {P : Pool σ ε α} {log : List (Nat × Except ε α)} {t : σ}
    (hprograms : ∀ p ∈ programs, O.Transaction p) (h : Serial O programs s P log t)
    (hlength : P.threads.length = programs.length)
    (hended : ∀ p ∈ P.threads, ∃ r, p = .done r) : EndsInTurn O programs s P := by
  have hthread : ∀ j < programs.length, ∃ r, P.threads[j]? = some (.done r) := by
    intro j hj
    have hget := List.getElem?_eq_getElem (hlength ▸ hj)
    obtain ⟨r, hr⟩ := hended _ (List.mem_of_getElem? hget)
    exact ⟨r, hr ▸ hget⟩
  obtain ⟨log', t', h', hin, -⟩ := h.settle hprograms hlength (List.range programs.length)
    fun j hj => by
      obtain ⟨r, hr⟩ := hthread j (List.mem_range.mp hj)
      exact ⟨_, hr, trivial⟩
  refine ⟨log', t', h'.turn, ?_, h'.around.2, fun x hx => ?_⟩
  · refine (List.perm_ext_iff_of_nodup h'.nodup List.nodup_range).mpr fun j => ⟨fun hj => ?_, hin j⟩
    exact List.mem_range.mpr (h'.turn.lt j hj)
  · obtain ⟨r, hr⟩ := hthread x.1 (h'.turn.lt x.1 (List.mem_map_of_mem hx))
    exact ⟨r, hr, (h'.logged x hx _ hr).answer P.state (Observer.Around.refl h'.inv)⟩

/-- Two programs have two sequential orders. -/
theorem InTurn.pair {p q : Program σ ε α} {log : List (Nat × Except ε α)} {t : σ}
    (h : InTurn [p, q] s log t) (hperm : (log.map Prod.fst).Perm (List.range 2)) :
    t = (Program.run q (Program.run p s).2).2 ∨ t = (Program.run p (Program.run q s).2).2 := by
  have hlength := hperm.length_eq
  have hnodup := hperm.nodup_iff.mpr List.nodup_range
  have hlt := h.lt
  cases h with
  | start => simp at hlength
  | next h₁ hi =>
    cases h₁ with
    | start => simp at hlength
    | next h₂ hj =>
      cases h₂ with
      | next _ _ => simp at hlength
      | start =>
        rename_i i _ j _
        have hi2 : i < 2 := hlt i (by simp)
        have hj2 : j < 2 := hlt j (by simp)
        have hij : j ≠ i := by simpa using hnodup
        obtain ⟨rfl, rfl⟩ | ⟨rfl, rfl⟩ : (j = 0 ∧ i = 1) ∨ (j = 1 ∧ i = 0) := by omega
        · cases hi; cases hj; exact Or.inl rfl
        · cases hi; cases hj; exact Or.inr rfl

/-- The first of two threads writes alone while the second has not begun. -/
theorem along_first {p q : Program σ ε α} : ∀ (n : Nat) (p' : Program σ ε α) (t : σ),
    Pool.Along (WritesAlone O [p, q]) ⟨t, [p', q]⟩ (List.replicate n 0) ∧
      ∃ t' p'', (Pool.mk t [p', q]).exec (List.replicate n 0) = ⟨t', [p'', q]⟩ := by
  intro n
  induction n with
  | zero => exact fun p' t => ⟨trivial, t, p', rfl⟩
  | succ n ih =>
    intro p' t
    have halone : WritesAlone O [p, q] ⟨t, [p', q]⟩ 0 := by
      rintro - (_ | _ | j) r hj hget
      · exact absurd rfl hj
      · exact Or.inl hget
      · cases hget
    cases p' with
    | done r => exact ⟨⟨halone, (ih _ t).1⟩, (ih _ t).2⟩
    | call next cont => exact ⟨⟨halone, (ih _ (next t)).1⟩, (ih _ (next t)).2⟩

/-- The second of two threads writes alone once the first has ended. -/
theorem along_second {p q : Program σ ε α} {a : Except ε α} :
    ∀ (m : Nat) (q' : Program σ ε α) (t : σ),
      Pool.Along (WritesAlone O [p, q]) ⟨t, [.done a, q']⟩ (List.replicate m 1) := by
  intro m
  induction m with
  | zero => exact fun _ _ => trivial
  | succ m ih =>
    intro q' t
    have halone : WritesAlone O [p, q] ⟨t, [.done a, q']⟩ 1 := by
      rintro - (_ | _ | j) r hj hget
      · cases hget
        exact Or.inr (Observer.detached_done a)
      · exact absurd rfl hj
      · cases hget
    cases q' with
    | done r => exact ⟨halone, ih _ t⟩
    | call next cont => exact ⟨halone, ih _ (next t)⟩

/-- Two programs one after the other meet the condition. -/
theorem along_inTurn {p q : Program σ ε α} {n m : Nat} {a : Except ε α}
    (h : ((Pool.mk s [p, q]).exec (List.replicate n 0)).threads[0]? = some (.done a)) :
    Pool.Along (WritesAlone O [p, q]) ⟨s, [p, q]⟩
      (List.replicate n 0 ++ List.replicate m 1) := by
  obtain ⟨hfirst, t, p', hexec⟩ := along_first (O := O) (p := p) (q := q) n p s
  rw [hexec] at h
  cases h
  exact (Pool.along_append _ _ _).mpr ⟨hfirst, hexec ▸ along_second m q t⟩

end Serial

end Atomic
