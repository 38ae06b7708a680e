/-
  Programs over a shared state, cut at their atomic calls.

  A `Program σ ε α` is what one thread does to a state `σ` that other threads use too: a finite
  tree of atomic calls, each of which replaces the state and hands the state it found to the rest
  of the program, ending in a value of `α` or an exception of `ε`.  One definition of a program
  gives both of its meanings:

  1. **Alone** — `run p s` executes every call with nothing in between; `Returns p s a s'` says
     that `p` started in `s` returns `a` and leaves `s'`.  `within_bind` is the rule for what the
     calls of a run do one by one.
  2. **Among others** — `Pool.exec` executes a pool of programs under a schedule (the list of
     thread numbers in the order in which they take their next call); `Pool.exec_invariant` is the
     invariant rule for every schedule, `Pool.exec_along` the one for the schedules all of whose
     steps meet a condition, and `Pool.exec_safeUnless` for those that avoid a branch.
-/
import Mathlib.Logic.Relation
import Mathlib.Tactic.Common

namespace Atomic

/-- A program over the shared state `σ`: it has ended, or its next atomic call replaces the state
    `s` by `next s` and continues with `cont s`. -/
inductive Program (σ ε α : Type) where
  | done (result : Except ε α)
  | call (next : σ → σ) (cont : σ → Program σ ε α)

namespace Program

variable {σ ε α β : Type}

/-- Sequencing: an exception of the first program is an exception of the whole. -/
def bind : Program σ ε α → (α → Program σ ε β) → Program σ ε β
  | done (.ok a), k => k a
  | done (.error e), _ => done (.error e)
  | call next cont, k => call next (fun s => bind (cont s) k)

instance : Monad (Program σ ε) where
  pure a := done (.ok a)
  bind := bind

/-- `raise e`: end with the exception `e`. -/
def raise (e : ε) : Program σ ε α := done (.error e)

/-- One atomic call: `f` reads the state and answers with a result and the next state. -/
def atomic (f : σ → Except ε α × σ) : Program σ ε α :=
  call (fun s => (f s).2) (fun s => done (f s).1)

/-- An exception that the caller turns into a result, or lets through. -/
def handle : Program σ ε α → (ε → Program σ ε α) → Program σ ε α
  | done (.ok a), _ => done (.ok a)
  | done (.error e), h => h e
  | call next cont, h => call next (fun s => handle (cont s) h)

/-- Run `f` on every element in order, collecting the results. -/
def forEach : List β → (β → Program σ ε α) → Program σ ε (List α)
  | [], _ => pure []
  | b :: bs, f => do
      let a ← f b
      let as ← forEach bs f
      pure (a :: as)

/-! ## Alone -/

/-- The program with nothing in between its calls. -/
def run : Program σ ε α → σ → Except ε α × σ
  | done r, s => (r, s)
  | call next cont, s => run (cont s) (next s)

/-- `p`, started alone in `s`, returns `a` and leaves `s'`. -/
def Returns (p : Program σ ε α) (s : σ) (a : α) (s' : σ) : Prop := run p s = (.ok a, s')

@[simp] theorem run_pure (a : α) (s : σ) : run (pure a : Program σ ε α) s = (.ok a, s) := rfl

@[simp] theorem run_raise (e : ε) (s : σ) : run (raise e : Program σ ε α) s = (.error e, s) := rfl

@[simp] theorem run_atomic (f : σ → Except ε α × σ) (s : σ) : run (atomic f) s = f s := rfl

/-- Sequencing, run: the second program starts where the first returned. -/
theorem run_bind (p : Program σ ε α) (k : α → Program σ ε β) : ∀ s,
    run (p >>= k) s =
      match run p s with
      | (.ok a, s') => run (k a) s'
      | (.error e, s') => (.error e, s') := by
  show ∀ s, run (bind p k) s = _
  induction p with
  | done r => intro s; cases r <;> rfl
  | call next cont ih => intro s; exact ih s (next s)

/-- Sequencing is associative. -/
theorem bind_bind {γ : Type} (p : Program σ ε α) (k : α → Program σ ε β)
    (l : β → Program σ ε γ) : (p >>= k) >>= l = p >>= fun a => k a >>= l := by
  show bind (bind p k) l = bind p fun a => bind (k a) l
  induction p with
  | done r => cases r <;> rfl
  | call next cont ih => exact congrArg (call next) (funext ih)

theorem bind_pure (p : Program σ ε α) : (p >>= fun a => pure a) = p := by
  show bind p (fun a => done (.ok a)) = p
  induction p with
  | done r => cases r <;> rfl
  | call next cont ih => exact congrArg (call next) (funext ih)

/-- An atomic call and what follows it. -/
theorem atomic_bind (f : σ → Except ε α × σ) (k : α → Program σ ε β) :
    (atomic f >>= k) = call (fun s => (f s).2) fun s => done (f s).1 >>= k := rfl

theorem bind_done_unit (p : Program σ ε Unit) : (p >>= fun _ => pure ()) = p := bind_pure p

/-- Turning the result into another one leaves the state alone. -/
theorem run_map (p : Program σ ε α) (f : α → β) (s : σ) :
    run (do let a ← p; pure (f a)) s = ((run p s).1.map f, (run p s).2) := by
  rw [run_bind]
  rcases run p s with ⟨r, s'⟩
  cases r <;> rfl

theorem run_handle (p : Program σ ε α) (h : ε → Program σ ε α) : ∀ s,
    run (handle p h) s =
      match run p s with
      | (.ok a, s') => (.ok a, s')
      | (.error e, s') => run (h e) s' := by
  induction p with
  | done r => intro s; cases r <;> rfl
  | call next cont ih => intro s; exact ih s (next s)

theorem returns_pure {a b : α} {s s' : σ} :
    Returns (pure a : Program σ ε α) s b s' ↔ b = a ∧ s' = s := by
  simp only [Returns, run_pure, Prod.mk.injEq, Except.ok.injEq]
  exact ⟨fun h => ⟨h.1.symm, h.2.symm⟩, fun h => ⟨h.1.symm, h.2.symm⟩⟩

theorem not_returns_raise {e : ε} {b : α} {s s' : σ} :
    ¬ Returns (raise e : Program σ ε α) s b s' := by
  simp [Returns]

/-- A sequence returns iff its first program returns and its second returns from there. -/
theorem returns_bind {p : Program σ ε α} {k : α → Program σ ε β} {s s'' : σ} {b : β} :
    Returns (p >>= k) s b s'' ↔ ∃ a s', Returns p s a s' ∧ Returns (k a) s' b s'' := by
  simp only [Returns, run_bind]
  rcases h : run p s with ⟨r, s'⟩
  cases r with
  | ok a => simp
  | error e => simp

/-- A sequence does not raise iff its first program returns and its second does not raise. -/
theorem isOk_run_bind {p : Program σ ε α} {k : α → Program σ ε β} {s : σ} :
    (run (p >>= k) s).1.isOk = true ↔
      ∃ a s', Returns p s a s' ∧ (run (k a) s').1.isOk = true := by
  simp only [Returns, run_bind]
  rcases run p s with ⟨r, s'⟩
  cases r with
  | ok a => simp
  | error e => simp [Except.isOk, Except.toBool]

/-- A program that returns does so with one result and one final state. -/
theorem Returns.unique {p : Program σ ε α} {s s₁ s₂ : σ} {a₁ a₂ : α}
    (h₁ : Returns p s a₁ s₁) (h₂ : Returns p s a₂ s₂) : a₁ = a₂ ∧ s₁ = s₂ := by
  simp only [Returns] at h₁ h₂
  rw [h₁] at h₂
  simpa using h₂

/-- A program that does not raise returns what its run gives. -/
theorem returns_run {p : Program σ ε α} {s : σ} (h : (run p s).1.isOk = true) :
    ∃ a, Returns p s a (run p s).2 := by
  rcases hr : run p s with ⟨r, s'⟩
  rw [hr] at h
  cases r with
  | ok a => exact ⟨a, hr⟩
  | error e => cases h

/-! ## The calls of a run, one by one -/

/-- Every call that `p` makes when it runs alone from `s` steps along `R`. -/
def Within (R : σ → σ → Prop) : Program σ ε α → σ → Prop
  | done _, _ => True
  | call next cont, s => R s (next s) ∧ Within R (cont s) (next s)

theorem within_atomic {R : σ → σ → Prop} {f : σ → Except ε α × σ} {s : σ} :
    Within R (atomic f) s ↔ R s (f s).2 := ⟨fun h => h.1, fun h => ⟨h, trivial⟩⟩

/-- The rule for sequencing: the second program answers only for the states in which the first
    one can return. -/
theorem within_bind {R : σ → σ → Prop} {p : Program σ ε α} {k : α → Program σ ε β} {s : σ}
    (hp : Within R p s) (hk : ∀ a s', Returns p s a s' → Within R (k a) s') :
    Within R (p >>= k) s := by
  show Within R (bind p k) s
  induction p generalizing s with
  | done r =>
    cases r with
    | ok a => exact hk a s rfl
    | error e => trivial
  | call next cont ih => exact ⟨hp.1, ih s hp.2 hk⟩

theorem Within.mono {R S : σ → σ → Prop} (hRS : ∀ s s', R s s' → S s s') {p : Program σ ε α}
    {s : σ} (h : Within R p s) : Within S p s := by
  induction p generalizing s with
  | done r => trivial
  | call next cont ih => exact ⟨hRS _ _ h.1, ih s h.2⟩

theorem Within.and {R S : σ → σ → Prop} {p : Program σ ε α} {s : σ} (h : Within R p s)
    (h' : Within S p s) : Within (fun s s' => R s s' ∧ S s s') p s := by
  induction p generalizing s with
  | done r => trivial
  | call next cont ih => exact ⟨⟨h.1, h'.1⟩, ih s h.2 h'.2⟩

/-- An invariant that every call keeps holds after every call. -/
theorem Within.holds {I : σ → Prop} {p : Program σ ε α} {s : σ}
    (h : Within (fun s s' => I s → I s') p s) (hs : I s) : Within (fun _ s' => I s') p s := by
  induction p generalizing s with
  | done r => trivial
  | call next cont ih => exact ⟨h.1 hs, ih s h.2 (h.1 hs)⟩

/-- What every call keeps within a reflexive and transitive relation, the run keeps. -/
theorem Within.run {R : σ → σ → Prop} (hrefl : ∀ s, R s s)
    (htrans : ∀ {a b c}, R a b → R b c → R a c) {p : Program σ ε α} {s : σ} (h : Within R p s) :
    R s (run p s).2 := by
  induction p generalizing s with
  | done r => exact hrefl s
  | call next cont ih => exact htrans h.1 (ih s h.2)

/-! ## Invariants of programs that run alone -/

/-- Whenever `p` returns, it has kept `I`. -/
def Keeps (I : σ → Prop) (p : Program σ ε α) : Prop := ∀ s a s', I s → Returns p s a s' → I s'

theorem keeps_bind {I : σ → Prop} {p : Program σ ε α} {k : α → Program σ ε β} (hp : Keeps I p)
    (hk : ∀ a, Keeps I (k a)) : Keeps I (p >>= k) := by
  intro s b s'' hs h
  obtain ⟨a, s', h1, h2⟩ := returns_bind.mp h
  exact hk a s' b s'' (hp s a s' hs h1) h2

/-- The rule for loops: `J ran as` holds once the elements `ran` have given the results `as`. -/
theorem returns_forEach {J : List β → List α → σ → Prop} {f : β → Program σ ε α} {l : List β}
    (hstep : ∀ ran b rest as a s s', l = ran ++ b :: rest → J ran as s → Returns (f b) s a s' →
      J (ran ++ [b]) (as ++ [a]) s')
    {as : List α} {s s' : σ} (hJ : J [] [] s) (h : Returns (forEach l f) s as s') : J l as s' := by
  have hloop : ∀ (rest ran : List β) (bs as : List α) (s : σ), l = ran ++ rest → J ran bs s →
      Returns (forEach rest f) s as s' → J l (bs ++ as) s' := by
    intro rest
    induction rest with
    | nil =>
      intro ran bs as s hl hJ h
      obtain ⟨rfl, rfl⟩ := returns_pure.mp h
      rw [List.append_nil] at hl ⊢
      rwa [hl]
    | cons b rest ih =>
      intro ran bs as s hl hJ h
      obtain ⟨a, s₁, hfirst, h⟩ := returns_bind.mp h
      obtain ⟨as', s₂, hrest, h⟩ := returns_bind.mp h
      obtain ⟨rfl, rfl⟩ := returns_pure.mp h
      have hall := ih (ran ++ [b]) (bs ++ [a]) as' s₁ (by simpa using hl)
        (hstep ran b rest bs a s s₁ hl hJ hfirst) hrest
      simpa using hall
  exact hloop l [] [] as s rfl hJ h

theorem keeps_forEach {I : σ → Prop} {l : List β} {f : β → Program σ ε α}
    (h : ∀ b ∈ l, Keeps I (f b)) : Keeps I (forEach l f) := by
  intro s as s' hs hret
  refine returns_forEach (J := fun _ _ s => I s) (fun ran b rest as a s s' hl hI hr => ?_) hs hret
  exact h b (hl ▸ List.mem_append_right ran (List.mem_cons_self ..)) s a s' hI hr

/-- Whatever `p` ends with when it runs alone, a result or an exception, it has kept `I`. -/
def Preserves (I : σ → Prop) (p : Program σ ε α) : Prop := ∀ s, I s → I (run p s).2

theorem preserves_done {I : σ → Prop} (r : Except ε α) :
    Preserves I (done r : Program σ ε α) := fun _ hs => hs

theorem preserves_atomic {I : σ → Prop} {f : σ → Except ε α × σ} (h : ∀ s, I s → I (f s).2) :
    Preserves I (atomic f) := h

theorem preserves_bind {I : σ → Prop} {p : Program σ ε α} {k : α → Program σ ε β}
    (hp : Preserves I p) (hk : ∀ a, Preserves I (k a)) : Preserves I (p >>= k) := by
  intro s hs
  have hfirst := hp s hs
  rw [run_bind]
  generalize run p s = outcome at hfirst
  obtain ⟨r, s'⟩ := outcome
  cases r with
  | ok a => exact hk a s' hfirst
  | error e => exact hfirst

theorem preserves_forEach {I : σ → Prop} {l : List β} {f : β → Program σ ε α}
    (h : ∀ b ∈ l, Preserves I (f b)) : Preserves I (forEach l f) := by
  induction l with
  | nil => exact preserves_done _
  | cons b l ih =>
    refine preserves_bind (h b (List.mem_cons_self ..)) fun a => ?_
    exact preserves_bind (ih fun x hx => h x (List.mem_cons_of_mem b hx)) fun as =>
      preserves_done _

/-- From every state that satisfies `I`, each call of `p` steps along `R` and keeps `I`, as long as
    `p` runs alone. -/
def Solo (I : σ → Prop) (R : σ → σ → Prop) (p : Program σ ε α) : Prop :=
  ∀ s, I s → Within (fun s s' => R s s' ∧ (I s → I s')) p s

/-- What a program keeps call by call, its run keeps, whatever it ends with. -/
theorem Solo.preserves {I : σ → Prop} {R : σ → σ → Prop} {p : Program σ ε α} (h : Solo I R p) :
    Preserves I p := fun s hs =>
  ((h s hs).mono (S := fun s s' => I s → I s') fun _ _ hR => hR.2).run (fun _ hs => hs)
    (fun hab hbc ha => hbc (hab ha)) hs

theorem Solo.keeps {I : σ → Prop} {R : σ → σ → Prop} {p : Program σ ε α} (h : Solo I R p) :
    Keeps I p := by
  intro s a s' hs hret
  have hrun := h.preserves s hs
  rwa [show run p s = (.ok a, s') from hret] at hrun

theorem solo_bind {I : σ → Prop} {R : σ → σ → Prop} {p : Program σ ε α} {k : α → Program σ ε β}
    (hp : Solo I R p) (hk : ∀ a, Solo I R (k a)) : Solo I R (p >>= k) :=
  fun s hs => within_bind (hp s hs) fun a s' hret => hk a s' (hp.keeps s a s' hs hret)

theorem solo_pure {I : σ → Prop} {R : σ → σ → Prop} (a : α) :
    Solo I R (pure a : Program σ ε α) := fun _ _ => trivial

theorem solo_forEach {I : σ → Prop} {R : σ → σ → Prop} {l : List β} {f : β → Program σ ε α}
    (h : ∀ b ∈ l, Solo I R (f b)) : Solo I R (forEach l f) := by
  induction l with
  | nil => exact solo_pure []
  | cons b l ih =>
    refine solo_bind (h b (List.mem_cons_self ..)) fun a => ?_
    exact solo_bind (ih fun x hx => h x (List.mem_cons_of_mem b hx)) fun as => solo_pure _

/-! ## Invariants that hold among others -/

/-- `p` steps along `R` from every state that satisfies `I`, and keeps `I`, whatever the state is
    replaced by between two of its calls as long as `I` holds. -/
def Safe (I : σ → Prop) (R : σ → σ → Prop) : Program σ ε α → Prop
  | done _ => True
  | call next cont => ∀ s, I s → R s (next s) ∧ I (next s) ∧ Safe I R (cont s)

section Safe

variable {I : σ → Prop} {R : σ → σ → Prop}

theorem safe_pure (a : α) : Safe I R (pure a : Program σ ε α) := trivial

theorem safe_raise (e : ε) : Safe I R (raise e : Program σ ε α) := trivial

theorem safe_atomic {f : σ → Except ε α × σ} (h : ∀ s, I s → R s (f s).2 ∧ I (f s).2) :
    Safe I R (atomic f) := fun s hs => ⟨(h s hs).1, (h s hs).2, trivial⟩

theorem safe_bind {p : Program σ ε α} {k : α → Program σ ε β} (hp : Safe I R p)
    (hk : ∀ a, Safe I R (k a)) : Safe I R (p >>= k) := by
  show Safe I R (bind p k)
  induction p with
  | done r =>
    cases r with
    | ok a => exact hk a
    | error e => trivial
  | call next cont ih =>
    intro s hs
    obtain ⟨h1, h2, h3⟩ := hp s hs
    exact ⟨h1, h2, ih s h3⟩

theorem safe_forEach {l : List β} {f : β → Program σ ε α} (h : ∀ b ∈ l, Safe I R (f b)) :
    Safe I R (forEach l f) := by
  induction l with
  | nil => trivial
  | cons b bs ih =>
    refine safe_bind (h b (List.mem_cons_self ..)) fun a => ?_
    exact safe_bind (ih fun x hx => h x (List.mem_cons_of_mem b hx)) fun as => trivial

theorem Safe.mono {S : σ → σ → Prop} (hRS : ∀ s s', I s → R s s' → S s s') {p : Program σ ε α}
    (h : Safe I R p) : Safe I S p := by
  induction p with
  | done r => trivial
  | call next cont ih =>
    intro s hs
    obtain ⟨h1, h2, h3⟩ := h s hs
    exact ⟨hRS s _ hs h1, h2, ih s h3⟩

/-- An invariant kept call by call, and a relation kept whatever the state. -/
theorem Safe.along {S : σ → σ → Prop} {p : Program σ ε α} (h : Safe I R p)
    (h' : Safe (fun _ => True) S p) : Safe I S p := by
  induction p with
  | done r => trivial
  | call next cont ih =>
    intro s hs
    obtain ⟨-, hI, hrest⟩ := h s hs
    obtain ⟨hS, -, hrest'⟩ := h' s trivial
    exact ⟨hS, hI, ih s hrest hrest'⟩

/-- What is safe among others is so alone. -/
theorem Safe.solo {p : Program σ ε α} (h : Safe I R p) : Solo I R p := by
  induction p with
  | done r => exact fun _ _ => trivial
  | call next cont ih =>
    intro s hs
    obtain ⟨h1, h2, h3⟩ := h s hs
    exact ⟨⟨h1, fun _ => h2⟩, ih s h3 _ h2⟩

theorem Safe.solo_within {S : σ → σ → Prop} {p : Program σ ε α} (h : Safe I R p)
    (hw : ∀ s, I s → Within S p s) : Solo I S p := fun s hs =>
  ((hw s hs).and (h.solo s hs)).mono fun _ _ hR => ⟨hR.1, hR.2.2⟩

/-- A safe program keeps the invariant when it runs alone. -/
theorem Safe.run_keeps {p : Program σ ε α} (hp : Safe I R p) : ∀ {s}, I s → I (run p s).2 := by
  induction p with
  | done r => intro s hs; exact hs
  | call next cont ih =>
    intro s hs
    obtain ⟨-, h2, h3⟩ := hp s hs
    exact ih s h3 h2

/-- What every call steps along, an invariant that such steps keep, is safe. -/
theorem Safe.invariant {J : σ → Prop} (hRJ : ∀ s s', I s → R s s' → J s → J s')
    {p : Program σ ε α} (hp : Safe I R p) : Safe (fun s => I s ∧ J s) R p := by
  induction p with
  | done r => trivial
  | call next cont ih =>
    intro s hs
    obtain ⟨h1, h2, h3⟩ := hp s hs.1
    exact ⟨h1, ⟨h2, hRJ s _ hs.1 h1 hs.2⟩, ih s h3⟩

/-- What every call keeps within a reflexive and transitive relation, the run keeps. -/
theorem Safe.run_within (hrefl : ∀ s, R s s) (htrans : ∀ {a b c}, R a b → R b c → R a c)
    {p : Program σ ε α} (hp : Safe I R p) {s : σ} (hs : I s) : R s (Program.run p s).2 :=
  ((hp.solo s hs).mono fun _ _ h => h.1).run hrefl htrans

end Safe

/-! ## Invariants up to a branch -/

/-- `p` keeps `I` among others until it comes to a program of which `G` holds. -/
def SafeUnless (G : Program σ ε α → Prop) (I : σ → Prop) : Program σ ε α → Prop
  | done _ => True
  | call next cont =>
    G (call next cont) ∨ ∀ s, I s → I (next s) ∧ SafeUnless G I (cont s)

section SafeUnless

variable {I : σ → Prop} {G : Program σ ε α → Prop} {H : Program σ ε β → Prop}

theorem safeUnless_of_safe {R : σ → σ → Prop} {p : Program σ ε α} (hp : Safe I R p) :
    SafeUnless G I p := by
  induction p with
  | done r => trivial
  | call next cont ih => exact Or.inr fun s hs => ⟨(hp s hs).2.1, ih s (hp s hs).2.2⟩

/-- The rule for sequencing, when whoever comes to `G` has come to `H` in the whole. -/
theorem safeUnless_bind {p : Program σ ε α} {k : α → Program σ ε β} (hp : SafeUnless G I p)
    (hGH : ∀ p, G p → H (p >>= k)) (hk : ∀ a, SafeUnless H I (k a)) :
    SafeUnless H I (p >>= k) := by
  show SafeUnless H I (bind p k)
  induction p with
  | done r =>
    cases r with
    | ok a => exact hk a
    | error e => trivial
  | call next cont ih =>
    rcases hp with hbranch | hp
    · exact Or.inl (hGH _ hbranch)
    · exact Or.inr fun s hs => ⟨(hp s hs).1, ih s (hp s hs).2⟩

end SafeUnless

/-! ## Up to a call that has to come -/

/-- Among others, `p` steps along `R` and keeps `I` until it comes to a program of which `G` holds,
    and it does not return without coming to one. -/
def Until (G : Program σ ε α → Prop) (I : σ → Prop) (R : σ → σ → Prop) : Program σ ε α → Prop
  | done (.ok _) => False
  | done (.error _) => True
  | call next cont =>
    G (call next cont) ∨ ∀ s, I s → R s (next s) ∧ I (next s) ∧ Until G I R (cont s)

section Until

variable {I : σ → Prop} {R : σ → σ → Prop} {G : Program σ ε α → Prop}
  {H : Program σ ε β → Prop}

/-- The call may come after a program that is safe. -/
theorem until_after {p : Program σ ε α} {k : α → Program σ ε β} (hp : Safe I R p)
    (hk : ∀ a, Until H I R (k a)) : Until H I R (p >>= k) := by
  show Until H I R (bind p k)
  induction p with
  | done r =>
    cases r with
    | ok a => exact hk a
    | error e => trivial
  | call next cont ih =>
    refine Or.inr fun s hs => ?_
    obtain ⟨hR, hI, hrest⟩ := hp s hs
    exact ⟨hR, hI, ih s hrest⟩

/-- The call that comes in the first program comes in the whole. -/
theorem until_bind {p : Program σ ε α} {k : α → Program σ ε β} (hp : Until G I R p)
    (hGH : ∀ q, G q → H (q >>= k)) : Until H I R (p >>= k) := by
  show Until H I R (bind p k)
  induction p with
  | done r =>
    cases r with
    | ok a => exact hp.elim
    | error e => trivial
  | call next cont ih =>
    rcases hp with hnow | hlater
    · exact Or.inl (hGH _ hnow)
    · refine Or.inr fun s hs => ?_
      obtain ⟨hR, hI, hrest⟩ := hlater s hs
      exact ⟨hR, hI, ih s hrest⟩

end Until

/-! ## Results that hold among others -/

/-- Whatever the state is replaced by between its calls, what `p` returns satisfies `Q`. -/
def Ends (Q : α → Prop) : Program σ ε α → Prop
  | done (.ok a) => Q a
  | done (.error _) => True
  | call _ cont => ∀ s, Ends Q (cont s)

section Ends

variable {Q : α → Prop}

theorem ends_done {r : Except ε α} (h : ∀ a, r = .ok a → Q a) :
    Ends Q (done r : Program σ ε α) := by
  cases r with
  | ok a => exact h a rfl
  | error e => trivial

theorem ends_atomic {f : σ → Except ε α × σ} (h : ∀ s a, (f s).1 = .ok a → Q a) :
    Ends Q (atomic f) := fun s => ends_done (h s)

theorem ends_bind {Q' : β → Prop} {p : Program σ ε α} {k : α → Program σ ε β} (hp : Ends Q p)
    (hk : ∀ a, Q a → Ends Q' (k a)) : Ends Q' (p >>= k) := by
  show Ends Q' (bind p k)
  induction p with
  | done r =>
    cases r with
    | ok a => exact hk a hp
    | error e => trivial
  | call next cont ih => exact fun s => ih s (hp s)

theorem Ends.mono {Q' : α → Prop} (hQ : ∀ a, Q a → Q' a) {p : Program σ ε α} (h : Ends Q p) :
    Ends Q' p := by
  induction p with
  | done r =>
    cases r with
    | ok a => exact hQ a h
    | error e => trivial
  | call next cont ih => exact fun s => ih s (h s)

/-- Nothing is asked of the results. -/
theorem ends_true (p : Program σ ε α) : Ends (fun _ => True) p := by
  induction p with
  | done r => exact ends_done fun _ _ => trivial
  | call next cont ih => exact fun s => ih s

theorem ends_map {Q' : β → Prop} (p : Program σ ε α) {f : α → β} (h : ∀ a, Q' (f a)) :
    Ends Q' (do let a ← p; pure (f a)) := ends_bind (ends_true p) fun a _ => h a

end Ends

end Program

/-! ## Among others -/

/-- Programs running over one state. -/
structure Pool (σ ε α : Type) where
  state : σ
  threads : List (Program σ ε α)

namespace Pool

variable {σ ε α : Type}

/-- Thread `i` takes its next call; a thread that has ended, or does not exist, does nothing. -/
def step (P : Pool σ ε α) (i : Nat) : Pool σ ε α :=
  match P.threads[i]? with
  | some (.call next cont) => ⟨next P.state, P.threads.set i (cont P.state)⟩
  | _ => P

/-- The pool under a schedule: the thread numbers in the order in which they take a call. -/
def exec (P : Pool σ ε α) : List Nat → Pool σ ε α
  | [] => P
  | i :: rest => exec (P.step i) rest

@[simp] theorem exec_nil (P : Pool σ ε α) : P.exec [] = P := rfl

@[simp] theorem exec_cons (P : Pool σ ε α) (i : Nat) (rest : List Nat) :
    P.exec (i :: rest) = (P.step i).exec rest := rfl

theorem exec_append (P : Pool σ ε α) (l m : List Nat) : P.exec (l ++ m) = (P.exec l).exec m := by
  induction l generalizing P with
  | nil => rfl
  | cons i l ih => exact ih (P.step i)

/-- A step either does nothing or is the next call of one thread. -/
theorem step_cases (P : Pool σ ε α) (i : Nat) :
    P.step i = P ∨ ∃ next cont, P.threads[i]? = some (.call next cont) ∧
      P.step i = ⟨next P.state, P.threads.set i (cont P.state)⟩ := by
  unfold step
  split
  · rename_i next cont h
    exact Or.inr ⟨next, cont, h, rfl⟩
  · exact Or.inl rfl

/-- Of two threads a step does nothing, or it is the next call of the first or of the second. -/
theorem step_pair (s : σ) (p q : Program σ ε α) (i : Nat) :
    (Pool.mk s [p, q]).step i = ⟨s, [p, q]⟩ ∨
      (i = 0 ∧ ∃ next cont, p = .call next cont ∧
        (Pool.mk s [p, q]).step i = ⟨next s, [cont s, q]⟩) ∨
      (i = 1 ∧ ∃ next cont, q = .call next cont ∧
        (Pool.mk s [p, q]).step i = ⟨next s, [p, cont s]⟩) := by
  match i with
  | 0 =>
    cases p with
    | done r => exact Or.inl rfl
    | call next cont => exact Or.inr (Or.inl ⟨rfl, next, cont, rfl, rfl⟩)
  | 1 =>
    cases q with
    | done r => exact Or.inl rfl
    | call next cont => exact Or.inr (Or.inr ⟨rfl, next, cont, rfl, rfl⟩)
  | n + 2 => exact Or.inl rfl

/-- The invariant rule: what every step of every thread keeps holds after every schedule. -/
theorem exec_invariant {J : Pool σ ε α → Prop} (hstep : ∀ P i, J P → J (P.step i)) :
    ∀ (sched : List Nat) (P : Pool σ ε α), J P → J (P.exec sched) := by
  intro sched
  induction sched with
  | nil => intro P h; exact h
  | cons i rest ih => intro P h; exact ih _ (hstep P i h)

/-- A run all of whose steps meet the condition `G` on the pool and the thread that takes the next
    call. -/
def Along (G : Pool σ ε α → Nat → Prop) (P : Pool σ ε α) : List Nat → Prop
  | [] => True
  | i :: rest => G P i ∧ Along G (P.step i) rest

/-- The invariant rule for the runs along a condition. -/
theorem exec_along {G : Pool σ ε α → Nat → Prop} {J : Pool σ ε α → Prop}
    (hstep : ∀ P i, J P → G P i → J (P.step i)) :
    ∀ (sched : List Nat) (P : Pool σ ε α), J P → Along G P sched → J (P.exec sched) := by
  intro sched
  induction sched with
  | nil => intro P h _; exact h
  | cons i rest ih => intro P h hG; exact ih _ (hstep P i h hG.1) hG.2

theorem along_append {G : Pool σ ε α → Nat → Prop} :
    ∀ (l m : List Nat) (P : Pool σ ε α),
      Along G P (l ++ m) ↔ Along G P l ∧ Along G (P.exec l) m := by
  intro l
  induction l with
  | nil => intro m P; exact ⟨fun h => ⟨trivial, h⟩, fun h => h.2⟩
  | cons i l ih => intro m P; exact (and_congr_right fun _ => ih m (P.step i)).trans and_assoc.symm

/-- A step of safe threads keeps their common invariant, and leaves safe threads. -/
theorem step_safe {I : σ → Prop} {R : σ → σ → Prop} {P : Pool σ ε α} (i : Nat)
    (h : I P.state ∧ ∀ p ∈ P.threads, p.Safe I R) :
    I (P.step i).state ∧ ∀ p ∈ (P.step i).threads, p.Safe I R := by
  obtain ⟨hI, hP⟩ := h
  rcases step_cases P i with h | ⟨next, cont, hi, h⟩
  · rw [h]; exact ⟨hI, hP⟩
  · obtain ⟨-, h2, h3⟩ := hP _ (List.mem_of_getElem? hi) P.state hI
    rw [h]
    refine ⟨h2, fun p hp => ?_⟩
    rcases List.mem_or_eq_of_mem_set hp with hp | hp
    · exact hP p hp
    · rw [hp]; exact h3

/-- The rule for safe threads: under any schedule the state keeps their common invariant. -/
theorem exec_safe {I : σ → Prop} {R : σ → σ → Prop} (sched : List Nat) (P : Pool σ ε α)
    (hI : I P.state) (hP : ∀ p ∈ P.threads, p.Safe I R) : I (P.exec sched).state :=
  (exec_invariant (J := fun P => I P.state ∧ ∀ p ∈ P.threads, p.Safe I R)
    (fun _ i h => step_safe i h) sched P ⟨hI, hP⟩).1

/-- The rule for threads that are safe up to a branch: under every schedule in which no thread takes
    a call in that branch the state keeps their common invariant. -/
theorem exec_safeUnless {I : σ → Prop} {G : Program σ ε α → Prop} (sched : List Nat)
    (P : Pool σ ε α) (hI : I P.state) (hP : ∀ p ∈ P.threads, p.SafeUnless G I)
    (halong : Along (fun P i => ∀ p, P.threads[i]? = some p → ¬ G p) P sched) :
    I (P.exec sched).state := by
  refine (exec_along (J := fun P => I P.state ∧ ∀ p ∈ P.threads, p.SafeUnless G I)
    (fun P i hJ hbranch => ?_) sched P ⟨hI, hP⟩ halong).1
  rcases step_cases P i with h | ⟨next, cont, hi, h⟩
  · rw [h]
    exact hJ
  · rcases hJ.2 _ (List.mem_of_getElem? hi) with hG | hsafe
    · exact absurd hG (hbranch _ hi)
    · obtain ⟨hnext, hcont⟩ := hsafe P.state hJ.1
      rw [h]
      refine ⟨hnext, fun p hp => ?_⟩
      rcases List.mem_or_eq_of_mem_set hp with hp | rfl
      · exact hJ.2 p hp
      · exact hcont

end Pool

end Atomic
