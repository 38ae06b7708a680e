/-
  Loops whose turns check something and then change something, and what such a loop leaves behind
  when it fails.

  A turn is described on a view of the state (`Turns`): when it is refused, when it would change
  something, and the view it leaves.  The calls may also fail for reasons of their own (`fault`).
  Two predicates on the list of the turns then say everything about the loop:

  1. `Refused` — some turn is refused in the view the earlier ones leave: the loop raises.
  2. `Quiet` — no turn changes anything before the first one that is refused: every call of the run
     leaves things as they were.

  `failsClean_loop` puts them together: unless the calls themselves fail, an exception means that
  nothing was changed exactly when the loop is quiet, or when nothing in it is refused and what
  comes after it does not raise either.
-/
import Vad.Lib.Program

namespace Atomic.Program

variable {σ ε α β V : Type}

/-- If `p` raises an exception of the kind, no call of its run steps outside `R`. -/
def FailsClean (R : σ → σ → Prop) (kind : ε → Prop) (p : Program σ ε α) (s : σ) : Prop :=
  ∀ e, (run p s).1 = .error e → kind e → Within R p s

theorem within_bind_iff {R : σ → σ → Prop} {p : Program σ ε α} {k : α → Program σ ε β} {s : σ} :
    Within R (p >>= k) s ↔
      Within R p s ∧ ∀ a s', Returns p s a s' → Within R (k a) s' := by
  show Within R (bind p k) s ↔ _
  induction p generalizing s with
  | done r =>
    cases r with
    | ok a =>
      constructor
      · intro h
        refine ⟨trivial, fun a' s' hret => ?_⟩
        cases hret
        exact h
      · exact fun h => h.2 a s rfl
    | error e => exact ⟨fun _ => ⟨trivial, fun a s' hret => (by cases hret)⟩, fun _ => trivial⟩
  | call next cont ih =>
    constructor
    · rintro ⟨hfirst, hrest⟩
      obtain ⟨hcont, hk⟩ := (ih _).mp hrest
      exact ⟨⟨hfirst, hcont⟩, hk⟩
    · rintro ⟨⟨hfirst, hcont⟩, hk⟩
      exact ⟨hfirst, (ih _).mpr ⟨hcont, hk⟩⟩

/-- Behind a program that returns, only the rest is left to look at. -/
theorem within_bind_of_returns {R : σ → σ → Prop} {p : Program σ ε α} {k : α → Program σ ε β}
    {s s' : σ} {a : α} (h : Returns p s a s') :
    Within R (p >>= k) s ↔ Within R p s ∧ Within R (k a) s' := by
  refine within_bind_iff.trans (and_congr_right fun _ => ⟨fun hall => hall a s' h, ?_⟩)
  intro hone a' s'' h'
  obtain ⟨rfl, rfl⟩ := h.unique h'
  exact hone

theorem run_bind_of_returns {p : Program σ ε α} {k : α → Program σ ε β} {s s' : σ} {a : α}
    (h : Returns p s a s') : run (p >>= k) s = run (k a) s' := by
  rw [run_bind, show run p s = _ from h]

theorem run_bind_of_error {p : Program σ ε α} {k : α → Program σ ε β} {s s' : σ} {e : ε}
    (h : run p s = (.error e, s')) : run (p >>= k) s = (.error e, s') := by
  rw [run_bind, h]

theorem within_bind_of_error {R : σ → σ → Prop} {p : Program σ ε α} {k : α → Program σ ε β}
    {s s' : σ} {e : ε} (h : run p s = (.error e, s')) :
    Within R (p >>= k) s ↔ Within R p s := by
  refine within_bind_iff.trans (and_iff_left fun a s'' h' => ?_)
  rw [show run p s = _ from h'] at h
  cases h

/-! ## Turns -/

/-- What the turns of a loop do to a view of the state. -/
structure Turns (view : σ → V) (R : σ → σ → Prop) (fault : ε → Prop) (refuses : V → β → Prop)
    (changes : V → β → Prop) (after : V → β → V) (f : β → Program σ ε α) : Prop where
  refused : ∀ b s, refuses (view s) b → Within R (f b) s ∧ ∃ e s', run (f b) s = (.error e, s')
  passed : ∀ b s, ¬ refuses (view s) b →
    (∃ e s', run (f b) s = (.error e, s') ∧ fault e) ∨
      ∃ a s', Returns (f b) s a s' ∧ view s' = after (view s) b ∧
        (Within R (f b) s ↔ ¬ changes (view s) b)
  keeps : ∀ v b, ¬ changes v b → after v b = v

/-- Some turn is refused when it comes. -/
def Refused (refuses : V → β → Prop) (after : V → β → V) : V → List β → Prop
  | _, [] => False
  | v, b :: rest => refuses v b ∨ Refused refuses after (after v b) rest

/-- Nothing is changed before the first refused turn: seen from the start, a turn that would change
    something has a refused one in front of it, or is refused itself. -/
def Quiet (refuses changes : V → β → Prop) (v : V) (bs : List β) : Prop :=
  ∀ ran b rest, bs = ran ++ b :: rest → changes v b → ∃ x ∈ ran ++ [b], refuses v x

section Turns

variable {view : σ → V} {R : σ → σ → Prop} {fault : ε → Prop} {refuses changes : V → β → Prop}
  {after : V → β → V} {f : β → Program σ ε α}

theorem refused_iff {v : V} {bs : List β} : Refused refuses after v bs ↔
    ∃ ran b rest, bs = ran ++ b :: rest ∧ refuses (ran.foldl after v) b := by
  induction bs generalizing v with
  | nil =>
    refine ⟨fun h => h.elim, ?_⟩
    rintro ⟨ran, b, rest, hbs, -⟩
    exact absurd hbs (by simp)
  | cons b bs ih =>
    constructor
    · rintro (h | h)
      · exact ⟨[], b, bs, rfl, h⟩
      · obtain ⟨ran, x, rest, rfl, hx⟩ := ih.mp h
        exact ⟨b :: ran, x, rest, rfl, hx⟩
    · rintro ⟨ran, x, rest, hbs, hx⟩
      cases ran with
      | nil =>
        cases hbs
        exact Or.inl hx
      | cons y ran =>
        cases hbs
        exact Or.inr (ih.mpr ⟨ran, x, rest, rfl, hx⟩)

theorem quiet_nil (v : V) : Quiet refuses changes v ([] : List β) := by
  intro ran b rest h
  exact absurd h (by simp)

theorem quiet_cons {v : V} {b : β} {bs : List β} : Quiet refuses changes v (b :: bs) ↔
    refuses v b ∨ (¬ changes v b ∧ Quiet refuses changes v bs) := by
  constructor
  · intro h
    by_cases hrefused : refuses v b
    · exact Or.inl hrefused
    · refine Or.inr ⟨fun hchanges => ?_, fun ran x rest hbs hx => ?_⟩
      · obtain ⟨x, hx, hrefuses⟩ := h [] b bs rfl hchanges
        rw [List.nil_append, List.mem_singleton] at hx
        exact hrefused (hx ▸ hrefuses)
      · obtain ⟨y, hy, hrefuses⟩ := h (b :: ran) x rest (congrArg (b :: ·) hbs) hx
        rcases List.mem_cons.mp hy with rfl | hy
        · exact absurd hrefuses hrefused
        · exact ⟨y, hy, hrefuses⟩
  · rintro (hrefused | ⟨hchanges, hrest⟩) ran x rest hbs hx
    · refine ⟨b, ?_, hrefused⟩
      cases ran with
      | nil =>
        cases hbs
        exact List.mem_singleton.mpr rfl
      | cons y ran =>
        cases hbs
        exact List.mem_cons_self ..
    · cases ran with
      | nil =>
        cases hbs
        exact absurd hx hchanges
      | cons y ran =>
        cases hbs
        obtain ⟨z, hz, hrefuses⟩ := hrest ran x rest rfl hx
        exact ⟨z, List.mem_cons_of_mem _ hz, hrefuses⟩

/-- A loop ends with a fault, or raises because a turn is refused, or returns. -/
theorem run_turns (h : Turns view R fault refuses changes after f) (bs : List β) (s : σ) :
    (∃ e s', run (forEach bs f) s = (.error e, s') ∧ fault e) ∨
      (Refused refuses after (view s) bs ∧ ∃ e s', run (forEach bs f) s = (.error e, s')) ∨
      (¬ Refused refuses after (view s) bs ∧ ∃ as s', Returns (forEach bs f) s as s') := by
  induction bs generalizing s with
  | nil => exact Or.inr (Or.inr ⟨fun h => h, [], s, rfl⟩)
  | cons b bs ih =>
    have hrun : ∀ {a s'}, Returns (f b) s a s' → run (forEach (b :: bs) f) s =
        ((run (forEach bs f) s').1.map (a :: ·), (run (forEach bs f) s').2) :=
      fun hret => (run_bind_of_returns hret).trans (run_map _ _ _)
    have hraised : ∀ {e s'}, run (f b) s = (.error e, s') →
        run (forEach (b :: bs) f) s = (.error e, s') := run_bind_of_error
    by_cases hrefused : refuses (view s) b
    · obtain ⟨-, e, s', herror⟩ := h.refused b s hrefused
      exact Or.inr (Or.inl ⟨Or.inl hrefused, e, s', hraised herror⟩)
    · rcases h.passed b s hrefused with ⟨e, s', herror, hfault⟩ | ⟨a, s', hret, hview, -⟩
      · exact Or.inl ⟨e, s', hraised herror, hfault⟩
      · have hiff : Refused refuses after (view s) (b :: bs) ↔
            Refused refuses after (view s') bs := by
          rw [hview]
          exact or_iff_right hrefused
        rw [hrun hret, hiff]
        rcases ih s' with ⟨e, s'', herror, hfault⟩ | ⟨hrest, e, s'', herror⟩ | ⟨hrest, as, s'', has⟩
        · rw [herror]
          exact Or.inl ⟨e, s'', rfl, hfault⟩
        · rw [herror]
          exact Or.inr (Or.inl ⟨hrest, e, s'', rfl⟩)
        · refine Or.inr (Or.inr ⟨hrest, a :: as, s'', ?_⟩)
          show run (forEach (b :: bs) f) s = _
          rw [hrun hret, show run (forEach bs f) s' = _ from has]
          rfl

/-- A loop that returns had no turn refused, and leaves what its turns leave one after another. -/
theorem returns_turns (h : Turns view R fault refuses changes after f) {bs : List β} {s s' : σ}
    {as : List α} (hret : Returns (forEach bs f) s as s') :
    ¬ Refused refuses after (view s) bs ∧ view s' = bs.foldl after (view s) := by
  induction bs generalizing s as with
  | nil =>
    cases hret
    exact ⟨fun hrefused => hrefused, rfl⟩
  | cons b bs ih =>
    obtain ⟨a, s₁, hfirst, htail⟩ := returns_bind.mp hret
    obtain ⟨as', s₂, hrest, hpure⟩ := returns_bind.mp htail
    cases hpure
    by_cases hrefused : refuses (view s) b
    · obtain ⟨-, e, s₃, herror⟩ := h.refused b s hrefused
      cases herror.symm.trans hfirst
    · rcases h.passed b s hrefused with ⟨e, s₃, herror, -⟩ | ⟨a', s₃, hret', hview, -⟩
      · cases herror.symm.trans hfirst
      · obtain ⟨rfl, rfl⟩ := hret'.unique hfirst
        obtain ⟨hpassed, hleft⟩ := ih hrest
        rw [hview] at hpassed hleft
        exact ⟨fun hor => hor.elim hrefused hpassed, hleft⟩

/-- Unless the loop ends with a fault, its calls change nothing exactly when it is quiet. -/
theorem within_turns (h : Turns view R fault refuses changes after f) (bs : List β) (s : σ) :
    (∃ e s', run (forEach bs f) s = (.error e, s') ∧ fault e) ∨
      (Within R (forEach bs f) s ↔ Quiet refuses changes (view s) bs) := by
  induction bs generalizing s with
  | nil => exact Or.inr ⟨fun _ => quiet_nil _, fun _ => trivial⟩
  | cons b bs ih =>
    rw [quiet_cons]
    by_cases hrefused : refuses (view s) b
    · obtain ⟨hwithin, e, s', herror⟩ := h.refused b s hrefused
      exact Or.inr (iff_of_true ((within_bind_of_error herror).mpr hwithin) (Or.inl hrefused))
    · rcases h.passed b s hrefused with ⟨e, s', herror, hfault⟩ | ⟨a, s', hret, hview, hwithin⟩
      · exact Or.inl ⟨e, s', run_bind_of_error herror, hfault⟩
      · rcases ih s' with ⟨e, s'', herror, hfault⟩ | hrest
        · exact Or.inl ⟨e, s'',
            (run_bind_of_returns hret).trans (run_bind_of_error herror), hfault⟩
        · right
          have hsplit : Within R (forEach (b :: bs) f) s ↔
              Within R (f b) s ∧ Within R (forEach bs f) s' :=
            (within_bind_of_returns hret).trans (and_congr_right fun _ =>
              within_bind_iff.trans (and_iff_left fun _ _ _ => trivial))
          rw [hsplit, or_iff_right hrefused, hwithin]
          refine and_congr_right fun hchanges => ?_
          -- nothing was changed, so the rest is seen from the same view
          rw [h.keeps _ _ hchanges] at hview
          rw [← hview, ← hrest]

/-- When a loop, and what follows it when `good`, raise without a trace. -/
def LoopSettled (refuses changes : V → β → Prop) (after : V → β → V) (good : Prop) (v : V)
    (bs : List β) : Prop :=
  Quiet refuses changes v bs ∨ (¬ Refused refuses after v bs ∧ good)

/-- **The rule for loops that check before they change**, where `final` makes the result of what
    the turns returned: it can if `sure`, and only if `possible`. -/
theorem failsClean_loop (h : Turns view R fault refuses changes after f) {bs : List β} {s : σ}
    {final : List α → Except ε γ} {sure possible : Prop}
    (hsure : ∀ as s', Returns (forEach bs f) s as s' → sure → ∃ r, final as = .ok r)
    (hpossible : ∀ as s', Returns (forEach bs f) s as s' → (∃ r, final as = .ok r) → possible) :
    let p := do
      let as ← forEach bs f
      done (final as)
    (LoopSettled refuses changes after sure (view s) bs →
      FailsClean R (fun e => ¬ fault e) p s) ∧
    ((∀ e, (run p s).1 = .error e → ¬ fault e) → FailsClean R (fun e => ¬ fault e) p s →
      LoopSettled refuses changes after possible (view s) bs) := by
  intro p
  have hwithin : Within R p s ↔ Within R (forEach bs f) s :=
    within_bind_iff.trans (and_iff_left fun _ _ _ => trivial)
  have hraised : ∀ {e s'}, run (forEach bs f) s = (.error e, s') → run p s = (.error e, s') :=
    fun herror => run_bind_of_error herror
  have hreturned : ∀ {as s'}, Returns (forEach bs f) s as s' → run p s = (final as, s') :=
    fun hret => run_bind_of_returns hret
  constructor
  · rintro hsettled e herror hkind
    rcases within_turns h bs s with ⟨e', s', hfaulty, hfault⟩ | hquiet
    · rw [hraised hfaulty] at herror
      cases herror
      exact absurd hfault hkind
    · rcases hsettled with hq | ⟨hpass, hok⟩
      · exact hwithin.mpr (hquiet.mpr hq)
      · -- nothing is refused and the result is made: there is no exception
        rcases run_turns h bs s with ⟨e', s', hfaulty, hfault⟩ | ⟨hrefused, -⟩ | ⟨-, as, s', hret⟩
        · rw [hraised hfaulty] at herror
          cases herror
          exact absurd hfault hkind
        · exact absurd hrefused hpass
        · obtain ⟨r, hr⟩ := hsure as s' hret hok
          rw [hreturned hret, hr] at herror
          cases herror
  · intro hnofault hclean
    rcases within_turns h bs s with ⟨e', s', hfaulty, hfault⟩ | hquiet
    · exact absurd hfault (hnofault e' (congrArg Prod.fst (hraised hfaulty)))
    · rcases run_turns h bs s with ⟨e', s', hfaulty, hfault⟩ | ⟨-, e', s', herror⟩ | ⟨hpass, as, s', hret⟩
      · exact absurd hfault (hnofault e' (congrArg Prod.fst (hraised hfaulty)))
      · have herror' := congrArg Prod.fst (hraised herror)
        exact Or.inl (hquiet.mp (hwithin.mp (hclean e' herror' (hnofault e' herror'))))
      · cases hfinal : final as with
        | ok r => exact Or.inr ⟨hpass, hpossible as s' hret ⟨r, hfinal⟩⟩
        | error e' =>
          have herror' : (run p s).1 = .error e' := by rw [hreturned hret, hfinal]
          exact Or.inl (hquiet.mp (hwithin.mp (hclean e' herror' (hnofault e' herror'))))

end Turns

end Atomic.Program
