/-
  The retry accounting of a swarm lease (`vad/swarm/leases.py`).

  A lease keeps when it runs out, and how often it was found run out.  Heartbeats move the first,
  evaluations read it and move the second, and the calls come at any times: later or earlier than
  the ones before, naive or aware.

  1. **A missed heartbeat** (`Misses`) — the one call that counts: an evaluation of a lease that is
     not blocked, at a time behind its expiry.
  2. **The invariant** (`Accounted`) — the lease is blocked exactly above its limit, and never more
     than one above.  It is kept because the count moves only below the limit or at it
     (`call_accounted`).
  3. **The result** (`retry_accounting`) — over any calls the count is that of the missed heartbeats,
     and a blocked lease is changed by nothing.
-/
import Vad.ControlPlane.Model
import Vad.Lib.Attempts

namespace Vad

/-! ## Times -/

namespace DateTime

/-- `datetime.min` and `datetime.max`. -/
def minWall : Int := -62135596800000000

def maxWall : Int := 253402300799999999

/-- `t + timedelta(seconds=n)`; a number of seconds that `timedelta` refuses would also leave the
    calendar. -/
def plusSeconds (t : DateTime) (n : Int) : Except PyError DateTime :=
  let moved := t.addSeconds n
  if minWall ≤ moved.wall ∧ moved.wall ≤ maxWall then .ok moved else .error .overflowError

/-- `t <= u`: a naive time and an aware one have no order. -/
def atMost (t u : DateTime) : Except PyError Bool :=
  if t.isAware = u.isAware then .ok (decide (t.instant ≤ u.instant)) else .error .typeError

/-- The time is later than the other, of its kind. -/
def Behind (t u : DateTime) : Prop := t.isAware = u.isAware ∧ u.instant < t.instant

instance (t u : DateTime) : Decidable (Behind t u) := inferInstanceAs (Decidable (_ ∧ _))

theorem atMost_eq_false_iff {t u : DateTime} : t.atMost u = .ok false ↔ t.Behind u := by
  unfold atMost Behind
  by_cases hkind : t.isAware = u.isAware
  · rw [if_pos hkind]
    constructor
    · intro h
      have hlater : ¬ t.instant ≤ u.instant := of_decide_eq_false (Except.ok.inj h)
      exact ⟨hkind, by omega⟩
    · rintro ⟨-, hlater⟩
      have hnot : ¬ t.instant ≤ u.instant := by omega
      exact congrArg Except.ok (decide_eq_false hnot)
  · rw [if_neg hkind]
    exact ⟨fun h => (nomatch h), fun h => absurd h.1 hkind⟩

end DateTime

namespace Swarm

/-! ## The lease -/

structure TaskLease where
  taskId : String
  holderId : String
  expiresAt : DateTime
  retryCount : Int := 0
  maxRetries : Int := 3
  blocked : Bool := false
  blocker : Option String := none
deriving DecidableEq, Repr

instance : Model TaskLease where
  name := "TaskLease"
  normalize := id
  checks l := [
    ("retry_count", decide (0 ≤ l.retryCount)),
    ("max_retries", decide (0 ≤ l.maxRetries))]
  normalize_idem _ := rfl

namespace TaskLease

/-- `TaskLease.heartbeat`. -/
def heartbeat (l : TaskLease) (now : DateTime) (ttlSeconds : Int) :
    Except PyError Unit × TaskLease :=
  if l.blocked then (.ok (), l)
  else match now.plusSeconds ttlSeconds with
    | .error e => (.error e, l)
    | .ok expiry => (.ok (), { l with expiresAt := expiry })

/-- The assignments of an evaluation that finds the lease run out. -/
def strike (l : TaskLease) : TaskLease :=
  let l := { l with retryCount := l.retryCount + 1 }
  if l.maxRetries < l.retryCount then
    { l with
      blocked := true
      blocker := some "retry limit exceeded" }
  else { l with blocker := some "missed heartbeat" }

/-- `TaskLease.evaluate`. -/
def evaluate (l : TaskLease) (now : DateTime) : Except PyError Unit × TaskLease :=
  if l.blocked then (.ok (), l)
  else match now.atMost l.expiresAt with
    | .error e => (.error e, l)
    | .ok true => (.ok (), l)
    | .ok false => (.ok (), l.strike)

end TaskLease

/-- A call on a lease. -/
inductive LeaseCall where
  | heartbeat (now : DateTime) (ttlSeconds : Int)
  | evaluate (now : DateTime)

namespace TaskLease

def call (l : TaskLease) : LeaseCall → Except PyError Unit × TaskLease
  | .heartbeat now ttlSeconds => l.heartbeat now ttlSeconds
  | .evaluate now => l.evaluate now

/-- The lease after the calls, whether they raise or not. -/
def after (l : TaskLease) (calls : List LeaseCall) : TaskLease := Attempts.run call l calls

/-- An evaluation, while the lease is not blocked, at a time behind its expiry. -/
def Misses (l : TaskLease) : LeaseCall → Prop
  | .heartbeat _ _ => False
  | .evaluate now => l.blocked = false ∧ now.Behind l.expiresAt

instance (l : TaskLease) : DecidablePred l.Misses
  | .heartbeat _ _ => inferInstanceAs (Decidable False)
  | .evaluate _ => inferInstanceAs (Decidable (_ ∧ _))

/-- How many of the calls find a missed heartbeat. -/
def missed (l : TaskLease) (calls : List LeaseCall) : Nat :=
  Attempts.counted call (fun l c => decide (l.Misses c)) l calls

/-! ## One call -/

/-- What a call can do: count a missed heartbeat, move the expiry, or nothing. -/
inductive Effect (l : TaskLease) (c : LeaseCall) : TaskLease → Prop
  | struck (hmiss : l.Misses c) : Effect l c l.strike
  | moved (hquiet : ¬ l.Misses c) (hfree : l.blocked = false) (expiry : DateTime) :
      Effect l c { l with expiresAt := expiry }
  | nothing (hquiet : ¬ l.Misses c) : Effect l c l

variable {l : TaskLease}

theorem heartbeat_effect (now : DateTime) (ttlSeconds : Int) :
    Effect l (.heartbeat now ttlSeconds) (l.heartbeat now ttlSeconds).2 := by
  have hquiet : ¬ l.Misses (.heartbeat now ttlSeconds) := id
  unfold heartbeat
  by_cases hblocked : l.blocked = true
  · rw [if_pos hblocked]
    exact Effect.nothing hquiet
  · rw [if_neg hblocked]
    cases now.plusSeconds ttlSeconds with
    | error e => exact Effect.nothing hquiet
    | ok expiry => exact Effect.moved hquiet (Bool.eq_false_iff.mpr hblocked) expiry

theorem evaluate_effect (now : DateTime) : Effect l (.evaluate now) (l.evaluate now).2 := by
  unfold evaluate
  by_cases hblocked : l.blocked = true
  · rw [if_pos hblocked]
    refine Effect.nothing fun hmiss => ?_
    have hfree : l.blocked = false := hmiss.1
    exact absurd hblocked (Bool.eq_false_iff.mp hfree)
  · rw [if_neg hblocked]
    -- only an order that exists and is the wrong way round makes the call count
    cases horder : now.atMost l.expiresAt with
    | error e =>
      refine Effect.nothing fun hmiss => ?_
      have hfalse := DateTime.atMost_eq_false_iff.mpr hmiss.2
      exact (nomatch horder.symm.trans hfalse)
    | ok intime =>
      cases intime with
      | true =>
        refine Effect.nothing fun hmiss => ?_
        have hfalse := DateTime.atMost_eq_false_iff.mpr hmiss.2
        exact (nomatch horder.symm.trans hfalse)
      | false =>
        have hbehind := DateTime.atMost_eq_false_iff.mp horder
        exact Effect.struck ⟨Bool.eq_false_iff.mpr hblocked, hbehind⟩

theorem call_effect (c : LeaseCall) : Effect l c (l.call c).2 := by
  cases c with
  | heartbeat now ttlSeconds => exact heartbeat_effect now ttlSeconds
  | evaluate now => exact evaluate_effect now

@[simp] theorem strike_retryCount : l.strike.retryCount = l.retryCount + 1 := by
  unfold strike
  dsimp only
  split <;> rfl

@[simp] theorem strike_maxRetries : l.strike.maxRetries = l.maxRetries := by
  unfold strike
  dsimp only
  split <;> rfl

theorem strike_blocked (hfree : l.blocked = false) :
    l.strike.blocked = true ↔ l.maxRetries < l.retryCount + 1 := by
  unfold strike
  dsimp only
  split
  · rename_i habove
    exact iff_of_true rfl habove
  · rename_i hbelow
    refine iff_of_false ?_ hbelow
    show ¬ l.blocked = true
    rw [hfree]
    decide

/-- The count moves with the missed heartbeats. -/
theorem call_counts (l : TaskLease) (c : LeaseCall) : (Attempts.next call l c).retryCount =
    l.retryCount + if decide (l.Misses c) then 1 else 0 := by
  unfold Attempts.next
  have heffect := call_effect (l := l) c
  generalize (l.call c).2 = l' at heffect ⊢
  cases heffect with
  | struck hmiss => rw [if_pos (decide_eq_true hmiss), strike_retryCount]
  | moved hquiet => rw [if_neg (by simpa using hquiet), Int.add_zero]
  | nothing hquiet => rw [if_neg (by simpa using hquiet), Int.add_zero]

/-- Nothing changes a blocked lease. -/
theorem call_blocked (hblocked : l.blocked = true) (c : LeaseCall) :
    Attempts.next call l c = l := by
  unfold Attempts.next
  cases c with
  | heartbeat now ttlSeconds =>
    show (l.heartbeat now ttlSeconds).2 = l
    unfold heartbeat
    rw [if_pos hblocked]
  | evaluate now =>
    show (l.evaluate now).2 = l
    unfold evaluate
    rw [if_pos hblocked]

/-! ## The invariant -/

/-- Blocked exactly above the limit, and never more than one above it. -/
structure Accounted (l : TaskLease) : Prop where
  blocked_iff : l.blocked = true ↔ l.maxRetries < l.retryCount
  le : l.retryCount ≤ l.maxRetries + 1

theorem call_accounted (l : TaskLease) (c : LeaseCall) (h : l.Accounted) :
    (Attempts.next call l c).Accounted := by
  unfold Attempts.next
  have heffect := call_effect (l := l) c
  generalize (l.call c).2 = l' at heffect ⊢
  cases heffect with
  | struck hmiss =>
    cases c with
    | heartbeat => exact hmiss.elim
    | evaluate now =>
      have hfree : l.blocked = false := hmiss.1
      -- a lease that is not blocked has a retry left to count
      have hleft : l.retryCount ≤ l.maxRetries := by
        have hnot := mt h.blocked_iff.mpr (Bool.eq_false_iff.mp hfree)
        omega
      refine ⟨?_, ?_⟩
      · rw [strike_blocked hfree, strike_maxRetries, strike_retryCount]
      · rw [strike_maxRetries, strike_retryCount]
        omega
  | moved _ _ expiry => exact ⟨h.blocked_iff, h.le⟩
  | nothing => exact h

theorem fresh_accounted (hlimit : 0 ≤ l.maxRetries) (hretry : l.retryCount = 0)
    (hfree : l.blocked = false) : l.Accounted := by
  refine ⟨?_, by omega⟩
  rw [hfree]
  exact iff_of_false (by decide) (by omega)

/-- The names and the limit of a lease are those of the other. -/
structure Named (l l' : TaskLease) : Prop where
  taskId : l'.taskId = l.taskId
  holderId : l'.holderId = l.holderId
  maxRetries : l'.maxRetries = l.maxRetries

theorem call_named {l : TaskLease} (l' : TaskLease) (c : LeaseCall) (h : Named l l') :
    Named l (Attempts.next call l' c) := by
  unfold Attempts.next
  have heffect := call_effect (l := l') c
  generalize (l'.call c).2 = l'' at heffect ⊢
  cases heffect with
  | struck =>
    unfold strike
    dsimp only
    split <;> exact ⟨h.taskId, h.holderId, h.maxRetries⟩
  | moved => exact ⟨h.taskId, h.holderId, h.maxRetries⟩
  | nothing => exact h

/-- No call renames a lease or moves its limit. -/
theorem after_named (l : TaskLease) (calls : List LeaseCall) : Named l (l.after calls) :=
  Attempts.run_invariant call_named ⟨rfl, rfl, rfl⟩ calls

theorem maxRetries_nonneg (l : Checked TaskLease) : 0 ≤ l.1.maxRetries := by
  have hchecks := failedFields_eq_nil.mp l.2.2
  have hmax := hchecks ("max_retries", decide (0 ≤ l.1.maxRetries)) (by simp [Model.checks])
  exact of_decide_eq_true hmax

end TaskLease

open TaskLease in
/-- The retry accounting of a lease that is built fresh, after any calls at any times: it is blocked
    exactly above its limit and at most one above, its count is that of the missed heartbeats, and
    once it is blocked no further calls change anything of it. -/
theorem retry_accounting (lease : Checked TaskLease) (hretry : lease.1.retryCount = 0)
    (hfree : lease.1.blocked = false) (calls : List LeaseCall) :
    ((lease.1.after calls).blocked = true ↔
        (lease.1.after calls).maxRetries < (lease.1.after calls).retryCount) ∧
      (lease.1.after calls).retryCount ≤ (lease.1.after calls).maxRetries + 1 ∧
      (lease.1.after calls).retryCount = lease.1.missed calls ∧
      ((lease.1.after calls).blocked = true →
        ∀ more, lease.1.after (calls ++ more) = lease.1.after calls) := by
  have hfresh := fresh_accounted (maxRetries_nonneg lease) hretry hfree
  have haccounted : (lease.1.after calls).Accounted :=
    Attempts.run_invariant call_accounted hfresh calls
  refine ⟨haccounted.blocked_iff, haccounted.le, ?_, ?_⟩
  · have hcount := Attempts.counter_run call_counts lease.1 calls
    rw [hretry, Int.zero_add] at hcount
    exact hcount
  · intro hblocked more
    have hrest := Attempts.run_at_rest (call_blocked hblocked) more
    exact (Attempts.run_append lease.1 calls more).trans hrest

open TaskLease in
/-- A lease with one retry: found run out twice, renewed in between, it is blocked, and the time
    of another kind that comes first raises and counts for nothing. -/
theorem late_twice_accounted :
    ((TaskLease.after ⟨"build", "builder", ⟨0, none⟩, 0, 1, false, none⟩
        [.evaluate ⟨5000000, some 0⟩, .evaluate ⟨1, none⟩, .heartbeat ⟨2, none⟩ 1,
          .evaluate ⟨1000002, none⟩, .evaluate ⟨1000003, none⟩, .heartbeat ⟨3, none⟩ 60]).retryCount =
      TaskLease.missed ⟨"build", "builder", ⟨0, none⟩, 0, 1, false, none⟩
        [.evaluate ⟨5000000, some 0⟩, .evaluate ⟨1, none⟩, .heartbeat ⟨2, none⟩ 1,
          .evaluate ⟨1000002, none⟩, .evaluate ⟨1000003, none⟩, .heartbeat ⟨3, none⟩ 60]) ∧
      TaskLease.after ⟨"build", "builder", ⟨0, none⟩, 0, 1, false, none⟩
          [.evaluate ⟨5000000, some 0⟩, .evaluate ⟨1, none⟩, .heartbeat ⟨2, none⟩ 1,
            .evaluate ⟨1000002, none⟩, .evaluate ⟨1000003, none⟩, .heartbeat ⟨3, none⟩ 60] =
        ⟨"build", "builder", ⟨1000002, none⟩, 2, 1, true, some "retry limit exceeded"⟩ :=
  ⟨(retry_accounting ⟨⟨"build", "builder", ⟨0, none⟩, 0, 1, false, none⟩, rfl, by decide⟩ rfl rfl
    _).2.2.1, by decide⟩

end Swarm

end Vad
