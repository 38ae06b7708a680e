/-
  Keyed tables: what a database keeps under a primary key.

  A `Table key` is a list of rows, in the order of insertion, no two of which have the same key;
  the field `nodup` carries the primary-key constraint, so that every operation below proves it
  once and no caller argues about duplicates.  The operations are those of SQL on one table —
  insert (refused on a duplicate), upsert (`ON CONFLICT DO UPDATE`), update in place, delete —
  each with one lemma that says what `find?` gives afterwards.  Two tables with the same rows are
  equal (`ext`).

  A history of what was written, newest first, tracks a table when the payload of every row is the
  last one written under its key (`Tracks`); each operation has one lemma for that too.
-/
import Mathlib.Data.List.Basic
import Mathlib.Data.List.Nodup
import Mathlib.Data.List.Sort
import Mathlib.Tactic.Common

namespace Keyed

/-- Rows with pairwise distinct keys, in the order in which they were inserted. -/
structure Table {κ ρ : Type} (key : ρ → κ) where
  rows : List ρ
  nodup : (rows.map key).Nodup

namespace Table

variable {κ ρ : Type} {key : ρ → κ}

/-- The table with no rows. -/
def empty : Table key := ⟨[], List.nodup_nil⟩

theorem ext {t u : Table key} (h : t.rows = u.rows) : t = u := by
  cases t; cases u; cases h; rfl

/-! ## Deleting, and reading in order -/

/-- Keep the rows that satisfy `p`: a `DELETE` of the others. -/
def keep (t : Table key) (p : ρ → Bool) : Table key :=
  ⟨t.rows.filter p, (List.Sublist.map key List.filter_sublist).nodup t.nodup⟩

theorem mem_rows_keep {t : Table key} {p : ρ → Bool} {r : ρ} :
    r ∈ (t.keep p).rows ↔ r ∈ t.rows ∧ p r = true := List.mem_filter

/-- `SELECT ... WHERE p ORDER BY le`: the rows that satisfy `p`, sorted by `le`. -/
def select (t : Table key) (p : ρ → Bool) (le : ρ → ρ → Bool) : List ρ :=
  (t.rows.filter p).insertionSort (fun a b => le a b = true)

theorem mem_select {t : Table key} {p : ρ → Bool} {le : ρ → ρ → Bool} {r : ρ} :
    r ∈ t.select p le ↔ r ∈ t.rows ∧ p r = true := by
  rw [select, List.mem_insertionSort, List.mem_filter]

theorem select_perm (t : Table key) (p : ρ → Bool) (le : ρ → ρ → Bool) :
    (t.select p le).Perm (t.rows.filter p) := List.perm_insertionSort _ _

/-- What the selected rows hold is what the rows hold, filtered and sorted, as far as the columns
    that are compared repeat it. -/
theorem map_select {α : Type} {t : Table key} {f : ρ → α} {p : ρ → Bool} {le : ρ → ρ → Bool}
    {q : α → Bool} {lt : α → α → Bool} (hp : ∀ r ∈ t.rows, p r = q (f r))
    (hle : ∀ a ∈ t.rows, ∀ b ∈ t.rows, le a b = lt (f a) (f b)) :
    (t.select p le).map f =
      ((t.rows.map f).filter q).insertionSort (fun a b => lt a b = true) := by
  have hmem {r : ρ} (hr : r ∈ t.rows.filter p) : r ∈ t.rows := (List.mem_filter.mp hr).1
  have hsort : ∀ a ∈ t.rows.filter p, ∀ b ∈ t.rows.filter p,
      le a b = true ↔ lt (f a) (f b) = true := fun a ha b hb => by
    rw [hle a (hmem ha) b (hmem hb)]
  rw [select, List.map_insertionSort (fun a b => le a b = true) (fun a b => lt a b = true) f _ hsort,
    List.filter_map]
  congr 2
  exact List.filter_congr hp

theorem select_keys_nodup (t : Table key) (p : ρ → Bool) (le : ρ → ρ → Bool) :
    ((t.select p le).map key).Nodup := by
  rw [((t.select_perm p le).map key).nodup_iff]
  exact (t.keep p).nodup

/-! ## Looking up -/

variable [DecidableEq κ]

/-- The row stored under `k`. -/
def find? (t : Table key) (k : κ) : Option ρ := t.rows.find? (fun r => key r = k)

/-- Is a row stored under `k`? -/
def has (t : Table key) (k : κ) : Bool := (t.find? k).isSome

theorem find?_empty (k : κ) : (empty : Table key).find? k = none := rfl

theorem key_of_find? {t : Table key} {k : κ} {r : ρ} (h : t.find? k = some r) : key r = k := by
  have := List.find?_some h
  simpa using this

theorem mem_of_find? {t : Table key} {k : κ} {r : ρ} (h : t.find? k = some r) : r ∈ t.rows :=
  List.mem_of_find?_eq_some h

/-- On rows with distinct keys, a row is found under its own key. -/
theorem find?_of_nodup {l : List ρ} (h : (l.map key).Nodup) {r : ρ} (hr : r ∈ l) :
    l.find? (fun x => key x = key r) = some r := by
  induction l with
  | nil => exact absurd hr List.not_mem_nil
  | cons x l ih =>
    rw [List.map_cons, List.nodup_cons] at h
    rcases List.mem_cons.mp hr with rfl | hr
    · exact List.find?_cons_of_pos (by simp)
    · have hne : key x ≠ key r := fun heq => h.1 (heq ▸ List.mem_map_of_mem hr)
      rw [List.find?_cons_of_neg (by simpa using hne)]
      exact ih h.2 hr

theorem mem_rows_iff {t : Table key} {r : ρ} : r ∈ t.rows ↔ t.find? (key r) = some r :=
  ⟨fun h => find?_of_nodup t.nodup h, mem_of_find?⟩

theorem find?_eq_none {t : Table key} {k : κ} : t.find? k = none ↔ ∀ r ∈ t.rows, key r ≠ k := by
  simp [find?, List.find?_eq_none]

theorem has_iff {t : Table key} {k : κ} : t.has k = true ↔ ∃ r, t.find? k = some r :=
  Option.isSome_iff_exists

/-! ## Insert: refused when the key is taken -/

/-- `INSERT`: `none` is the database's refusal of a duplicate key. -/
def insert (t : Table key) (r : ρ) : Option (Table key) :=
  if h : ∀ x ∈ t.rows, key x ≠ key r then
    some ⟨t.rows ++ [r], by
      rw [List.map_append, List.map_singleton]
      refine List.Nodup.append t.nodup (List.nodup_singleton _) ?_
      intro k hk hk'
      obtain ⟨x, hx, rfl⟩ := List.mem_map.mp hk
      exact h x hx (List.mem_singleton.mp hk')⟩
  else none

theorem insert_eq_some {t u : Table key} {r : ρ} :
    t.insert r = some u ↔ t.find? (key r) = none ∧ u.rows = t.rows ++ [r] := by
  unfold insert
  split
  · rename_i h
    rw [Option.some.injEq, find?_eq_none]
    exact ⟨fun hu => ⟨h, by rw [← hu]⟩, fun hu => ext hu.2.symm⟩
  · rename_i h
    rw [find?_eq_none]
    exact ⟨fun hu => by simp at hu, fun hu => absurd hu.1 h⟩

theorem insert_eq_none {t : Table key} {r : ρ} : t.insert r = none ↔ t.has (key r) = true := by
  rw [has_iff]
  constructor
  · intro h
    by_contra hno
    have hnone : t.find? (key r) = none := by
      rw [Option.eq_none_iff_forall_ne_some]
      exact fun x hx => hno ⟨x, hx⟩
    have hcond : ∀ x ∈ t.rows, key x ≠ key r := find?_eq_none.mp hnone
    rw [insert, dif_pos hcond] at h
    exact absurd h (by simp)
  · rintro ⟨x, hx⟩
    rw [insert, dif_neg]
    exact fun hall => hall x (mem_of_find? hx) (key_of_find? hx)

theorem find?_insert {t u : Table key} {r : ρ} (h : t.insert r = some u) (k : κ) :
    u.find? k = if key r = k then some r else t.find? k := by
  obtain ⟨hnone, hrows⟩ := insert_eq_some.mp h
  unfold find? at hnone ⊢
  rw [hrows, List.find?_append]
  by_cases hk : key r = k
  · subst hk
    simp [hnone]
  · simp [hk]

/-- An insertion leaves the rows that are there. -/
theorem find?_of_insert {t u : Table key} {r x : ρ} {k : κ} (h : t.insert r = some u)
    (hx : t.find? k = some x) : u.find? k = some x := by
  rw [find?_insert h]
  split
  · rename_i hk
    rw [← hk, (insert_eq_some.mp h).1] at hx
    cases hx
  · exact hx

/-! ## Upsert -/

/-- The rows after `INSERT ... ON CONFLICT DO UPDATE`. -/
def upsertRows (key : ρ → κ) (r : ρ) : List ρ → List ρ
  | [] => [r]
  | x :: l => if key x = key r then r :: l else x :: upsertRows key r l

theorem keys_upsertRows (r : ρ) (l : List ρ) :
    (upsertRows key r l).map key =
      if key r ∈ l.map key then l.map key else l.map key ++ [key r] := by
  induction l with
  | nil => simp [upsertRows]
  | cons x l ih =>
    by_cases hx : key x = key r
    · simp [upsertRows, hx]
    · have hx' : ¬ key r = key x := fun h => hx h.symm
      rw [upsertRows, if_neg hx, List.map_cons, ih, List.map_cons]
      by_cases hm : key r ∈ l.map key
      · rw [if_pos hm, if_pos (List.mem_cons_of_mem _ hm)]
      · rw [if_neg hm, if_neg (by rw [List.mem_cons]; exact fun h => h.elim hx' hm)]
        rfl

/-- `INSERT ... ON CONFLICT DO UPDATE` of a whole row. -/
def upsert (t : Table key) (r : ρ) : Table key :=
  ⟨upsertRows key r t.rows, by
    rw [keys_upsertRows]
    split
    · exact t.nodup
    · rename_i h
      refine List.Nodup.append t.nodup (List.nodup_singleton _) ?_
      intro k hk hk'
      rw [List.mem_singleton] at hk'
      exact h (hk' ▸ hk)⟩

theorem find?_upsert (t : Table key) (r : ρ) (k : κ) :
    (t.upsert r).find? k = if key r = k then some r else t.find? k := by
  unfold upsert find?
  show (upsertRows key r t.rows).find? _ = if key r = k then some r else t.rows.find? _
  generalize t.rows = l
  induction l with
  | nil => by_cases hk : key r = k <;> simp [upsertRows, hk]
  | cons x l ih =>
    by_cases hx : key x = key r
    · by_cases hk : key r = k
      · simp [upsertRows, hx, hk]
      · have hxk : ¬ key x = k := fun h => hk (hx ▸ h)
        simp [upsertRows, hx, hk]
    · rw [upsertRows, if_neg hx]
      by_cases hxk : key x = k
      · have hk : ¬ key r = k := fun h => hx (hxk.trans h.symm)
        simp [hxk, hk]
      · rw [List.find?_cons_of_neg (by simpa using hxk), ih,
          List.find?_cons_of_neg (by simpa using hxk)]

/-- A row that is there already stays. -/
theorem upsert_of_find? {t : Table key} {r : ρ} (h : t.find? (key r) = some r) : t.upsert r = t := by
  refine ext ?_
  unfold find? at h
  show upsertRows key r t.rows = t.rows
  revert h
  generalize t.rows = l
  intro h
  induction l with
  | nil => cases h
  | cons x l ih =>
    by_cases hx : key x = key r
    · rw [List.find?_cons_of_pos (by simpa using hx)] at h
      cases h
      rw [upsertRows, if_pos rfl]
    · rw [List.find?_cons_of_neg (by simpa using hx)] at h
      rw [upsertRows, if_neg hx, ih h]

/-! ## Changing rows in place -/

/-- Change rows without touching their keys: an `UPDATE`. -/
def mapRows (t : Table key) (f : ρ → ρ) (hf : ∀ r, key (f r) = key r) : Table key :=
  ⟨t.rows.map f, by
    have hkeys : (t.rows.map f).map key = t.rows.map key := by
      rw [List.map_map]
      exact List.map_congr_left fun r _ => hf r
    rw [hkeys]
    exact t.nodup⟩

theorem find?_mapRows (t : Table key) (f : ρ → ρ) (hf : ∀ r, key (f r) = key r) (k : κ) :
    (t.mapRows f hf).find? k = (t.find? k).map f := by
  unfold mapRows find?
  simp [List.find?_map, Function.comp_def, hf]

/-- Replace the row that has `r`'s key, if there is one. -/
def replace (t : Table key) (r : ρ) : Table key :=
  t.mapRows (fun x => if key x = key r then r else x) (by
    intro x
    split
    · rename_i h; exact h.symm
    · rfl)

theorem find?_replace (t : Table key) (r : ρ) (k : κ) :
    (t.replace r).find? k = if key r = k then (t.find? k).map (fun _ => r) else t.find? k := by
  rw [replace, find?_mapRows]
  cases hf : t.find? k with
  | none => simp
  | some x =>
    have hx := key_of_find? hf
    by_cases hk : key r = k
    · simp [hx, hk]
    · have : ¬ key x = key r := fun h => hk (h ▸ hx)
      simp [hk, this]

theorem find?_keep (t : Table key) (p : ρ → Bool) (k : κ) :
    (t.keep p).find? k = (t.find? k).filter p := by
  apply Option.ext
  intro r
  rw [Option.filter_eq_some_iff]
  constructor
  · intro h
    have hr := mem_rows_keep.mp (mem_of_find? h)
    rw [← key_of_find? h]
    exact ⟨mem_rows_iff.mp hr.1, hr.2⟩
  · rintro ⟨h, hp⟩
    have hr : r ∈ (t.keep p).rows := mem_rows_keep.mpr ⟨mem_of_find? h, hp⟩
    have := mem_rows_iff.mp hr
    rwa [key_of_find? h] at this

/-! ## What holds of every row -/

section Forall

variable {Q : ρ → Prop} {t : Table key}

omit [DecidableEq κ] in
theorem forall_keep {p : ρ → Bool} (h : ∀ r ∈ t.rows, Q r) : ∀ r ∈ (t.keep p).rows, Q r :=
  fun r hr => h r (mem_rows_keep.mp hr).1

theorem forall_insert {u : Table key} {x : ρ} (hu : t.insert x = some u) (h : ∀ r ∈ t.rows, Q r)
    (hx : Q x) : ∀ r ∈ u.rows, Q r := by
  intro r hr
  rw [(insert_eq_some.mp hu).2] at hr
  rcases List.mem_append.mp hr with hr | hr
  · exact h r hr
  · rw [List.mem_singleton.mp hr]
    exact hx

theorem forall_upsert {x : ρ} (h : ∀ r ∈ t.rows, Q r) (hx : Q x) : ∀ r ∈ (t.upsert x).rows, Q r := by
  intro r hr
  have hfind := mem_rows_iff.mp hr
  rw [find?_upsert] at hfind
  split at hfind
  · cases hfind
    exact hx
  · exact h r (mem_of_find? hfind)

omit [DecidableEq κ] in
theorem forall_mapRows {f : ρ → ρ} {hf : ∀ r, key (f r) = key r}
    (h : ∀ r ∈ t.rows, Q (f r)) : ∀ r ∈ (t.mapRows f hf).rows, Q r := by
  intro r hr
  obtain ⟨x, hx, rfl⟩ := List.mem_map.mp hr
  exact h x hx

theorem forall_replace {x : ρ} (h : ∀ r ∈ t.rows, Q r) (hx : Q x) :
    ∀ r ∈ (t.replace x).rows, Q r := by
  refine forall_mapRows fun r hr => ?_
  split
  · exact hx
  · exact h r hr

end Forall

end Table

/-! ## Tables with generated keys -/

/-- The key of a record: the `n`-th key its generator gave, or a name that somebody chose. -/
inductive RecordId where
  | generated (n : Nat)
  | named (s : String)
deriving DecidableEq, Repr

/-- A table whose keys may be drawn from a generator that never repeats itself: `drawn` keys have
    been drawn, and no row has a key that is still to come. -/
structure Minted {ρ : Type} (key : ρ → RecordId) where
  table : Table key
  drawn : Nat
  fresh : ∀ r ∈ table.rows, ∀ n, key r = .generated n → n < drawn

namespace Minted

variable {ρ : Type} {key : ρ → RecordId}

def empty : Minted key := ⟨Table.empty, 0, fun _ h => absurd h List.not_mem_nil⟩

/-- The rows, in the order in which they were added. -/
def rows (t : Minted key) : List ρ := t.table.rows

/-- Add a row under the next generated key: this is never refused. -/
def append (t : Minted key) (row : RecordId → ρ) (hrow : ∀ k, key (row k) = k) : Minted key where
  table := ⟨t.table.rows ++ [row (.generated t.drawn)], by
    rw [List.map_append, List.map_singleton, hrow]
    refine List.Nodup.append t.table.nodup (List.nodup_singleton _) ?_
    intro k hk hk'
    obtain ⟨x, hx, hxk⟩ := List.mem_map.mp hk
    rw [List.mem_singleton.mp hk'] at hxk
    exact absurd (t.fresh x hx t.drawn hxk) (Nat.lt_irrefl _)⟩
  drawn := t.drawn + 1
  fresh := by
    intro r hr n hn
    rcases List.mem_append.mp hr with hr | hr
    · exact Nat.lt_succ_of_lt (t.fresh r hr n hn)
    · rw [List.mem_singleton.mp hr, hrow] at hn
      cases hn
      exact Nat.lt_succ_self _

theorem rows_append (t : Minted key) (row : RecordId → ρ) (hrow : ∀ k, key (row k) = k) :
    (t.append row hrow).rows = t.rows ++ [row (.generated t.drawn)] := rfl

/-- Appending under the next key is an insertion that is not refused. -/
theorem insert_append (t : Minted key) (row : RecordId → ρ) (hrow : ∀ k, key (row k) = k) :
    t.table.insert (row (.generated t.drawn)) = some (t.append row hrow).table := by
  refine Table.insert_eq_some.mpr ⟨?_, rfl⟩
  rw [hrow, Table.find?_eq_none]
  exact fun r hr heq => absurd (t.fresh r hr _ heq) (Nat.lt_irrefl _)

theorem forall_append {Q : ρ → Prop} {t : Minted key} {row : RecordId → ρ}
    {hrow : ∀ k, key (row k) = k} (h : ∀ r ∈ t.rows, Q r) (hnew : Q (row (.generated t.drawn))) :
    ∀ r ∈ (t.append row hrow).rows, Q r := by
  intro r hr
  rw [rows_append] at hr
  rcases List.mem_append.mp hr with hr | hr
  · exact h r hr
  · rw [List.mem_singleton.mp hr]
    exact hnew

/-- How many keys are gone once `k` is in use. -/
def usedUpTo : RecordId → Nat → Nat
  | .generated n, drawn => max drawn (n + 1)
  | .named _, drawn => drawn

/-- Add a row under the key it brings: refused when the key is taken.  A key that the generator
    could have given is from now on not given again. -/
def insert (t : Minted key) (r : ρ) : Option (Minted key) :=
  match h : t.table.insert r with
  | none => none
  | some table => some
    { table := table
      drawn := usedUpTo (key r) t.drawn
      fresh := by
        intro x hx n hn
        rw [(Table.insert_eq_some.mp h).2] at hx
        rcases List.mem_append.mp hx with hx | hx
        · refine Nat.lt_of_lt_of_le (t.fresh x hx n hn) ?_
          cases key r with
          | generated m => exact Nat.le_max_left ..
          | named s => exact Nat.le_refl _
        · rw [List.mem_singleton.mp hx] at hn
          rw [hn]
          exact Nat.le_max_right .. }

theorem insert_table {t u : Minted key} {r : ρ} (h : t.insert r = some u) :
    t.table.insert r = some u.table := by
  unfold insert at h
  split at h
  · cases h
  · rename_i table htable
    cases h
    exact htable

theorem rows_insert {t u : Minted key} {r : ρ} (h : t.insert r = some u) :
    u.rows = t.rows ++ [r] := (Table.insert_eq_some.mp (insert_table h)).2

theorem forall_insert {Q : ρ → Prop} {t u : Minted key} {x : ρ} (hu : t.insert x = some u)
    (h : ∀ r ∈ t.rows, Q r) (hx : Q x) : ∀ r ∈ u.rows, Q r := by
  intro r hr
  rw [rows_insert hu] at hr
  rcases List.mem_append.mp hr with hr | hr
  · exact h r hr
  · rw [List.mem_singleton.mp hr]
    exact hx

/-- Change rows without touching their keys. -/
def mapRows (t : Minted key) (f : ρ → ρ) (hf : ∀ r, key (f r) = key r) : Minted key where
  table := t.table.mapRows f hf
  drawn := t.drawn
  fresh := by
    intro r hr n hn
    obtain ⟨x, hx, rfl⟩ := List.mem_map.mp hr
    exact t.fresh x hx n ((hf x).symm.trans hn)

theorem forall_mapRows {Q : ρ → Prop} {t : Minted key} {f : ρ → ρ} {hf : ∀ r, key (f r) = key r}
    (h : ∀ r ∈ t.rows, Q (f r)) : ∀ r ∈ (t.mapRows f hf).rows, Q r :=
  @Table.forall_mapRows _ _ key Q t.table f hf h

end Minted

/-! ## Tables and their history -/

section History

variable {ω α κ ρ : Type} [DecidableEq κ] {pick : ω → Option α} {key : α → κ} {payload : ρ → α}
  {rowKey : ρ → κ}

/-- The last element written under `k`, of those that `pick` picks from the history. -/
def lastOf (pick : ω → Option α) (key : α → κ) (history : List ω) (k : κ) : Option α :=
  (history.filterMap pick).find? (fun a => key a = k)

theorem lastOf_skip {x : ω} (h : pick x = none) (history : List ω) (k : κ) :
    lastOf pick key (x :: history) k = lastOf pick key history k := by
  rw [lastOf, List.filterMap_cons_none h, lastOf]

theorem lastOf_write {x : ω} {a : α} (h : pick x = some a) (history : List ω) (k : κ) :
    lastOf pick key (x :: history) k = if key a = k then some a else lastOf pick key history k := by
  rw [lastOf, List.filterMap_cons_some h]
  by_cases hk : key a = k
  · rw [List.find?_cons_of_pos (by simpa using hk), if_pos hk]
  · rw [List.find?_cons_of_neg (by simpa using hk), if_neg hk, lastOf]

/-- Every row holds what was last written under its key. -/
def Tracks (pick : ω → Option α) (key : α → κ) (payload : ρ → α) (t : Table rowKey)
    (history : List ω) : Prop :=
  ∀ k r, t.find? k = some r → lastOf pick key history k = some (payload r)

namespace Tracks

variable {t u : Table rowKey} {history : List ω} {x : ω} {r : ρ}

theorem empty : Tracks pick key payload (Table.empty : Table rowKey) history :=
  fun _ _ h => by cases h

theorem skip (h : Tracks pick key payload t history) (hx : pick x = none) :
    Tracks pick key payload t (x :: history) := fun k r hr => by rw [lastOf_skip hx]; exact h k r hr

/-- A table that holds the new row under its key, and the old rows elsewhere. -/
theorem write (h : Tracks pick key payload t history) (hx : pick x = some (payload r))
    (hu : ∀ k y, u.find? k = some y → if key (payload r) = k then y = r else t.find? k = some y) :
    Tracks pick key payload u (x :: history) := by
  intro k y hy
  have hcase := hu k y hy
  rw [lastOf_write hx]
  by_cases hk : key (payload r) = k
  · rw [if_pos hk] at hcase ⊢
    rw [hcase]
  · rw [if_neg hk] at hcase ⊢
    exact h k y hcase

theorem upsert (h : Tracks pick key payload t history) (hx : pick x = some (payload r))
    (hkey : rowKey r = key (payload r)) : Tracks pick key payload (t.upsert r) (x :: history) := by
  refine h.write hx fun k y hy => ?_
  rw [Table.find?_upsert, hkey] at hy
  split
  · rename_i hk
    rw [if_pos hk] at hy
    exact (Option.some.inj hy).symm
  · rename_i hk
    rwa [if_neg hk] at hy

theorem replace (h : Tracks pick key payload t history) (hx : pick x = some (payload r))
    (hkey : rowKey r = key (payload r)) : Tracks pick key payload (t.replace r) (x :: history) := by
  refine h.write hx fun k y hy => ?_
  rw [Table.find?_replace, hkey] at hy
  split
  · rename_i hk
    rw [if_pos hk] at hy
    obtain ⟨-, -, rfl⟩ := Option.map_eq_some_iff.mp hy
    rfl
  · rename_i hk
    rwa [if_neg hk] at hy

theorem insert (h : Tracks pick key payload t history) (hu : t.insert r = some u)
    (hx : pick x = some (payload r)) (hkey : rowKey r = key (payload r)) :
    Tracks pick key payload u (x :: history) := by
  refine h.write hx fun k y hy => ?_
  rw [Table.find?_insert hu, hkey] at hy
  split
  · rename_i hk
    rw [if_pos hk] at hy
    exact (Option.some.inj hy).symm
  · rename_i hk
    rwa [if_neg hk] at hy

theorem keep (h : Tracks pick key payload t history) (p : ρ → Bool) :
    Tracks pick key payload (t.keep p) history := by
  intro k r hr
  rw [Table.find?_keep, Option.filter_eq_some_iff] at hr
  exact h k r hr.1

theorem mapRows (h : Tracks pick key payload t history) {f : ρ → ρ}
    (hf : ∀ r, rowKey (f r) = rowKey r) (hpayload : ∀ r, payload (f r) = payload r) :
    Tracks pick key payload (t.mapRows f hf) history := by
  intro k r hr
  rw [Table.find?_mapRows] at hr
  obtain ⟨y, hy, rfl⟩ := Option.map_eq_some_iff.mp hr
  rw [hpayload]
  exact h k y hy

end Tracks

end History

end Keyed
