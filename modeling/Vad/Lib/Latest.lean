/-
  The latest of a list, and parts of lists.

  A log is often read by the last of its entries that meets some condition, and a part of a log by
  the same entries as the log itself.  Here is when the two agree.

  1. **Latest** (`last_filter_iff`) — the last entry of the part is the last entry of the whole, if
     that is in the part, exactly if it is in the part whenever the part has any such entry.

  2. **Sorting** (`filter_insertionSort`) — a stable sort of the part is the part of the sort; what
     comes first in the part of a sort by keys has the least key of the part (`first_of_sorted`), and
     of the least it is the one that stood first (`find?_insertionSort`).

  3. **What is shown** (`shown_perm_iff`, `shown_append_iff`) — the mark of the last marked entry of a
     sorted log, when it does not depend on the order of the log, and when adding to the log leaves
     it.

  4. **Tables** (`ShowsKeys.eq_filter_iff`) — a list that ascends in its keys and shows under each
     key what a function says is determined by the function.
-/
import Mathlib.Data.List.Induction
import Mathlib.Data.List.Sort
import Mathlib.Data.String.Basic
import Mathlib.Tactic.Common

namespace Latest

variable {α β : Type}

/-! ## The last entry -/

/-- The last of the entries with `p`. -/
def last (p : α → Bool) (l : List α) : Option α := (l.filter p).getLast?

theorem last_snoc (p : α → Bool) (l : List α) (a : α) :
    last p (l ++ [a]) = if p a then some a else last p l := by
  unfold last
  rw [List.filter_append]
  cases h : p a with
  | true =>
    rw [List.filter_cons_of_pos h, List.filter_nil, if_pos rfl]
    exact List.getLast?_concat
  | false =>
    rw [List.filter_cons_of_neg (by simp [h]), List.filter_nil, List.append_nil]
    rfl

theorem mem_of_last {p : α → Bool} {l : List α} {a : α} (h : last p l = some a) :
    a ∈ l ∧ p a = true := List.mem_filter.mp (List.mem_of_getLast? h)

theorem last_eq_none_iff {p : α → Bool} {l : List α} :
    last p l = none ↔ ∀ a ∈ l, p a = false := by
  unfold last
  rw [List.getLast?_eq_none_iff, List.filter_eq_nil_iff]
  exact forall₂_congr fun a _ => by simp

/-- The last entry is the last of every part that it is in. -/
theorem last_filter_of_last {p q : α → Bool} {l : List α} {a : α} (h : last p l = some a)
    (hq : q a = true) : last p (l.filter q) = some a := by
  induction l using List.reverseRecOn with
  | nil => cases h
  | append_singleton l b ih =>
    rw [last_snoc] at h
    rw [List.filter_append]
    by_cases hb : p b = true
    · rw [if_pos hb] at h
      obtain rfl := Option.some.inj h
      rw [List.filter_cons_of_pos hq, List.filter_nil, last_snoc, if_pos hb]
    · rw [if_neg hb] at h
      have hpart := ih h
      cases hqb : q b with
      | true =>
        rw [List.filter_cons_of_pos hqb, List.filter_nil, last_snoc, if_neg hb]
        exact hpart
      | false =>
        rw [List.filter_cons_of_neg (by simp [hqb]), List.filter_nil, List.append_nil]
        exact hpart

/-- If a part has such an entry at all, the last one of the whole is in the part. -/
def Owns (p q : α → Bool) (l : List α) : Prop :=
  (∃ a ∈ l, p a = true ∧ q a = true) → ∃ b, last p l = some b ∧ q b = true

/-- The last entry of a part is that of the whole, as far as it is in the part, exactly if the part
    owns it. -/
theorem last_filter_iff {p q : α → Bool} {l : List α} :
    last p (l.filter q) = (last p l).filter q ↔ Owns p q l := by
  constructor
  · rintro h ⟨a, ha, hp, hq⟩
    cases hpart : last p (l.filter q) with
    | none =>
      have hnone := last_eq_none_iff.mp hpart a (List.mem_filter.mpr ⟨ha, hq⟩)
      rw [hp] at hnone
      cases hnone
    | some b =>
      rw [hpart] at h
      obtain ⟨hb, hqb⟩ := Option.filter_eq_some_iff.mp h.symm
      exact ⟨b, hb, hqb⟩
  · intro h
    cases hlast : last p l with
    | none =>
      refine last_eq_none_iff.mpr fun a ha => ?_
      exact last_eq_none_iff.mp hlast a (List.mem_filter.mp ha).1
    | some b =>
      cases hqb : q b with
      | true =>
        rw [last_filter_of_last hlast hqb, Option.filter_some, if_pos hqb]
      | false =>
        rw [Option.filter_some, if_neg (by simp [hqb])]
        refine last_eq_none_iff.mpr fun a ha => ?_
        obtain ⟨hal, hqa⟩ := List.mem_filter.mp ha
        cases hpa : p a with
        | false => rfl
        | true =>
          obtain ⟨b', hb', hqb'⟩ := h ⟨a, hal, hpa, hqa⟩
          rw [hlast] at hb'
          rw [← Option.some.inj hb', hqb] at hqb'
          cases hqb'

/-! ## Sorting -/

section Sorted

variable {r : α → α → Prop} [DecidableRel r]

/-- A new entry in a sorted list, seen in a part of it. -/
theorem filter_orderedInsert [IsTrans α r] (p : α → Bool) (a : α) {l : List α} (h : l.Pairwise r) :
    (l.orderedInsert r a).filter p =
      if p a then (l.filter p).orderedInsert r a else l.filter p := by
  induction l with
  | nil => cases hp : p a <;> simp [hp]
  | cons b rest ih =>
    obtain ⟨hb, hrest⟩ := List.pairwise_cons.mp h
    rw [List.orderedInsert_cons]
    by_cases hab : r a b
    · rw [if_pos hab]
      cases hp : p a with
      | false => rw [List.filter_cons_of_neg (by simp [hp])]; rfl
      | true =>
        rw [List.filter_cons_of_pos hp, if_pos rfl]
        -- whatever is left of the list comes after the new entry
        cases hfiltered : (b :: rest).filter p with
        | nil => rfl
        | cons c more =>
          have hkept : c ∈ (b :: rest).filter p := by
            rw [hfiltered]
            exact List.mem_cons_self
          have hc : c ∈ b :: rest := (List.mem_filter.mp hkept).1
          have hac : r a c := by
            rcases List.mem_cons.mp hc with rfl | hc
            · exact hab
            · exact IsTrans.trans a b c hab (hb c hc)
          rw [List.orderedInsert_cons, if_pos hac]
    · rw [if_neg hab]
      cases hp : p b with
      | false =>
        rw [List.filter_cons_of_neg (by simp [hp]), List.filter_cons_of_neg (by simp [hp])]
        exact ih hrest
      | true =>
        rw [List.filter_cons_of_pos hp, List.filter_cons_of_pos hp, ih hrest]
        cases p a with
        | false => rfl
        | true => rw [if_pos rfl, if_pos rfl, List.orderedInsert_cons, if_neg hab]

/-- Sorting and taking a part can be done in either order. -/
theorem filter_insertionSort [Std.Total r] [IsTrans α r] (p : α → Bool) (l : List α) :
    (l.insertionSort r).filter p = (l.filter p).insertionSort r := by
  induction l with
  | nil => rfl
  | cons a rest ih =>
    rw [List.insertionSort_cons, filter_orderedInsert p a (List.pairwise_insertionSort r rest), ih]
    cases hp : p a with
    | true => rw [if_pos rfl, List.filter_cons_of_pos hp, List.insertionSort_cons]
    | false => rw [if_neg (by simp), List.filter_cons_of_neg (by simp [hp])]

/-- What a stable sort puts first comes strictly before all that stood in front of it. -/
theorem head?_insertionSort [Std.Total r] [IsTrans α r] {l : List α} {a : α}
    (h : (l.insertionSort r).head? = some a) :
    ∃ front back, l = front ++ a :: back ∧ (∀ b ∈ front, ¬ r b a) ∧ ∀ b ∈ back, r a b := by
  induction l generalizing a with
  | nil => cases h
  | cons x rest ih =>
    rw [List.insertionSort_cons] at h
    cases hsorted : rest.insertionSort r with
    | nil =>
      have hrest : rest = [] := by
        have hlength := List.length_insertionSort r rest
        rw [hsorted] at hlength
        exact List.eq_nil_of_length_eq_zero hlength.symm
      rw [hsorted] at h
      obtain rfl : x = a := Option.some.inj h
      refine ⟨[], rest, rfl, fun b hb => (nomatch hb), fun b hb => ?_⟩
      rw [hrest] at hb
      cases hb
    | cons y ys =>
      rw [hsorted] at ih h
      obtain ⟨front, back, hsplit, hfront, hback⟩ := ih rfl
      rw [List.orderedInsert_cons] at h
      by_cases hxy : r x y
      · rw [if_pos hxy] at h
        obtain rfl : x = a := Option.some.inj h
        refine ⟨[], rest, rfl, fun b hb => (nomatch hb), fun b hb => IsTrans.trans x y b hxy ?_⟩
        rw [hsplit] at hb
        rcases List.mem_append.mp hb with hb | hb
        · exact (Std.Total.total y b).resolve_right (hfront b hb)
        · rcases List.mem_cons.mp hb with rfl | hb
          · exact (@or_self_iff (r b b)).mp (Std.Total.total b b)
          · exact hback b hb
      · rw [if_neg hxy] at h
        obtain rfl : y = a := Option.some.inj h
        refine ⟨x :: front, back, by rw [hsplit]; rfl, ?_, hback⟩
        exact List.forall_mem_cons.mpr ⟨hxy, hfront⟩

/-- The first entry with `p` of a stable sort comes strictly before those with `p` that stood in
    front of it, and not after those behind it. -/
theorem find?_insertionSort [Std.Total r] [IsTrans α r] {p : α → Bool} {l : List α} {a : α}
    (h : (l.insertionSort r).find? p = some a) :
    ∃ front back, l = front ++ a :: back ∧ p a = true ∧ (∀ b ∈ front, p b = true → ¬ r b a) ∧
      ∀ b ∈ back, p b = true → r a b := by
  have hp : p a = true := List.find?_some h
  rw [← List.head?_filter, filter_insertionSort] at h
  obtain ⟨front, back, hsplit, hfront, hback⟩ := head?_insertionSort h
  obtain ⟨left, right, hl, hleft, hright⟩ := List.filter_eq_append_iff.mp hsplit
  obtain ⟨skipped, right', hr, hskipped, -, hright'⟩ := List.filter_eq_cons_iff.mp hright
  refine ⟨left ++ skipped, right', by rw [hl, hr, List.append_assoc], hp, fun b hb hpb => ?_,
    fun b hb hpb => ?_⟩
  · rcases List.mem_append.mp hb with hb | hb
    · exact hfront b (hleft ▸ List.mem_filter.mpr ⟨hb, hpb⟩)
    · exact absurd hpb (hskipped b hb)
  · exact hback b (hright' ▸ List.mem_filter.mpr ⟨hb, hpb⟩)

end Sorted

section Keys

variable {κ : Type} [LinearOrder κ] {key : α → κ} {le : α → α → Bool}

theorem pairwise_sort_key (hle : ∀ a b, le a b = true ↔ key a ≤ key b) (l : List α) :
    (l.insertionSort fun a b => le a b = true).Pairwise fun a b => key a ≤ key b := by
  have htotal : Std.Total fun a b : α => le a b = true :=
    ⟨fun a b => by rw [hle, hle]; exact le_total _ _⟩
  have htrans : IsTrans α fun a b => le a b = true :=
    ⟨fun a b c hab hbc => (hle a c).mpr (le_trans ((hle a b).mp hab) ((hle b c).mp hbc))⟩
  exact (List.pairwise_insertionSort _ l).imp fun hab => (hle _ _).mp hab

/-- The first entry with `p` of a sorted list has the least key of those with `p`. -/
theorem first_of_sorted (hle : ∀ a b, le a b = true ↔ key a ≤ key b) {p : α → Bool} {l : List α}
    {a : α} {rest : List α}
    (h : (l.insertionSort fun a b => le a b = true).filter p = a :: rest) :
    (a ∈ l ∧ p a = true) ∧ ∀ b ∈ l, p b = true → key a ≤ key b := by
  have hmem : ∀ b, b ∈ a :: rest ↔ b ∈ l ∧ p b = true := fun b => by
    rw [← h, List.mem_filter, List.mem_insertionSort]
  have hsorted : (a :: rest).Pairwise fun a b => key a ≤ key b :=
    h ▸ (pairwise_sort_key hle l).sublist List.filter_sublist
  refine ⟨(hmem a).mp (List.mem_cons_self ..), fun b hb hp => ?_⟩
  rcases List.mem_cons.mp ((hmem b).mpr ⟨hb, hp⟩) with rfl | hrest
  · exact le_refl _
  · exact (List.pairwise_cons.mp hsorted).1 b hrest

end Keys

/-! ## What a sorted log shows -/

section Shown

/-- The mark of the last entry that has one, or `d`. -/
def shown (mark : α → Option β) (d : β) (l : List α) : β :=
  ((last (fun a => (mark a).isSome) l).bind mark).getD d

theorem shown_snoc (mark : α → Option β) (d : β) (l : List α) (a : α) :
    shown mark d (l ++ [a]) = (mark a).getD (shown mark d l) := by
  unfold shown
  rw [last_snoc]
  cases h : mark a with
  | none => rfl
  | some b =>
    rw [if_pos (show (some b).isSome = true from rfl), Option.bind_some, h]
    rfl

variable {κ : Type} [LinearOrder κ]

/-- The last of the entries with the greatest key. -/
def greatest (key : α → κ) : List α → Option α
  | [] => none
  | a :: rest =>
    match greatest key rest with
    | none => some a
    | some b => if key a ≤ key b then some b else some a

variable {key : α → κ}

theorem greatest_eq_none_iff {l : List α} : greatest key l = none ↔ l = [] := by
  cases l with
  | nil => exact ⟨fun _ => rfl, fun _ => rfl⟩
  | cons a rest =>
    refine ⟨fun h => ?_, fun h => nomatch h⟩
    unfold greatest at h
    split at h
    · cases h
    · split at h <;> cases h

theorem mem_of_greatest {l : List α} {a : α} (h : greatest key l = some a) :
    a ∈ l ∧ ∀ b ∈ l, key b ≤ key a := by
  induction l generalizing a with
  | nil => cases h
  | cons x rest ih =>
    unfold greatest at h
    cases hrest : greatest key rest with
    | none =>
      rw [hrest] at h
      obtain rfl := Option.some.inj h
      rw [greatest_eq_none_iff.mp hrest]
      exact ⟨List.mem_singleton.mpr rfl,
        fun b hb => le_of_eq (congrArg key (List.mem_singleton.mp hb))⟩
    | some y =>
      obtain ⟨hy, hle⟩ := ih hrest
      rw [hrest] at h
      dsimp only at h
      split at h
      · rename_i hxy
        obtain rfl := Option.some.inj h
        exact ⟨List.mem_cons_of_mem x hy, List.forall_mem_cons.mpr ⟨hxy, hle⟩⟩
      · rename_i hxy
        obtain rfl := Option.some.inj h
        have hyx := le_of_lt (not_le.mp hxy)
        exact ⟨List.mem_cons_self .., List.forall_mem_cons.mpr
          ⟨le_rfl, fun b hb => (hle b hb).trans hyx⟩⟩

theorem greatest_append (l l' : List α) : greatest key (l ++ l') =
    match greatest key l', greatest key l with
    | none, x => x
    | some b, none => some b
    | some b, some a => if key a ≤ key b then some b else some a := by
  induction l with
  | nil =>
    cases h : greatest key l' with
    | none => exact h
    | some b => exact h
  | cons x rest ih =>
    rw [List.cons_append, greatest, ih]
    cases hl' : greatest key l' with
    | none => rfl
    | some b =>
      rw [greatest]
      cases hrest : greatest key rest with
      | none => rfl
      | some a =>
        dsimp only
        by_cases hab : key a ≤ key b <;> by_cases hxa : key x ≤ key a
        · simp only [if_pos hab, if_pos hxa, if_pos (hxa.trans hab)]
        · simp only [if_pos hab, if_neg hxa]
        · simp only [if_neg hab, if_pos hxa]
        · have hxb : ¬ key x ≤ key b := fun h => hxa (h.trans (le_of_lt (not_le.mp hab)))
          simp only [if_neg hab, if_neg hxa, if_neg hxb]

variable {le : α → α → Bool}

/-- A new entry is the last of a sorted list exactly if it is greater than all. -/
theorem getLast?_orderedInsert (hle : ∀ a b, le a b = true ↔ key a ≤ key b) (a : α) {l : List α}
    (hsorted : l.Pairwise fun a b => key a ≤ key b) :
    (l.orderedInsert (fun a b => le a b = true) a).getLast? =
      match l.getLast? with
      | none => some a
      | some b => if key a ≤ key b then some b else some a := by
  induction l with
  | nil => rfl
  | cons x rest ih =>
    obtain ⟨hx, hrest⟩ := List.pairwise_cons.mp hsorted
    rw [List.orderedInsert_cons, List.getLast?_cons]
    by_cases hax : key a ≤ key x
    · rw [if_pos ((hle a x).mpr hax), List.getLast?_cons, List.getLast?_cons]
      cases hlast : rest.getLast? with
      | none => exact (if_pos hax).symm
      | some y => exact (if_pos (hax.trans (hx y (List.mem_of_getLast? hlast)))).symm
    · rw [if_neg fun h => hax ((hle a x).mp h), List.getLast?_cons, ih hrest]
      cases hlast : rest.getLast? with
      | none => exact (if_neg hax).symm
      | some y =>
        dsimp only [Option.getD_some]
        split <;> rfl

theorem getLast?_sort (hle : ∀ a b, le a b = true ↔ key a ≤ key b) (l : List α) :
    (l.insertionSort fun a b => le a b = true).getLast? = greatest key l := by
  induction l with
  | nil => rfl
  | cons a rest ih =>
    rw [List.insertionSort_cons, getLast?_orderedInsert hle a (pairwise_sort_key hle rest), ih]
    rfl

/-- The latest of the marked entries: the last of those with the greatest key. -/
def latest (key : α → κ) (mark : α → Option β) (l : List α) : Option α :=
  greatest key (l.filter fun a => (mark a).isSome)

theorem shown_sort (hle : ∀ a b, le a b = true ↔ key a ≤ key b) (mark : α → Option β) (d : β)
    (l : List α) :
    shown mark d (l.insertionSort fun a b => le a b = true) =
      ((latest key mark l).bind mark).getD d := by
  have htotal : Std.Total fun a b : α => le a b = true :=
    ⟨fun a b => by rw [hle, hle]; exact le_total _ _⟩
  have htrans : IsTrans α fun a b => le a b = true :=
    ⟨fun a b c hab hbc => (hle a c).mpr (le_trans ((hle a b).mp hab) ((hle b c).mp hbc))⟩
  unfold shown last latest
  rw [filter_insertionSort, getLast?_sort hle]

/-- A marked entry with the greatest key of the marked ones. -/
def IsTop (key : α → κ) (mark : α → Option β) (l : List α) (a : α) : Prop :=
  a ∈ l ∧ (mark a).isSome = true ∧ ∀ b ∈ l, (mark b).isSome = true → key b ≤ key a

/-- The marked entries with the greatest key have one mark. -/
def TiesAgree (key : α → κ) (mark : α → Option β) (l : List α) : Prop :=
  ∀ a b, IsTop key mark l a → IsTop key mark l b → mark a = mark b

theorem isTop_of_latest {mark : α → Option β} {l : List α} {a : α}
    (h : latest key mark l = some a) : IsTop key mark l a := by
  obtain ⟨ha, hmax⟩ := mem_of_greatest h
  obtain ⟨hal, hmark⟩ := List.mem_filter.mp ha
  exact ⟨hal, hmark, fun b hb hb' => hmax b (List.mem_filter.mpr ⟨hb, hb'⟩)⟩

theorem latest_eq_none_iff {mark : α → Option β} {l : List α} :
    latest key mark l = none ↔ ∀ a ∈ l, mark a = none := by
  unfold latest
  rw [greatest_eq_none_iff, List.filter_eq_nil_iff]
  exact forall₂_congr fun a _ => by simp

/-- An entry of the greatest key, put at the end, is the latest. -/
theorem latest_concat_of_isTop {mark : α → Option β} {l l' : List α} {a : α}
    (h : IsTop key mark l a) (hsub : ∀ b ∈ l', b ∈ l) :
    latest key mark (l' ++ [a]) = some a := by
  have hlast : [a].filter (fun b => (mark b).isSome) = [a] := List.filter_cons_of_pos h.2.1
  unfold latest
  rw [List.filter_append, hlast, greatest_append]
  show (match some a, greatest key (l'.filter fun b => (mark b).isSome) with
    | none, x => x
    | some b, none => some b
    | some b, some a => if key a ≤ key b then some b else some a) = some a
  cases hfront : greatest key (l'.filter fun b => (mark b).isSome) with
  | none => rfl
  | some c =>
    obtain ⟨hc, hmark⟩ := List.mem_filter.mp (mem_of_greatest hfront).1
    exact if_pos (h.2.2 c (hsub c hc) hmark)

/-- What is shown does not depend on the order of the log exactly if the ties agree. -/
theorem shown_perm_iff (hle : ∀ a b, le a b = true ↔ key a ≤ key b) {mark : α → Option β} {d : β}
    {l : List α} :
    (∀ l' : List α, l'.Perm l → shown mark d (l'.insertionSort fun a b => le a b = true) =
      shown mark d (l.insertionSort fun a b => le a b = true)) ↔ TiesAgree key mark l := by
  simp only [shown_sort hle]
  constructor
  · intro h
    have hshown (a : α) (ha : IsTop key mark l a) :
        (mark a).getD d = ((latest key mark l).bind mark).getD d := by
      obtain ⟨front, back, hsplit⟩ := List.append_of_mem ha.1
      have hperm : ((front ++ back) ++ [a]).Perm l := by
        rw [hsplit]
        exact List.perm_append_comm.trans (@List.perm_middle _ a front back).symm
      have hlast := @latest_concat_of_isTop _ _ _ _ key mark l (front ++ back) a ha fun b hb =>
        hperm.mem_iff.mp (List.mem_append_left _ hb)
      have hthis := h _ hperm
      rwa [hlast, Option.bind_some] at hthis
    intro a b ha hb
    obtain ⟨x, hx⟩ := Option.isSome_iff_exists.mp ha.2.1
    obtain ⟨y, hy⟩ := Option.isSome_iff_exists.mp hb.2.1
    have hxy := (hshown a ha).trans (hshown b hb).symm
    rw [hx, hy] at hxy
    rw [hx, hy]
    exact congrArg some hxy
  · intro h l' hperm
    cases hl : latest key mark l with
    | none =>
      have hnone := latest_eq_none_iff.mp hl
      rw [latest_eq_none_iff.mpr fun a ha => hnone a (hperm.mem_iff.mp ha)]
    | some a =>
      have ha := isTop_of_latest hl
      cases hl' : latest key mark l' with
      | none =>
        have hmark := latest_eq_none_iff.mp hl' a (hperm.mem_iff.mpr ha.1)
        have hmarked := ha.2.1
        rw [hmark] at hmarked
        cases hmarked
      | some b =>
        obtain ⟨hb, hmark, hmax⟩ := isTop_of_latest hl'
        have hb' : IsTop key mark l b :=
          ⟨hperm.mem_iff.mp hb, hmark, fun c hc => hmax c (hperm.mem_iff.mpr hc)⟩
        rw [Option.bind_some, Option.bind_some, h b a hb' ha]

/-- The latest of the marked entries that are added comes before a marked one that was there, or has
    the mark of the latest that was there, or what is shown without any. -/
def Overridden (key : α → κ) (mark : α → Option β) (d : β) (l l' : List α) : Prop :=
  ∀ b, latest key mark l' = some b →
    (∃ a, latest key mark l = some a ∧ (key b < key a ∨ mark b = mark a)) ∨
      (latest key mark l = none ∧ mark b = some d)

/-- Adding to the log leaves what is shown exactly if all of it is overridden. -/
theorem shown_append_iff (hle : ∀ a b, le a b = true ↔ key a ≤ key b) {mark : α → Option β} {d : β}
    {l l' : List α} :
    shown mark d ((l ++ l').insertionSort fun a b => le a b = true) =
      shown mark d (l.insertionSort fun a b => le a b = true) ↔ Overridden key mark d l l' := by
  rw [shown_sort hle, shown_sort hle]
  unfold Overridden
  have happend : latest key mark (l ++ l') =
      match latest key mark l', latest key mark l with
      | none, x => x
      | some b, none => some b
      | some b, some a => if key a ≤ key b then some b else some a := by
    unfold latest
    rw [List.filter_append, greatest_append]
  rw [happend]
  cases hl' : latest key mark l' with
  | none => exact ⟨fun _ b hb => (nomatch hb), fun _ => rfl⟩
  | some b =>
    obtain ⟨y, hy⟩ := Option.isSome_iff_exists.mp (isTop_of_latest hl').2.1
    cases hl : latest key mark l with
    | none =>
      constructor
      · intro h b' hb'
        obtain rfl := Option.some.inj hb'
        refine Or.inr ⟨rfl, ?_⟩
        have hyd : y = d := by
          rw [Option.bind_some, hy] at h
          exact h
        rw [hy, hyd]
      · intro h
        rcases h b rfl with ⟨a, ha, -⟩ | ⟨-, hd⟩
        · cases ha
        · rw [Option.bind_some, hd]
          rfl
    | some a =>
      obtain ⟨x, hx⟩ := Option.isSome_iff_exists.mp (isTop_of_latest hl).2.1
      dsimp only
      by_cases hab : key a ≤ key b
      · rw [if_pos hab, Option.bind_some, Option.bind_some, hx, hy]
        constructor
        · intro h b' hb'
          obtain rfl := Option.some.inj hb'
          exact Or.inl ⟨a, rfl, Or.inr (by rw [hx, hy]; exact congrArg some h)⟩
        · intro h
          rcases h b rfl with ⟨a', ha', hlt | hsame⟩ | ⟨hnone, -⟩
          · obtain rfl := Option.some.inj ha'
            exact absurd hab (not_le.mpr hlt)
          · obtain rfl := Option.some.inj ha'
            rw [hx, hy] at hsame
            exact Option.some.inj hsame
          · cases hnone
      · rw [if_neg hab]
        refine ⟨fun _ b' hb' => ?_, fun _ => rfl⟩
        obtain rfl := Option.some.inj hb'
        exact Or.inl ⟨a, rfl, Or.inl (not_le.mp hab)⟩

end Shown

/-! ## Tables -/

/-- The list ascends in its keys, and shows what `f` says under each of them. -/
structure ShowsKeys (key : β → String) (f : String → Option β) (l : List β) : Prop where
  ascending : l.Pairwise fun a b => key a < key b
  shown : ∀ b, b ∈ l ↔ f (key b) = some b
  keyed : ∀ k b, f k = some b → key b = k

/-- One table is a part of another exactly if it is one under each key. -/
theorem ShowsKeys.eq_filter_iff {key : β → String} {f g : String → Option β} {l l' : List β}
    (h : ShowsKeys key f l) (h' : ShowsKeys key g l') (p : β → Bool) :
    l = l'.filter p ↔ ∀ k, f k = (g k).filter p := by
  constructor
  · intro heq k
    refine Option.ext fun b => ?_
    rw [Option.filter_eq_some_iff]
    constructor
    · intro hf
      have hkey := h.keyed k b hf
      have hmem : b ∈ l'.filter p := heq ▸ (h.shown b).mpr (hkey ▸ hf)
      obtain ⟨hin, hp⟩ := List.mem_filter.mp hmem
      exact ⟨hkey ▸ (h'.shown b).mp hin, hp⟩
    · rintro ⟨hg, hp⟩
      have hkey := h'.keyed k b hg
      have hmem : b ∈ l := by
        rw [heq]
        exact List.mem_filter.mpr ⟨(h'.shown b).mpr (hkey ▸ hg), hp⟩
      exact hkey ▸ (h.shown b).mp hmem
  · intro hparts
    have hpart : (l'.filter p).Pairwise fun a b => key a < key b :=
      h'.ascending.sublist List.filter_sublist
    have hnodup {m : List β} (hm : m.Pairwise fun a b => key a < key b) : m.Nodup :=
      hm.imp fun {a b} hab heq => by
        rw [heq] at hab
        exact lt_irrefl _ hab
    have hperm : l.Perm (l'.filter p) := by
      refine (List.perm_ext_iff_of_nodup (hnodup h.ascending) (hnodup hpart)).mpr fun b => ?_
      rw [h.shown b, hparts (key b), Option.filter_eq_some_iff, List.mem_filter, h'.shown b]
    exact List.Perm.eq_of_pairwise (fun a b _ _ hab hba => absurd hba (lt_asymm hab))
      h.ascending hpart hperm

end Latest
