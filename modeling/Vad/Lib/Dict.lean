/-
  Dictionaries with string keys, and JSON values.

  A dictionary is the list of its entries in the order of insertion.  A key is looked up at its
  first entry; an assignment replaces the value of that entry, or adds one at the end.
-/
import Mathlib.Data.List.Sort
import Mathlib.Data.String.Basic
import Mathlib.Tactic.Common

namespace Vad

/-- A `dict` with string keys. -/
abbrev Dict (β : Type) : Type := List (String × β)

/-- `d.get(key)`. -/
def Dict.get {β : Type} (d : Dict β) (key : String) : Option β :=
  (d.find? (fun e => e.1 = key)).map Prod.snd

/-- `d[key] = value`. -/
def Dict.set {β : Type} : Dict β → String → β → Dict β
  | [], key, value => [(key, value)]
  | e :: rest, key, value =>
    if e.1 = key then (key, value) :: rest else e :: Dict.set rest key value

theorem Dict.get_set {β : Type} (d : Dict β) (key key' : String) (value : β) :
    (d.set key value).get key' = if key = key' then some value else d.get key' := by
  induction d with
  | nil => by_cases h : key = key' <;> simp [Dict.set, Dict.get, h]
  | cons e rest ih =>
    unfold Dict.set
    by_cases he : e.1 = key
    · rw [if_pos he]
      by_cases h : key = key'
      · simp [Dict.get, h]
      · have hne : ¬ e.1 = key' := fun h' => h (he.symm.trans h')
        simp [Dict.get, h, hne]
    · rw [if_neg he]
      by_cases h : e.1 = key'
      · have hne : ¬ key = key' := fun h' => he (h.trans h'.symm)
        simp [Dict.get, h, hne]
      · have hskip : ∀ d : Dict β, Dict.get (e :: d) key' = d.get key' := fun d => by
          simp [Dict.get, h]
        rw [hskip, hskip, ih]

/-- `d.pop(key, None)`. -/
def Dict.erase {β : Type} (d : Dict β) (key : String) : Dict β := d.filter fun e => e.1 ≠ key

theorem Dict.get_erase {β : Type} (d : Dict β) (key key' : String) :
    (d.erase key).get key' = if key = key' then none else d.get key' := by
  induction d with
  | nil => by_cases h : key = key' <;> simp [Dict.erase, Dict.get, h]
  | cons e rest ih =>
    unfold Dict.erase at ih ⊢
    by_cases he : e.1 = key
    · rw [List.filter_cons_of_neg (by simpa using he), ih]
      by_cases h : key = key'
      · rw [if_pos h, if_pos h]
      · have hne : ¬ e.1 = key' := fun h' => h (he.symm.trans h')
        simp [Dict.get, h, hne]
    · rw [List.filter_cons_of_pos (by simpa using he)]
      by_cases h : e.1 = key'
      · have hne : ¬ key = key' := fun h' => he (h.trans h'.symm)
        simp [Dict.get, h, hne]
      · have hskip : ∀ d : Dict β, Dict.get (e :: d) key' = Dict.get d key' := fun d => by
          simp [Dict.get, h]
        rw [hskip, hskip, ih]

/-- Under a new key an assignment adds an entry at the end. -/
theorem Dict.set_of_absent {β : Type} {d : Dict β} {key : String} (value : β)
    (h : key ∉ d.map Prod.fst) : d.set key value = d ++ [(key, value)] := by
  induction d with
  | nil => rfl
  | cons e rest ih =>
    have he : ¬ e.1 = key := fun heq => h (heq ▸ List.mem_cons_self)
    unfold Dict.set
    rw [if_neg he, ih fun hin => h (List.mem_cons_of_mem _ hin)]
    rfl

/-- Under a key that is there, an assignment replaces the value in its place. -/
theorem Dict.set_of_split {β : Type} {front back : Dict β} {key : String} {old : β} (value : β)
    (h : key ∉ front.map Prod.fst) :
    Dict.set (front ++ (key, old) :: back) key value = front ++ (key, value) :: back := by
  induction front with
  | nil => exact if_pos rfl
  | cons e rest ih =>
    have he : ¬ e.1 = key := fun heq => h (heq ▸ List.mem_cons_self)
    rw [List.cons_append, Dict.set, if_neg he, ih fun hin => h (List.mem_cons_of_mem _ hin)]
    rfl

/-- What is found stands somewhere, with no entry of its key in front. -/
theorem Dict.split_of_get {β : Type} {d : Dict β} {key : String} {value : β}
    (h : d.get key = some value) :
    ∃ front back, d = front ++ (key, value) :: back ∧ key ∉ front.map Prod.fst := by
  induction d with
  | nil => cases h
  | cons e rest ih =>
    obtain ⟨name, other⟩ := e
    by_cases he : name = key
    · subst he
      have hvalue : other = value := by simpa [Dict.get] using h
      exact ⟨[], rest, by rw [hvalue]; rfl, List.not_mem_nil⟩
    · have hrest : Dict.get rest key = some value := by simpa [Dict.get, he] using h
      obtain ⟨front, back, rfl, hfront⟩ := ih hrest
      refine ⟨(name, other) :: front, back, rfl, ?_⟩
      rw [List.map_cons, List.mem_cons]
      rintro (heq | hin)
      · exact he heq.symm
      · exact hfront hin

/-- No key of the dictionary has two entries. -/
def Dict.KeysNodup {β : Type} (d : Dict β) : Prop := (d.map Prod.fst).Nodup

theorem Dict.mem_keys_set {β : Type} {d : Dict β} {key name : String} {value : β} :
    name ∈ (d.set key value).map Prod.fst ↔ name = key ∨ name ∈ d.map Prod.fst := by
  induction d with
  | nil => simp [Dict.set]
  | cons e rest ih =>
    unfold Dict.set
    by_cases he : e.1 = key
    · rw [if_pos he]
      simp [he]
    · rw [if_neg he, List.map_cons, List.map_cons, List.mem_cons, List.mem_cons, ih]
      exact or_left_comm

/-- An assignment replaces an entry or adds one for a new key. -/
theorem Dict.keysNodup_set {β : Type} {d : Dict β} (h : d.KeysNodup) (key : String) (value : β) :
    (d.set key value).KeysNodup := by
  induction d with
  | nil => simp [Dict.set, Dict.KeysNodup]
  | cons e rest ih =>
    obtain ⟨hnotin, hrest⟩ := List.nodup_cons.mp h
    unfold Dict.set
    by_cases he : e.1 = key
    · rw [if_pos he]
      exact List.nodup_cons.mpr ⟨he ▸ hnotin, hrest⟩
    · rw [if_neg he]
      refine List.nodup_cons.mpr ⟨fun hin => ?_, ih hrest⟩
      rcases Dict.mem_keys_set.mp hin with hkey | hin
      · exact he hkey
      · exact hnotin hin

/-- Where no key has two entries, every entry is the one that is found. -/
theorem Dict.mem_iff_get {β : Type} {d : Dict β} (h : d.KeysNodup) {key : String} {value : β} :
    (key, value) ∈ d ↔ d.get key = some value := by
  induction d with
  | nil => simp [Dict.get]
  | cons e rest ih =>
    obtain ⟨hnotin, hrest⟩ := List.nodup_cons.mp h
    obtain ⟨name, other⟩ := e
    by_cases he : name = key
    · subst he
      have hget : Dict.get ((name, other) :: rest) name = some other := by simp [Dict.get]
      have habsent : (name, value) ∉ rest := fun hin =>
        hnotin (List.mem_map.mpr ⟨(name, value), hin, rfl⟩)
      rw [hget, List.mem_cons]
      constructor
      · rintro (heq | hin)
        · exact congrArg some (congrArg Prod.snd heq).symm
        · exact absurd hin habsent
      · intro heq
        exact Or.inl (by rw [Option.some.inj heq])
    · have hget : Dict.get ((name, other) :: rest) key = Dict.get rest key := by
        simp [Dict.get, he]
      rw [hget, ← ih hrest, List.mem_cons]
      constructor
      · rintro (heq | hin)
        · exact absurd (congrArg Prod.fst heq).symm he
        · exact hin
      · exact Or.inr

/-- `{key(value): value for value in values}`. -/
def Dict.ofValues {β : Type} (key : β → String) (values : List β) : Dict β :=
  values.foldl (fun d value => Dict.set d (key value) value) []

/-- The values of distinct keys are found under their keys. -/
theorem Dict.get_foldl_set {β : Type} (key : β → String) (name : String) :
    ∀ (values : List β) (d : Dict β), (values.map key).Nodup →
      Dict.get (values.foldl (fun d value => Dict.set d (key value) value) d) name =
        ((values.find? fun value => key value = name).or (Dict.get d name)) := by
  intro values
  induction values with
  | nil => exact fun d _ => rfl
  | cons value rest ih =>
    intro d hnodup
    obtain ⟨hnotin, hrest⟩ := List.nodup_cons.mp hnodup
    show Dict.get (rest.foldl _ (Dict.set d (key value) value)) name = _
    rw [ih _ hrest, Dict.get_set]
    by_cases hname : key value = name
    · -- no later value has the key, so the first one stays
      have hnone : rest.find? (fun other => key other = name) = none := by
        simp only [List.find?_eq_none, decide_eq_true_eq]
        intro other hother heq
        exact hnotin (List.mem_map.mpr ⟨other, hother, heq.trans hname.symm⟩)
      rw [hnone, if_pos hname, List.find?_cons_of_pos (by simpa using hname)]
      rfl
    · rw [if_neg hname, List.find?_cons_of_neg (by simpa using hname)]

theorem Dict.get_ofValues {β : Type} {key : β → String} {values : List β}
    (hnodup : (values.map key).Nodup) (name : String) :
    Dict.get (Dict.ofValues key values) name = values.find? fun value => key value = name := by
  unfold Dict.ofValues
  rw [Dict.get_foldl_set key name values [] hnodup]
  exact Option.or_none

/-- What holds of the empty dictionary, and after assigning any of the values, holds of all. -/
theorem Dict.ofValues_induction {β : Type} {key : β → String} {values : List β}
    {P : Dict β → Prop} (hnil : P [])
    (hset : ∀ d, P d → ∀ value ∈ values, P (Dict.set d (key value) value)) :
    P (Dict.ofValues key values) := by
  have hfold : ∀ (more : List β) (d : Dict β), (∀ value ∈ more, value ∈ values) → P d →
      P (more.foldl (fun d value => Dict.set d (key value) value) d) := by
    intro more
    induction more with
    | nil => exact fun d _ hd => hd
    | cons value rest ih =>
      intro d hmem hd
      exact ih _ (fun other hother => hmem other (List.mem_cons_of_mem value hother))
        (hset d hd value (hmem value List.mem_cons_self))
  exact hfold values [] (fun _ h => h) hnil

theorem Dict.keysNodup_ofValues {β : Type} (key : β → String) (values : List β) :
    (Dict.ofValues key values).KeysNodup :=
  Dict.ofValues_induction List.nodup_nil fun _ hd value _ => Dict.keysNodup_set hd (key value) value

/-- What is found is a value with that key. -/
theorem Dict.of_get_ofValues {β : Type} {key : β → String} {values : List β} {name : String}
    {value : β} (h : Dict.get (Dict.ofValues key values) name = some value) :
    value ∈ values ∧ key value = name := by
  revert h
  refine Dict.ofValues_induction (P := fun d => Dict.get d name = some value →
    value ∈ values ∧ key value = name) (fun h => (by cases h)) fun d hd other hother h => ?_
  rw [Dict.get_set] at h
  split at h
  · rename_i hname
    obtain rfl := Option.some.inj h
    exact ⟨hother, hname⟩
  · exact hd h

/-- Under the key of each value something is found. -/
theorem Dict.isSome_get_ofValues {β : Type} {key : β → String} {values : List β} {value : β}
    (h : value ∈ values) : (Dict.get (Dict.ofValues key values) (key value)).isSome = true := by
  have hfold : ∀ (more : List β) (d : Dict β),
      value ∈ more ∨ (Dict.get d (key value)).isSome = true →
      (Dict.get (more.foldl (fun d value => Dict.set d (key value) value) d)
        (key value)).isSome = true := by
    intro more
    induction more with
    | nil => exact fun d hd => hd.resolve_left List.not_mem_nil
    | cons other rest ih =>
      intro d hd
      refine ih _ ?_
      rw [Dict.get_set]
      rcases hd with hd | hd
      · rcases List.mem_cons.mp hd with rfl | hd
        · exact Or.inr (by rw [if_pos rfl]; rfl)
        · exact Or.inl hd
      · refine Or.inr ?_
        split
        · rfl
        · exact hd
  exact hfold values [] (Or.inl h)

/-- `sorted(d.items())`, and `dict(sorted(d.items()))`: the keys differ, so they decide. -/
def sortedItems {β : Type} (d : Dict β) : Dict β := d.insertionSort (Order.Preimage Prod.fst (· ≤ ·))

theorem sortedItems_idem {β : Type} (d : Dict β) : sortedItems (sortedItems d) = sortedItems d :=
  (List.pairwise_insertionSort _ d).insertionSort_eq

theorem mem_sortedItems {β : Type} {d : Dict β} {e : String × β} : e ∈ sortedItems d ↔ e ∈ d :=
  List.mem_insertionSort _

theorem keysNodup_sortedItems {β : Type} {d : Dict β} (h : d.KeysNodup) :
    (sortedItems d).KeysNodup :=
  (((List.perm_insertionSort _ d).map Prod.fst).nodup_iff).mpr h

/-- Sorting the items changes nothing of what is found. -/
theorem get_sortedItems {β : Type} {d : Dict β} (h : d.KeysNodup) (key : String) :
    Dict.get (sortedItems d) key = Dict.get d key := by
  refine Option.ext fun value => ?_
  rw [← Dict.mem_iff_get (keysNodup_sortedItems h), mem_sortedItems, Dict.mem_iff_get h]

/-- Where no key has two entries, the keys of the sorted items ascend. -/
theorem sortedItems_ascending {β : Type} {d : Dict β} (h : d.KeysNodup) :
    (sortedItems d).Pairwise (fun a b => a.1 < b.1) := by
  have hsorted : (sortedItems d).Pairwise (Order.Preimage Prod.fst (· ≤ ·)) :=
    List.pairwise_insertionSort _ d
  have hdistinct : (sortedItems d).Pairwise (fun a b => a.1 ≠ b.1) :=
    List.pairwise_map.mp (keysNodup_sortedItems h)
  exact (hsorted.and hdistinct).imp fun hab => lt_of_le_of_ne hab.1 hab.2

/-- The order of the entries does not matter to the sorted items. -/
theorem sortedItems_eq_of_perm {β : Type} {d d' : Dict β} (h : d.KeysNodup) (hperm : d.Perm d') :
    sortedItems d = sortedItems d' := by
  have h' : Dict.KeysNodup d' := ((hperm.map Prod.fst).nodup_iff).mp h
  refine List.Perm.eq_of_pairwise (fun a b _ _ hab hba => absurd hba (lt_asymm hab))
    (sortedItems_ascending h) (sortedItems_ascending h') ?_
  exact (List.perm_insertionSort _ d).trans (hperm.trans (List.perm_insertionSort _ d').symm)

/-- Sorting the items and keeping some of them can be done in either order. -/
theorem filter_sortedItems {β : Type} {d : Dict β} (h : d.KeysNodup) (p : String × β → Bool) :
    (sortedItems d).filter p = sortedItems (d.filter p) := by
  have hkept : Dict.KeysNodup (d.filter p) := h.sublist (List.filter_sublist.map Prod.fst)
  refine List.Perm.eq_of_pairwise (fun a b _ _ hab hba => absurd hba (lt_asymm hab))
    ((sortedItems_ascending h).sublist List.filter_sublist) (sortedItems_ascending hkept) ?_
  exact ((List.perm_insertionSort _ d).filter p).trans (List.perm_insertionSort _ _).symm

/-! ## Part of a dictionary -/

section Part

variable {β : Type} {d : Dict β} {p : String × β → Bool} {key : String} {value : β}

/-- An assignment inside the part. -/
theorem Dict.filter_set (hp : p (key, value) = true) (hkey : ∀ e ∈ d, e.1 = key → p e = true) :
    (d.set key value).filter p = Dict.set (d.filter p) key value := by
  induction d with
  | nil => simp [Dict.set, hp]
  | cons e rest ih =>
    rw [Dict.set]
    by_cases he : e.1 = key
    · rw [if_pos he, List.filter_cons_of_pos hp,
        List.filter_cons_of_pos (hkey e List.mem_cons_self he), Dict.set, if_pos he]
    · have hrest := ih fun x hx => hkey x (List.mem_cons_of_mem e hx)
      rw [if_neg he]
      by_cases hpe : p e = true
      · rw [List.filter_cons_of_pos hpe, List.filter_cons_of_pos hpe, hrest]
        show _ = if e.1 = key then _ else _
        rw [if_neg he]
      · rw [List.filter_cons_of_neg hpe, List.filter_cons_of_neg hpe, hrest]

/-- An assignment outside the part. -/
theorem Dict.filter_set_of_not (hp : p (key, value) = false)
    (hkey : ∀ e ∈ d, e.1 = key → p e = false) : (d.set key value).filter p = d.filter p := by
  induction d with
  | nil => simp [Dict.set, hp]
  | cons e rest ih =>
    unfold Dict.set
    by_cases he : e.1 = key
    · rw [if_pos he, List.filter_cons_of_neg (by simp [hp]),
        List.filter_cons_of_neg (by simp [hkey e List.mem_cons_self he])]
    · have hrest := ih fun x hx => hkey x (List.mem_cons_of_mem e hx)
      rw [if_neg he]
      by_cases hpe : p e = true
      · rw [List.filter_cons_of_pos hpe, List.filter_cons_of_pos hpe, hrest]
      · rw [List.filter_cons_of_neg hpe, List.filter_cons_of_neg hpe, hrest]

/-- What an assignment leaves is the entry assigned, and old entries under other keys. -/
theorem Dict.mem_set (h : (key', value') ∈ d.set key value) :
    key' = key ∧ value' = value ∨ (key', value') ∈ d := by
  induction d with
  | nil =>
    rw [Dict.set, List.mem_singleton] at h
    exact Or.inl (Prod.mk.inj h)
  | cons e rest ih =>
    unfold Dict.set at h
    split at h
    · rcases List.mem_cons.mp h with h | h
      · exact Or.inl (Prod.mk.inj h)
      · exact Or.inr (List.mem_cons_of_mem e h)
    · rcases List.mem_cons.mp h with h | h
      · exact Or.inr (h ▸ List.mem_cons_self)
      · exact (ih h).imp_right (List.mem_cons_of_mem e)

/-- Looking up in the part. -/
theorem Dict.get_filter (h : d.KeysNodup) :
    Dict.get (d.filter p) key = (Dict.get d key).filter fun value => p (key, value) := by
  have hkept : Dict.KeysNodup (d.filter p) := h.sublist (List.filter_sublist.map Prod.fst)
  refine Option.ext fun value => ?_
  rw [← Dict.mem_iff_get hkept, List.mem_filter, Dict.mem_iff_get h, Option.filter_eq_some_iff]

end Part

/-! ## JSON -/

/-- A JSON value. -/
inductive Json where
  | null
  | bool (b : Bool)
  | number (x : Rat)
  | text (s : String)
  | array (values : List Json)
  | object (entries : List (String × Json))

/-- Does Python take the value for true? -/
def truthy : Json → Bool
  | .null => false
  | .bool b => b
  | .number x => decide (x ≠ 0)
  | .text s => decide (s ≠ "")
  | .array values => !values.isEmpty
  | .object entries => !entries.isEmpty

/-- The check of a field of type `str`. -/
def textField (check : String → Bool) : Json → Bool
  | .text s => check s
  | _ => false

end Vad
