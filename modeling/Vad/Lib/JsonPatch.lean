/-
  Paths into JSON values as texts (`a.b[3].c`), and edits at such paths.

  1. **Paths** — a path is a list of steps, into an object by a key or into an array by an index.
     Its text can be read back, if no key is empty or holds a `.` or a `[` (`read_render`).
  2. **Edits** — a value is added where nothing is, removed where something is, or changed.  An
     element is added at the end of an array.  An edit of a part is an edit of the whole
     (`edit_under`), and so is a run of edits (`run_under`).
  3. **Order** — removals come first, from the end of the list of edits to its start, so that the
     indices of an array stay valid; then come the other edits, from the start to the end.

  A list of edits that turns one value into another in this order, and that is empty only for equal
  values, `Describes` their difference.  Descriptions for the elements give one for the array
  (`describes_array`), and descriptions for the members one for the object (`describes_object`), in
  whatever order the keys are taken.
-/
import Vad.Lib.CanonicalJson

namespace JsonPatch

open CanonicalJson (Value)
open Vad (Dict)

/-! ## Paths -/

inductive Step where
  | key (name : String)
  | index (i : Nat)
deriving DecidableEq, Repr

abbrev Path : Type := List Step

/-- A step is put behind the text of a path. -/
def join (path : String) : Step → String
  | .key name => if path ≠ "" then path ++ "." ++ name else name
  | .index i => path ++ "[" ++ toString i ++ "]"

/-- The text of a path. -/
def render (p : Path) : String := p.foldl join ""

/-- A character that a key may hold. -/
def keyChar (c : Char) : Bool := c ≠ '.' && c ≠ '['

/-- A key that can be told from the rest of a path. -/
def PlainKey (name : String) : Prop := name ≠ "" ∧ ∀ c ∈ name.toList, keyChar c = true

def Step.Plain : Step → Prop
  | .key name => PlainKey name
  | .index _ => True

/-- The steps of a text in which every key has its dot. -/
def readSteps : Nat → List Char → Option Path
  | _, [] => some []
  | n + 1, '.' :: rest =>
    (readSteps n (rest.dropWhile keyChar)).map
      (Step.key (String.ofList (rest.takeWhile keyChar)) :: ·)
  | n + 1, '[' :: rest =>
    match rest.dropWhile Char.isDigit with
    | ']' :: rest' =>
      (readSteps n rest').map (Step.index (Nat.ofDigitChars 10 (rest.takeWhile Char.isDigit) 0) :: ·)
    | _ => none
  | _, _ => none

/-- The path of a text: the first key has no dot. -/
def read (text : String) : Option Path :=
  match text.toList with
  | [] => some []
  | '[' :: rest => readSteps (rest.length + 1) ('[' :: rest)
  | chars => readSteps (chars.length + 1) ('.' :: chars)

/-- The text of a step, with its dot. -/
def stepText : Step → List Char
  | .key name => '.' :: name.toList
  | .index i => '[' :: (Nat.toDigits 10 i ++ [']'])

section Paths

theorem toList_join {path : String} (h : path ≠ "") (s : Step) :
    (join path s).toList = path.toList ++ stepText s := by
  cases s with
  | key name =>
    show (if path ≠ "" then path ++ "." ++ name else name).toList = _
    rw [if_pos h]
    simp [stepText]
  | index i =>
    show (path ++ "[" ++ toString i ++ "]").toList = _
    simp [stepText, Nat.toString_eq_repr, Nat.repr]

theorem toList_foldl_join (p : Path) : ∀ {path : String}, path ≠ "" →
    (p.foldl join path).toList = path.toList ++ p.flatMap stepText := by
  induction p with
  | nil => exact fun _ => (List.append_nil _).symm
  | cons s p ih =>
    intro path h
    have hnext : join path s ≠ "" := by
      intro hempty
      have hlist := congrArg String.toList hempty
      rw [toList_join h] at hlist
      cases s <;> simp [stepText] at hlist
    rw [List.foldl_cons, ih hnext, toList_join h, List.flatMap_cons, List.append_assoc]

/-- What follows a key does not go on with it. -/
theorem span_keyChar {name : List Char} (h : ∀ c ∈ name, keyChar c = true) (p : Path) :
    (name ++ p.flatMap stepText).takeWhile keyChar = name ∧
      (name ++ p.flatMap stepText).dropWhile keyChar = p.flatMap stepText := by
  rw [List.takeWhile_append_of_pos h, List.dropWhile_append_of_pos h]
  rcases p with _ | ⟨_ | _, p⟩
  · simp
  · rw [List.flatMap_cons, stepText, List.cons_append, List.takeWhile_cons_of_neg (by decide),
      List.dropWhile_cons_of_neg (by decide), List.append_nil]
    exact ⟨rfl, rfl⟩
  · rw [List.flatMap_cons, stepText, List.cons_append, List.takeWhile_cons_of_neg (by decide),
      List.dropWhile_cons_of_neg (by decide), List.append_nil]
    exact ⟨rfl, rfl⟩

theorem readSteps_text {p : Path} (h : ∀ s ∈ p, s.Plain) : ∀ {n : Nat}, p.length ≤ n →
    readSteps n (p.flatMap stepText) = some p := by
  induction p with
  | nil =>
    intro n _
    cases n <;> rfl
  | cons s p ih =>
    intro n hn
    obtain ⟨n, rfl⟩ := Nat.exists_eq_add_of_lt (Nat.lt_of_lt_of_le (Nat.succ_pos p.length) hn)
    have hrest := ih (fun x hx => h x (List.mem_cons_of_mem _ hx)) (n := n)
      (by rw [List.length_cons] at hn; omega)
    rw [Nat.zero_add]
    cases s with
    | key name =>
      obtain ⟨-, hchars⟩ := h _ (List.mem_cons_self ..)
      obtain ⟨htake, hdrop⟩ := span_keyChar hchars p
      show (readSteps n ((name.toList ++ p.flatMap stepText).dropWhile keyChar)).map
        (Step.key (String.ofList ((name.toList ++ p.flatMap stepText).takeWhile keyChar)) :: ·) = _
      rw [htake, hdrop, hrest, String.ofList_toList]
      rfl
    | index i =>
      have hdigits : ∀ c ∈ Nat.toDigits 10 i, c.isDigit = true := fun c hc =>
        Nat.isDigit_of_mem_toDigits (by decide) (by decide) hc
      have hsplit : (Step.index i :: p).flatMap stepText =
          '[' :: (Nat.toDigits 10 i ++ ']' :: p.flatMap stepText) := by
        simp [stepText]
      have hdrop : (Nat.toDigits 10 i ++ ']' :: p.flatMap stepText).dropWhile Char.isDigit =
          ']' :: p.flatMap stepText := by
        rw [List.dropWhile_append_of_pos hdigits, List.dropWhile_cons_of_neg (by decide)]
      have htake : (Nat.toDigits 10 i ++ ']' :: p.flatMap stepText).takeWhile Char.isDigit =
          Nat.toDigits 10 i := by
        rw [List.takeWhile_append_of_pos hdigits, List.takeWhile_cons_of_neg (by decide),
          List.append_nil]
      rw [hsplit, readSteps, hdrop, htake]
      show (readSteps n (p.flatMap stepText)).map
        (Step.index (Nat.ofDigitChars 10 (Nat.toDigits 10 i) 0) :: ·) = _
      rw [hrest, Nat.ofDigitChars_ten_toDigits]
      rfl

theorem length_le_text (p : Path) : p.length ≤ (p.flatMap stepText).length := by
  induction p with
  | nil => exact Nat.le_refl 0
  | cons s p ih =>
    have hone : 1 ≤ (stepText s).length := by
      cases s <;> simp [stepText]
    rw [List.flatMap_cons, List.length_append, List.length_cons]
    omega

/-- **The text of a path can be read back.** -/
theorem read_render {p : Path} (h : ∀ s ∈ p, s.Plain) : read (render p) = some p := by
  rcases p with _ | ⟨s, p⟩
  · rfl
  have hsteps := readSteps_text h (length_le_text _)
  cases s with
  | key name =>
    obtain ⟨hne, hchars⟩ := h _ (List.mem_cons_self ..)
    have htext : (render (.key name :: p)).toList = name.toList ++ p.flatMap stepText :=
      toList_foldl_join p hne
    obtain ⟨c, rest, hname⟩ : ∃ c rest, name.toList = c :: rest :=
      List.exists_cons_of_ne_nil fun hnil => hne (String.toList_eq_nil_iff.mp hnil)
    have hbracket : c ≠ '[' := by
      have hc := hchars c (by rw [hname]; exact List.mem_cons_self ..)
      rintro rfl
      exact absurd hc (by decide)
    unfold read
    rw [htext, hname]
    rw [show (Step.key name :: p).flatMap stepText = '.' :: (c :: (rest ++ p.flatMap stepText)) by
      simp [stepText, hname]] at hsteps
    rw [List.cons_append]
    split
    · rename_i heq
      cases heq
    · rename_i heq
      exact absurd (List.cons.inj heq).1 hbracket
    · exact hsteps
  | index i =>
    have htext : (render (.index i :: p)).toList = (Step.index i :: p).flatMap stepText := by
      have hfirst : join "" (.index i) ≠ "" := by
        intro hempty
        have hlist := congrArg String.toList hempty
        simp [join] at hlist
      show (p.foldl join (join "" (.index i))).toList = _
      rw [toList_foldl_join p hfirst]
      simp [join, stepText, Nat.toString_eq_repr, Nat.repr]
    have hopen : (Step.index i :: p).flatMap stepText =
        '[' :: ((Nat.toDigits 10 i ++ [']']) ++ p.flatMap stepText) := by
      simp [stepText]
    unfold read
    rw [htext]
    rw [hopen] at hsteps ⊢
    exact hsteps

end Paths

/-! ## Edits -/

inductive Kind where
  | added | removed | changed
deriving DecidableEq, Repr

section Edits

variable {φ : Type}

/-- What a step leads to. -/
def child : Step → Value φ → Option (Value φ)
  | .key name, .object entries => Dict.get entries name
  | .index i, .array values => values[i]?
  | _, _ => none

/-- The value behind a step is replaced; a new element goes to the end of its array. -/
def put (step : Step) (new : Value φ) : Value φ → Option (Value φ)
  | .object entries =>
    match step with
    | .key name => some (.object (Dict.set entries name new))
    | .index _ => none
  | .array values =>
    match step with
    | .key _ => none
    | .index i =>
      if i < values.length then some (.array (values.set i new))
      else if i = values.length then some (.array (values ++ [new]))
      else none
  | _ => none

/-- The value behind a step is taken out. -/
def drop (step : Step) : Value φ → Option (Value φ)
  | .object entries =>
    match step with
    | .key name => (Dict.get entries name).map fun _ => .object (Dict.erase entries name)
    | .index _ => none
  | .array values =>
    match step with
    | .key _ => none
    | .index i => if i < values.length then some (.array (values.eraseIdx i)) else none
  | _ => none

/-- An edit of the value at a path. -/
def edit (kind : Kind) (new : Value φ) : Path → Value φ → Option (Value φ)
  | [], _ => if kind = .changed then some new else none
  | step :: rest, v =>
    if rest = [] ∧ kind = .added then
      if (child step v).isNone then put step new v else none
    else if rest = [] ∧ kind = .removed then drop step v
    else do
      let part ← child step v
      let part' ← edit kind new rest part
      put step part' v

/-- An entry of a list of edits. -/
structure Edit (φ : Type) where
  kind : Kind
  path : Path
  old : Value φ
  new : Value φ

def Edit.apply (e : Edit φ) (v : Value φ) : Option (Value φ) := edit e.kind e.new e.path v

/-- One edit after the other. -/
def run (edits : List (Edit φ)) (v : Value φ) : Option (Value φ) := edits.foldlM (fun v e => e.apply v) v

def removals (edits : List (Edit φ)) : List (Edit φ) := edits.filter fun e => e.kind = .removed

def others (edits : List (Edit φ)) : List (Edit φ) := edits.filter fun e => e.kind ≠ .removed

/-- The edit of a whole that a part of it lies in. -/
def Edit.under (step : Step) (e : Edit φ) : Edit φ := { e with path := step :: e.path }

theorem set_set {β : Type} (d : Dict β) (key : String) (x y : β) :
    Dict.set (Dict.set d key x) key y = Dict.set d key y := by
  induction d with
  | nil => exact if_pos rfl
  | cons e rest ih =>
    by_cases he : e.1 = key
    · simp [Dict.set, he]
    · simp [Dict.set, he, ih]

/-- Setting what is there changes nothing. -/
theorem set_get {β : Type} {d : Dict β} {key : String} {x : β} (h : Dict.get d key = some x) :
    Dict.set d key x = d := by
  obtain ⟨front, back, rfl, hfront⟩ := Dict.split_of_get h
  exact Dict.set_of_split x hfront

/-- A part that is there can be replaced, and nothing else is. -/
theorem put_child {step : Step} {v part : Value φ} (h : child step v = some part)
    (new : Value φ) : ∃ v', put step new v = some v' ∧ child step v' = some new ∧
      ∀ new', put step new' v' = put step new' v := by
  cases v with
  | object entries =>
    cases step with
    | key name =>
      refine ⟨_, rfl, ?_, fun new' => ?_⟩
      · show Dict.get (Dict.set entries name new) name = some new
        rw [Dict.get_set, if_pos rfl]
      · show some (Value.object (Dict.set (Dict.set entries name new) name new')) = _
        rw [set_set]
        rfl
    | index i => cases h
  | array values =>
    cases step with
    | key name => cases h
    | index i =>
      have hi : i < values.length := (List.getElem?_eq_some_iff.mp h).1
      have hput (new : Value φ) : put (.index i) new (.array values) =
          some (.array (values.set i new)) := if_pos hi
      refine ⟨_, hput new, ?_, fun new' => ?_⟩
      · show (values.set i new)[i]? = some new
        rw [List.getElem?_set_self hi]
      · rw [hput new']
        show (if i < (values.set i new).length then
          some (Value.array ((values.set i new).set i new')) else _) = _
        rw [if_pos (by rwa [List.length_set]), List.set_set]
  | null => cases step <;> cases h
  | bool b => cases step <;> cases h
  | int n => cases step <;> cases h
  | float x => cases step <;> cases h
  | text s => cases step <;> cases h

/-- Replacing a part by itself changes nothing. -/
theorem put_same {step : Step} {v part : Value φ} (h : child step v = some part) :
    put step part v = some v := by
  cases v with
  | object entries =>
    cases step with
    | key name =>
      show some (Value.object (Dict.set entries name part)) = _
      rw [set_get h]
    | index i => cases h
  | array values =>
    cases step with
    | key name => cases h
    | index i =>
      obtain ⟨hi, rfl⟩ := List.getElem?_eq_some_iff.mp h
      show (if i < values.length then some (Value.array (values.set i values[i])) else _) = _
      rw [if_pos hi, List.set_getElem_self]
  | null => cases step <;> cases h
  | bool b => cases step <;> cases h
  | int n => cases step <;> cases h
  | float x => cases step <;> cases h
  | text s => cases step <;> cases h

/-- **An edit of a part is an edit of the whole.** -/
theorem edit_under {step : Step} {v part part' : Value φ} {e : Edit φ}
    (hchild : child step v = some part) (h : e.apply part = some part') :
    (e.under step).apply v = put step part' v := by
  show edit e.kind e.new (step :: e.path) v = _
  unfold Edit.apply at h
  unfold edit
  -- a whole value is neither added nor removed
  have hroot : e.path = [] → e.kind = .changed := by
    intro hpath
    rw [hpath, edit] at h
    split at h
    · assumption
    · cases h
  split
  · rename_i hadded
    have hkind := hroot hadded.1
    rw [hadded.2] at hkind
    cases hkind
  split
  · rename_i hremoved
    have hkind := hroot hremoved.1
    rw [hremoved.2] at hkind
    cases hkind
  · show ((child step v).bind fun part => (edit e.kind e.new e.path part).bind fun part' =>
      put step part' v) = _
    rw [hchild, Option.bind_some, h, Option.bind_some]

/-- **A run of edits of a part is a run of edits of the whole.** -/
theorem run_under {step : Step} (edits : List (Edit φ)) : ∀ {v part part' : Value φ},
    child step v = some part → run edits part = some part' →
      ∃ v', put step part' v = some v' ∧ run (edits.map (Edit.under step)) v = some v' := by
  induction edits with
  | nil =>
    intro v part part' hchild h
    cases h
    exact ⟨v, put_same hchild, rfl⟩
  | cons e edits ih =>
    intro v part part' hchild h
    obtain ⟨middle, hfirst, hrest⟩ := Option.bind_eq_some_iff.mp h
    obtain ⟨v', hput, hchild', hagain⟩ := put_child hchild middle
    obtain ⟨v'', hput', hrun⟩ := ih hchild' hrest
    refine ⟨v'', ?_, ?_⟩
    · rw [← hagain]
      exact hput'
    · exact Option.bind_eq_some_iff.mpr ⟨v', (edit_under hchild hfirst).trans hput, hrun⟩

theorem run_append {front back : List (Edit φ)} {v : Value φ} :
    run (front ++ back) v = (run front v).bind (run back) := List.foldlM_append ..

theorem removals_under (step : Step) (edits : List (Edit φ)) :
    removals (edits.map (Edit.under step)) = (removals edits).map (Edit.under step) := by
  unfold removals
  rw [List.filter_map]
  rfl

theorem others_under (step : Step) (edits : List (Edit φ)) :
    others (edits.map (Edit.under step)) = (others edits).map (Edit.under step) := by
  unfold others
  rw [List.filter_map]
  rfl

theorem removals_append (front back : List (Edit φ)) :
    removals (front ++ back) = removals front ++ removals back := List.filter_append ..

theorem others_append (front back : List (Edit φ)) :
    others (front ++ back) = others front ++ others back := List.filter_append ..

end Edits

/-! ## Descriptions of a difference -/

section Descriptions

variable {φ : Type}

/-- All edits, in the order in which their paths are valid. -/
def runAll (edits : List (Edit φ)) (v : Value φ) : Option (Value φ) :=
  (run (removals edits).reverse v).bind (run (others edits))

/-- The edits tell how the values differ. -/
structure Describes (edits : List (Edit φ)) (old new : Value φ) : Prop where
  /-- Their paths can be read back. -/
  plain : ∀ e ∈ edits, ∀ s ∈ e.path, s.Plain
  /-- There is none only if the values are equal. -/
  nothing : edits = [] ↔ old = new
  /-- What is changed is different. -/
  differs : ∀ e ∈ edits, e.kind = .changed → e.old ≠ e.new
  /-- They make one value of the other. -/
  applies : runAll edits old = some new

theorem Describes.middle {edits : List (Edit φ)} {old new : Value φ} (h : Describes edits old new) :
    ∃ m, run (removals edits).reverse old = some m ∧ run (others edits) m = some new :=
  Option.bind_eq_some_iff.mp h.applies

/-- Values that are equal need no edit. -/
theorem describes_nil (v : Value φ) : Describes [] v v where
  plain _ he := absurd he List.not_mem_nil
  nothing := ⟨fun _ => rfl, fun _ => rfl⟩
  differs _ he := absurd he List.not_mem_nil
  applies := rfl

/-- One value is changed to another. -/
theorem describes_changed {old new : Value φ} (h : old ≠ new) :
    Describes [⟨.changed, [], old, new⟩] old new where
  plain e he s hs := by
    rw [List.mem_singleton.mp he] at hs
    exact absurd hs List.not_mem_nil
  nothing := ⟨fun hnil => (nomatch hnil), fun heq => absurd heq h⟩
  differs e he _ := by
    rw [List.mem_singleton.mp he]
    exact h
  applies := rfl

/-- The edits of the elements of an array, from an index on. -/
inductive ElementEdits : Nat → List (Value φ) → List (Value φ) → List (Edit φ) → Prop
  | done (k : Nat) : ElementEdits k [] [] []
  | added {k : Nat} {w : Value φ} {ws : List (Value φ)} {rest : List (Edit φ)}
      (h : ElementEdits (k + 1) [] ws rest) :
      ElementEdits k [] (w :: ws) (⟨.added, [.index k], .null, w⟩ :: rest)
  | removed {k : Nat} {v : Value φ} {vs : List (Value φ)} {rest : List (Edit φ)}
      (h : ElementEdits (k + 1) vs [] rest) :
      ElementEdits k (v :: vs) [] (⟨.removed, [.index k], v, .null⟩ :: rest)
  | both {k : Nat} {v w : Value φ} {vs ws : List (Value φ)} {edits rest : List (Edit φ)}
      (hpart : Describes edits v w) (h : ElementEdits (k + 1) vs ws rest) :
      ElementEdits k (v :: vs) (w :: ws) (edits.map (Edit.under (.index k)) ++ rest)

/-- The element at an index is replaced by what a run of edits makes of it. -/
theorem run_element {front back : List (Value φ)} {k : Nat} (hk : front.length = k)
    {edits : List (Edit φ)} {v w : Value φ} (h : run edits v = some w) :
    run (edits.map (Edit.under (.index k))) (.array (front ++ v :: back)) =
      some (.array (front ++ w :: back)) := by
  have hchild : child (.index k) (.array (front ++ v :: back)) = some v := by
    show (front ++ v :: back)[k]? = some v
    rw [List.getElem?_append_right (by omega), hk, Nat.sub_self]
    rfl
  have hput : put (.index k) w (.array (front ++ v :: back)) =
      some (.array (front ++ w :: back)) := by
    have hlength : k < (front ++ v :: back).length := by simp; omega
    show (if k < (front ++ v :: back).length then
      some (Value.array ((front ++ v :: back).set k w)) else _) = _
    rw [if_pos hlength, List.set_append_right _ _ (by omega), hk, Nat.sub_self]
    rfl
  obtain ⟨v', hv', hrun⟩ := run_under edits hchild h
  rw [hrun, ← hv', hput]

/-- Where there are no old elements left, the others are added one by one. -/
theorem ElementEdits.additions {k : Nat} {vs ws : List (Value φ)} {edits : List (Edit φ)}
    (h : ElementEdits k vs ws edits) : vs = [] → removals edits = [] ∧
      ∀ front : List (Value φ), front.length = k →
        run (others edits) (.array front) = some (.array (front ++ ws)) := by
  induction h with
  | done k =>
    refine fun _ => ⟨rfl, fun front _ => ?_⟩
    rw [List.append_nil]
    rfl
  | @added k w ws rest _ ih =>
    intro _
    obtain ⟨hnone, hrun⟩ := ih rfl
    refine ⟨hnone, fun front hk => ?_⟩
    have hadd : (⟨.added, [.index k], .null, w⟩ : Edit φ).apply (.array front) =
        some (.array (front ++ [w])) := by
      have hchild : child (.index k) (.array front) = none :=
        List.getElem?_eq_none (Nat.le_of_eq hk)
      show edit .added w [.index k] (.array front) = _
      rw [edit, if_pos ⟨rfl, rfl⟩, hchild, if_pos Option.isNone_none]
      show (if k < front.length then _ else if k = front.length then
        some (Value.array (front ++ [w])) else none) = _
      rw [if_neg (by omega), if_pos hk.symm]
    have hrest := hrun (front ++ [w]) (by rw [List.length_append, hk]; rfl)
    rw [List.append_assoc] at hrest
    exact Option.bind_eq_some_iff.mpr ⟨_, hadd, hrest⟩
  | removed _ _ => exact fun h => (nomatch h)
  | both _ _ _ => exact fun h => (nomatch h)

/-- Where there are no new elements left, the others are removed from the end. -/
theorem ElementEdits.removals {k : Nat} {vs ws : List (Value φ)} {edits : List (Edit φ)}
    (h : ElementEdits k vs ws edits) : ws = [] → others edits = [] ∧
      ∀ front : List (Value φ), front.length = k →
        run (JsonPatch.removals edits).reverse (.array (front ++ vs)) = some (.array front) := by
  induction h with
  | done k =>
    refine fun _ => ⟨rfl, fun front _ => ?_⟩
    rw [List.append_nil]
    rfl
  | @removed k v vs rest _ ih =>
    intro _
    obtain ⟨hnone, hrun⟩ := ih rfl
    refine ⟨hnone, fun front hk => ?_⟩
    have hrest := hrun (front ++ [v]) (by rw [List.length_append, hk]; rfl)
    rw [List.append_assoc] at hrest
    have hdrop : (⟨.removed, [.index k], v, .null⟩ : Edit φ).apply (.array (front ++ [v])) =
        some (.array front) := by
      show (if k < (front ++ [v]).length then
        some (Value.array ((front ++ [v]).eraseIdx k)) else none) = _
      rw [if_pos (by simp; omega), List.eraseIdx_append_of_length_le (by omega), hk, Nat.sub_self]
      simp
    show run ((⟨.removed, [.index k], v, .null⟩ : Edit φ) :: JsonPatch.removals rest).reverse _ = _
    rw [List.reverse_cons, run_append]
    exact Option.bind_eq_some_iff.mpr ⟨_, hrest, Option.bind_eq_some_iff.mpr ⟨_, hdrop, rfl⟩⟩
  | added _ _ => exact fun h => (nomatch h)
  | both _ _ _ => exact fun h => (nomatch h)

/-- The elements from an index on, between removals and other edits. -/
theorem ElementEdits.middle {k : Nat} {vs ws : List (Value φ)} {edits : List (Edit φ)}
    (h : ElementEdits k vs ws edits) : ∃ ms, ∀ front : List (Value φ), front.length = k →
      run (JsonPatch.removals edits).reverse (.array (front ++ vs)) = some (.array (front ++ ms)) ∧
      run (others edits) (.array (front ++ ms)) = some (.array (front ++ ws)) := by
  induction h with
  | done k => exact ⟨[], fun front _ => ⟨rfl, rfl⟩⟩
  | @added k w ws rest h _ =>
    obtain ⟨hnone, hrun⟩ := (ElementEdits.added (w := w) h).additions rfl
    refine ⟨[], fun front hk => ⟨?_, ?_⟩⟩
    · rw [hnone]
      rfl
    · rw [List.append_nil]
      exact hrun front hk
  | @removed k v vs rest h _ =>
    obtain ⟨hnone, hrun⟩ := (ElementEdits.removed (v := v) h).removals rfl
    refine ⟨[], fun front hk => ⟨?_, ?_⟩⟩
    · rw [List.append_nil]
      exact hrun front hk
    · rw [hnone]
      rfl
  | @both k v w vs ws edits rest hpart _ ih =>
    obtain ⟨m, hdown, hup⟩ := hpart.middle
    obtain ⟨ms, hms⟩ := ih
    refine ⟨m :: ms, fun front hk => ⟨?_, ?_⟩⟩
    · -- the later elements first, then this one
      have hlater := (hms (front ++ [v]) (by rw [List.length_append, hk]; rfl)).1
      rw [List.append_assoc, List.append_assoc] at hlater
      rw [removals_append, List.reverse_append, removals_under, ← List.map_reverse, run_append]
      exact Option.bind_eq_some_iff.mpr ⟨_, hlater, run_element hk hdown⟩
    · have hlater := (hms (front ++ [w]) (by rw [List.length_append, hk]; rfl)).2
      rw [List.append_assoc, List.append_assoc] at hlater
      rw [others_append, others_under, run_append]
      exact Option.bind_eq_some_iff.mpr ⟨_, run_element hk hup, hlater⟩

theorem ElementEdits.eq_nil_iff {k : Nat} {vs ws : List (Value φ)} {edits : List (Edit φ)}
    (h : ElementEdits k vs ws edits) : edits = [] ↔ vs = ws := by
  induction h with
  | done k => exact ⟨fun _ => rfl, fun _ => rfl⟩
  | added _ _ => exact ⟨fun h => (nomatch h), fun h => (nomatch h)⟩
  | removed _ _ => exact ⟨fun h => (nomatch h), fun h => (nomatch h)⟩
  | both hpart _ ih =>
    rw [List.append_eq_nil_iff, List.map_eq_nil_iff, hpart.nothing, ih, List.cons.injEq]

theorem ElementEdits.plain {k : Nat} {vs ws : List (Value φ)} {edits : List (Edit φ)}
    (h : ElementEdits k vs ws edits) : ∀ e ∈ edits, (∀ s ∈ e.path, s.Plain) ∧
      (e.kind = .changed → e.old ≠ e.new) := by
  have hindex (k : Nat) : ∀ s ∈ [Step.index k], s.Plain := fun s hs => by
    rw [List.mem_singleton.mp hs]
    trivial
  induction h with
  | done k => exact fun e he => absurd he List.not_mem_nil
  | added _ ih =>
    intro e he
    rcases List.mem_cons.mp he with rfl | he
    · exact ⟨hindex _, fun h => (nomatch h)⟩
    · exact ih e he
  | removed _ ih =>
    intro e he
    rcases List.mem_cons.mp he with rfl | he
    · exact ⟨hindex _, fun h => (nomatch h)⟩
    · exact ih e he
  | both hpart _ ih =>
    intro e he
    rcases List.mem_append.mp he with he | he
    · obtain ⟨inner, hinner, rfl⟩ := List.mem_map.mp he
      refine ⟨fun s hs => ?_, hpart.differs inner hinner⟩
      rcases List.mem_cons.mp hs with rfl | hs
      · trivial
      · exact hpart.plain inner hinner s hs
    · exact ih e he

/-- **Descriptions for the elements give one for the array.** -/
theorem describes_array {vs ws : List (Value φ)} {edits : List (Edit φ)}
    (h : ElementEdits 0 vs ws edits) : Describes edits (.array vs) (.array ws) where
  plain e he := (h.plain e he).1
  nothing := by rw [h.eq_nil_iff, Value.array.injEq]
  differs e he := (h.plain e he).2
  applies := by
    obtain ⟨ms, hms⟩ := h.middle
    obtain ⟨hdown, hup⟩ := hms [] rfl
    exact Option.bind_eq_some_iff.mpr ⟨_, hdown, hup⟩

/-- An object with a value for each key. -/
def objectOf (keys : List String) (value : String → Value φ) : Value φ :=
  .object (keys.map fun key => (key, value key))

theorem child_objectOf {keys : List String} {key : String} (h : key ∈ keys)
    (value : String → Value φ) : child (.key key) (objectOf keys value) = some (value key) := by
  show Dict.get (keys.map fun key => (key, value key)) key = some (value key)
  induction keys with
  | nil => exact absurd h List.not_mem_nil
  | cons first keys ih =>
    by_cases hfirst : first = key
    · simp [Dict.get, hfirst]
    · have hrest := ih ((List.mem_cons.mp h).resolve_left fun heq => hfirst heq.symm)
      rw [← hrest]
      simp [Dict.get, hfirst]

theorem put_objectOf {keys : List String} (hnodup : keys.Nodup) {key : String} (h : key ∈ keys)
    (value : String → Value φ) (new : Value φ) :
    put (.key key) new (objectOf keys value) =
      some (objectOf keys (Function.update value key new)) := by
  show some (Value.object (Dict.set (keys.map fun key => (key, value key)) key new)) = _
  unfold objectOf
  congr 2
  induction keys with
  | nil => exact absurd h List.not_mem_nil
  | cons first keys ih =>
    obtain ⟨hfirst, hkeys⟩ := List.nodup_cons.mp hnodup
    rw [List.map_cons, List.map_cons, Dict.set]
    by_cases heq : first = key
    · subst heq
      rw [if_pos rfl, Function.update_self]
      congr 1
      refine List.map_congr_left fun key hkey => ?_
      have hne : key ≠ first := fun heq => hfirst (heq ▸ hkey)
      rw [Function.update_of_ne hne]
    · rw [if_neg heq, Function.update_of_ne heq,
        ih hkeys ((List.mem_cons.mp h).resolve_left fun h => heq h.symm)]

/-- The members of an object are replaced, in some order of the keys, by what runs of edits make of
    them. -/
theorem run_members {keys : List String} (hnodup : keys.Nodup) {edits : String → List (Edit φ)}
    {goal : String → Value φ} (order : List String) : ∀ {value : String → Value φ},
    order.Nodup → (∀ key ∈ order, key ∈ keys) →
      (∀ key ∈ order, run (edits key) (value key) = some (goal key)) →
        run (order.flatMap fun key => (edits key).map (Edit.under (.key key)))
          (objectOf keys value) =
            some (objectOf keys fun key => if key ∈ order then goal key else value key) := by
  induction order with
  | nil => exact fun _ _ _ => rfl
  | cons first order ih =>
    intro value horder hin hruns
    obtain ⟨hfirst, horder⟩ := List.nodup_cons.mp horder
    have hkey := hin first (List.mem_cons_self ..)
    obtain ⟨v', hput, hrun⟩ := run_under _ (child_objectOf hkey value)
      (hruns first (List.mem_cons_self ..))
    rw [put_objectOf hnodup hkey] at hput
    cases hput
    rw [List.flatMap_cons, run_append, hrun, Option.bind_some,
      ih horder (fun key hk => hin key (List.mem_cons_of_mem _ hk)) fun key hk => ?_]
    · congr 2
      funext key
      by_cases hsame : key = first
      · subst hsame
        rw [if_neg hfirst, if_pos (List.mem_cons_self ..), Function.update_self]
      · rw [Function.update_of_ne hsame]
        simp [hsame]
    · have hne : key ≠ first := fun heq => hfirst (heq ▸ hk)
      rw [Function.update_of_ne hne]
      exact hruns key (List.mem_cons_of_mem _ hk)

/-- **Descriptions for the members give one for the object**, in whatever order of the keys. -/
theorem describes_object {keys order : List String} (hnodup : keys.Nodup) (horder : order.Perm keys)
    (hplain : ∀ key ∈ keys, PlainKey key) {edits : String → List (Edit φ)}
    {old new : String → Value φ} (h : ∀ key ∈ keys, Describes (edits key) (old key) (new key)) :
    Describes (order.flatMap fun key => (edits key).map (Edit.under (.key key)))
      (objectOf keys old) (objectOf keys new) where
  plain e he s hs := by
    obtain ⟨key, hkey, he⟩ := List.mem_flatMap.mp he
    obtain ⟨inner, hinner, rfl⟩ := List.mem_map.mp he
    have hin := horder.mem_iff.mp hkey
    rcases List.mem_cons.mp hs with rfl | hs
    · exact hplain key hin
    · exact (h key hin).plain inner hinner s hs
  nothing := by
    have hparts : (order.flatMap fun key => (edits key).map (Edit.under (.key key))) = [] ↔
        ∀ key ∈ keys, old key = new key := by
      rw [List.flatMap_eq_nil_iff]
      constructor
      · intro hnil key hkey
        have hmap := hnil key (horder.mem_iff.mpr hkey)
        exact (h key hkey).nothing.mp (List.map_eq_nil_iff.mp hmap)
      · intro hsame key hkey
        have hin := horder.mem_iff.mp hkey
        exact List.map_eq_nil_iff.mpr ((h key hin).nothing.mpr (hsame key hin))
    rw [hparts]
    unfold objectOf
    rw [Value.object.injEq, List.map_inj_left]
    simp only [Prod.mk.injEq, true_and]
  differs e he := by
    obtain ⟨key, hkey, he⟩ := List.mem_flatMap.mp he
    obtain ⟨inner, hinner, rfl⟩ := List.mem_map.mp he
    exact (h key (horder.mem_iff.mp hkey)).differs inner hinner
  applies := by
    have : Nonempty (Value φ) := ⟨.null⟩
    choose! middle hdown hup using fun key hkey => (h key hkey).middle
    have hnodup' := horder.nodup_iff.mpr hnodup
    have hin : ∀ key ∈ order, key ∈ keys := fun key => horder.mem_iff.mp
    have hall (value other : String → Value φ) :
        objectOf keys (fun key => if key ∈ order then value key else other key) =
          objectOf keys value := by
      unfold objectOf
      congr 1
      refine List.map_congr_left fun key hkey => ?_
      dsimp only
      rw [if_pos (horder.mem_iff.mpr hkey)]
    have hremovals : (removals (order.flatMap fun key =>
        (edits key).map (Edit.under (.key key)))).reverse = order.reverse.flatMap fun key =>
          (removals (edits key)).reverse.map (Edit.under (.key key)) := by
      unfold removals
      rw [List.filter_flatMap, List.reverse_flatMap]
      congr 1
      funext key
      have hunder := removals_under (.key key) (edits key)
      unfold removals at hunder
      show (List.filter _ _).reverse = _
      rw [hunder, List.map_reverse]
    have hothers : others (order.flatMap fun key => (edits key).map (Edit.under (.key key))) =
        order.flatMap fun key => (others (edits key)).map (Edit.under (.key key)) := by
      unfold others
      rw [List.filter_flatMap]
      congr 1
      funext key
      exact others_under (.key key) (edits key)
    refine Option.bind_eq_some_iff.mpr ⟨objectOf keys middle, ?_, ?_⟩
    · rw [hremovals, run_members hnodup order.reverse
        (List.nodup_reverse.mpr hnodup') (fun key hkey => hin key (List.mem_reverse.mp hkey))
        fun key hkey => hdown key (hin key (List.mem_reverse.mp hkey))]
      simp only [List.mem_reverse, hall]
    · rw [hothers, run_members hnodup order hnodup' hin
        fun key hkey => hup key (hin key hkey), hall]

end Descriptions

end JsonPatch
