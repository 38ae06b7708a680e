/-
  Reading values from data such as JSON the way a validation library does: a reading gives the
  value, or the locations of everything in the data that it refuses, not only the first.

  1. `apply` runs two readings and collects what either refuses;
  2. `member` and `elements` read a member of an object and the elements of an array, and put the
     name, or the index, in front of what they refuse;
  3. each reader has a lemma for the data that a writer makes of a value (`elements_map`,
     `oneOf_name`), so a round trip is proved field by field.
-/
import Vad.Lib.Dict

namespace Vad

/-- Where in the data something stands: the names and the indices that lead to it. -/
abbrev Location := List String

/-- The value, or the locations that were refused. -/
abbrev Reading (α : Type) := Except (List Location) α

namespace Reading

variable {α β δ : Type}

/-- A value that needs no data. -/
def value (a : α) : Reading α := .ok a

/-- What is refused lies inside the named part. -/
def inside (name : String) : Reading α → Reading α
  | .ok a => .ok a
  | .error locations => .error (locations.map (name :: ·))

/-- Read the function and its argument, and collect what either refuses. -/
def apply : Reading (α → β) → Reading α → Reading β
  | .ok f, .ok a => .ok (f a)
  | .ok _, .error e => .error e
  | .error e, .ok _ => .error e
  | .error e, .error e' => .error (e ++ e')

/-- The value itself is refused. -/
def refused : Reading α := .error [[]]

def text : Json → Reading String
  | .text s => .ok s
  | _ => refused

/-- A text that is not empty. -/
def nonEmptyText : Json → Reading String
  | .text s => if s = "" then refused else .ok s
  | _ => refused

/-- An object, whatever is in it. -/
def dict : Json → Reading (Dict Json)
  | .object entries => .ok entries
  | _ => refused

/-- One of the values, by its text. -/
def oneOf (values : List α) (name : α → String) : Json → Reading α
  | .text s => match values.find? fun a => name a = s with
    | some a => .ok a
    | none => refused
  | _ => refused

/-- The elements from the index on; how one is read may depend on its index. -/
def elementsFrom (read : Nat → δ → Reading α) : Nat → List δ → Reading (List α)
  | _, [] => .ok []
  | i, x :: rest =>
    value List.cons
      |>.apply (inside (toString i) (read i x))
      |>.apply (elementsFrom read (i + 1) rest)

/-- An array of such elements. -/
def elements (read : Nat → Json → Reading α) : Json → Reading (List α)
  | .array values => elementsFrom read 0 values
  | _ => refused

/-- A member of an object, or its default. -/
def member (entries : Dict δ) (name : String) (read : δ → Reading α)
    (default : Option α) : Reading α :=
  match Dict.get entries name, default with
  | some x, _ => inside name (read x)
  | none, some a => .ok a
  | none, none => inside name refused

/-! ## What a writer wrote is read back -/

@[simp] theorem inside_ok (name : String) (a : α) : inside name (.ok a) = .ok a := rfl

@[simp] theorem apply_ok (f : α → β) (a : α) : apply (.ok f) (.ok a) = .ok (f a) := rfl

@[simp] theorem value_eq (a : α) : value a = .ok a := rfl

theorem nonEmptyText_text {s : String} (h : s ≠ "") : nonEmptyText (.text s) = .ok s := if_neg h

theorem oneOf_name {values : List α} {name : α → String}
    (hname : ∀ a ∈ values, ∀ b ∈ values, name a = name b → a = b) {a : α} (ha : a ∈ values) :
    oneOf values name (.text (name a)) = .ok a := by
  unfold oneOf
  cases hfind : values.find? fun b => name b = name a with
  | none =>
    have hnot := List.find?_eq_none.mp hfind a ha
    simp at hnot
  | some b =>
    have hsame : name b = name a := by simpa using List.find?_some hfind
    have hb : b ∈ values := List.mem_of_find?_eq_some hfind
    simp only [hfind]
    rw [hname b hb a ha hsame]

theorem elementsFrom_map {read : Nat → δ → Reading α} {write : α → δ} :
    ∀ (i : Nat) {values : List α}, (∀ i, ∀ a ∈ values, read i (write a) = .ok a) →
      elementsFrom read i (values.map write) = .ok values := by
  intro i values
  induction values generalizing i with
  | nil =>
    intro _
    rfl
  | cons a rest ih =>
    intro h
    have hrest := ih (i + 1) fun j b hb => h j b (List.mem_cons_of_mem a hb)
    show apply (apply (value List.cons) (inside (toString i) (read i (write a)))) _ = _
    rw [h i a List.mem_cons_self, hrest]
    rfl

theorem elements_map {read : Nat → Json → Reading α} {write : α → Json} {values : List α}
    (h : ∀ i, ∀ a ∈ values, read i (write a) = .ok a) :
    elements read (.array (values.map write)) = .ok values :=
  elementsFrom_map 0 h

theorem member_of_get {entries : Dict δ} {name : String} {x : δ} {a : α}
    {read : δ → Reading α} {default : Option α} (hget : Dict.get entries name = some x)
    (hread : read x = .ok a) : member entries name read default = .ok a := by
  unfold member
  rw [hget]
  show inside name (read x) = _
  rw [hread]
  rfl

end Reading

end Vad
