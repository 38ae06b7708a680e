/-
  One name in a directory, and what processes do to the files that have it.

  A file is not its name: `unlink` takes the name away and leaves the file to whoever has it open,
  and what is written through a descriptor goes into the file that was opened, whatever has the
  name by then.  So a `Slot` keeps every file that ever had the name, and the number of the one
  that has it now.

  1. **Calls** — each is one step: `exists`, `open` for writing or reading, `write`, `read`,
     `unlink`.
  2. **Removals** (`Slot.removed`) — the files whose name is gone; only `unlink` adds to them.
  3. **What a reader may see** (`Remains`) — nothing, or one whole text that was written, with
     what an earlier and longer one left behind it.
-/
import Vad.Lib.Program

namespace OneFile

open Atomic (Program)

/-! ## Files -/

structure Slot (α : Type) where
  /-- What the files contain that were made under the name, in their order. -/
  made : List (List α)
  /-- The file that has the name. -/
  linked : Option Nat
  linked_lt : ∀ i, linked = some i → i < made.length

variable {α ε : Type}

namespace Slot

/-- No file yet. -/
def absent : Slot α := ⟨[], none, fun _ h => by cases h⟩

/-- One file with this content. -/
def holding (text : List α) : Slot α :=
  ⟨[text], some 0, fun i h => by cases h; exact Nat.zero_lt_one⟩

/-- The file that `open(path, "w")` opens: the one there, or a new one. -/
def target (s : Slot α) : Nat := s.linked.getD s.made.length

theorem target_lt_of_linked {s : Slot α} {i : Nat} (h : s.linked = some i) :
    s.target = i ∧ i < s.made.length := ⟨by rw [target, h]; rfl, s.linked_lt i h⟩

/-- The slot when it is opened: the file is empty. -/
def opened (s : Slot α) : Slot α where
  made := if s.linked.isSome then s.made.set s.target [] else s.made ++ [[]]
  linked := some s.target
  linked_lt i h := by
    cases h
    cases hl : s.linked with
    | none => simp [target, hl]
    | some j =>
      have hj := target_lt_of_linked hl
      simp [hj.1, hj.2]

/-- A text is written at the beginning of a file. -/
def written (s : Slot α) (fd : Nat) (text : List α) : Slot α where
  made := s.made.modify fd fun old => text ++ old.drop text.length
  linked := s.linked
  linked_lt i h := by
    rw [List.length_modify]
    exact s.linked_lt i h

/-- The name is taken away. -/
def unlinked (s : Slot α) : Slot α := ⟨s.made, none, fun _ h => by cases h⟩

end Slot

/-! ## Calls -/

/-- `os.path.exists`. -/
def fileExists : Program (Slot α) ε Bool := Program.atomic fun s => (.ok s.linked.isSome, s)

/-- `open(path, "w")`, giving the number of the file. -/
def openWrite : Program (Slot α) ε Nat := Program.atomic fun s => (.ok s.target, s.opened)

/-- What is written when the file is closed. -/
def writeAll (fd : Nat) (text : List α) : Program (Slot α) ε Unit :=
  Program.atomic fun s => (.ok (), s.written fd text)

/-- `path.write_text(text)`. -/
def writeText (text : List α) : Program (Slot α) ε Unit := do
  let fd ← openWrite
  writeAll fd text

/-- `open(path)`. -/
def openRead (missing : ε) : Program (Slot α) ε Nat :=
  Program.atomic fun s => (s.linked.elim (.error missing) .ok, s)

def readAll (fd : Nat) : Program (Slot α) ε (List α) :=
  Program.atomic fun s => (.ok (s.made.getD fd []), s)

/-- `path.read_text()`. -/
def readText (missing : ε) : Program (Slot α) ε (List α) := do
  let fd ← openRead missing
  readAll fd

/-- `path.unlink()`. -/
def unlink (missing : ε) : Program (Slot α) ε Unit :=
  Program.atomic fun s => if s.linked.isSome then (.ok (), s.unlinked) else (.error missing, s)

/-! ## Removals -/

namespace Slot

/-- The number of files whose name is gone. -/
def removed (s : Slot α) : Nat := s.made.length - s.linked.toList.length

theorem linked_le (s : Slot α) : s.linked.toList.length ≤ s.made.length := by
  cases hl : s.linked with
  | none => exact Nat.zero_le _
  | some i => exact Nat.lt_of_le_of_lt (Nat.zero_le i) (s.linked_lt i hl)

/-- Every file made has the name or has lost it. -/
theorem removed_add (s : Slot α) : s.removed + s.linked.toList.length = s.made.length :=
  Nat.sub_add_cancel s.linked_le

theorem length_opened (s : Slot α) :
    s.opened.made.length + s.linked.toList.length = s.made.length + 1 := by
  cases hl : s.linked <;> simp [opened, hl]

@[simp] theorem removed_opened (s : Slot α) : s.opened.removed = s.removed := by
  have hlength := s.length_opened
  have hopened : s.opened.linked.toList.length = 1 := rfl
  have hlinked := s.linked_le
  unfold removed
  omega

@[simp] theorem removed_written (s : Slot α) (fd : Nat) (text : List α) :
    (s.written fd text).removed = s.removed := by
  simp [removed, written]

/-- The one call that removes. -/
theorem removed_unlinked {s : Slot α} (h : s.linked.isSome = true) :
    s.unlinked.removed = s.removed + 1 := by
  have hadd := s.removed_add
  cases hl : s.linked with
  | none => rw [hl] at h; cases h
  | some i =>
    rw [hl] at hadd
    show s.made.length - 0 = _
    rw [← hadd]
    rfl

end Slot

/-! ## What a reader may see -/

/-- Nothing, or a text with something behind it that ends as texts end. -/
def Remains (texts : List (List α)) (closing : α) (content : List α) : Prop :=
  content = [] ∨ ∃ t ∈ texts, ∃ rest, content = t ++ rest ∧
    (rest = [] ∨ rest.getLast? = some closing)

/-- Every file is in such a state. -/
def Slot.Legible (texts : List (List α)) (closing : α) (s : Slot α) : Prop :=
  ∀ content ∈ s.made, Remains texts closing content

section Legible

variable {texts : List (List α)} {closing : α}

theorem Remains.getLast? (hclosing : ∀ t ∈ texts, t.getLast? = some closing) {content : List α}
    (h : Remains texts closing content) : content = [] ∨ content.getLast? = some closing := by
  rcases h with h | ⟨t, ht, rest, rfl, rfl | hrest⟩
  · exact Or.inl h
  · rw [List.append_nil]
    exact Or.inr (hclosing t ht)
  · exact Or.inr (by rw [List.getLast?_append, hrest]; rfl)

/-- A text written over what was there. -/
theorem Remains.overwritten (hclosing : ∀ t ∈ texts, t.getLast? = some closing) {content : List α}
    (h : Remains texts closing content) {text : List α} (htext : text ∈ texts) :
    Remains texts closing (text ++ content.drop text.length) := by
  refine Or.inr ⟨text, htext, _, rfl, ?_⟩
  by_cases hdrop : content.length ≤ text.length
  · exact Or.inl (List.drop_eq_nil_of_le hdrop)
  · right
    rw [List.getLast?_drop, if_neg hdrop]
    rcases h.getLast? hclosing with rfl | hlast
    · exact absurd (Nat.zero_le _) hdrop
    · exact hlast

theorem Slot.Legible.opened {s : Slot α} (h : s.Legible texts closing) :
    s.opened.Legible texts closing := by
  intro content hcontent
  unfold Slot.opened at hcontent
  split at hcontent
  · rcases List.mem_or_eq_of_mem_set hcontent with hcontent | rfl
    · exact h content hcontent
    · exact Or.inl rfl
  · rcases List.mem_append.mp hcontent with hcontent | hcontent
    · exact h content hcontent
    · exact Or.inl (List.mem_singleton.mp hcontent)

theorem Slot.Legible.written (hclosing : ∀ t ∈ texts, t.getLast? = some closing) {s : Slot α}
    (h : s.Legible texts closing) {text : List α} (htext : text ∈ texts) (fd : Nat) :
    (s.written fd text).Legible texts closing := by
  intro content hcontent
  obtain ⟨i, hi⟩ := List.mem_iff_getElem?.mp hcontent
  change (s.made.modify fd fun old => text ++ old.drop text.length)[i]? = some content at hi
  rw [List.getElem?_modify] at hi
  cases hget : s.made[i]? with
  | none => rw [hget] at hi; cases hi
  | some old =>
    have hold := h old (List.mem_of_getElem? hget)
    rw [hget, Option.map_eq_map, Option.map_some] at hi
    cases hi
    split
    · exact hold.overwritten hclosing htext
    · exact hold

theorem Slot.Legible.getD {s : Slot α} (h : s.Legible texts closing) (fd : Nat) :
    Remains texts closing (s.made.getD fd []) := by
  rw [List.getD_eq_getElem?_getD]
  cases hget : s.made[fd]? with
  | none => exact Or.inl rfl
  | some content => exact h content (List.mem_of_getElem? hget)

theorem legible_absent : (Slot.absent : Slot α).Legible texts closing :=
  fun _ h => absurd h List.not_mem_nil

theorem legible_holding {text : List α} (htext : text ∈ texts) :
    (Slot.holding text).Legible texts closing := fun content hcontent => by
  rw [List.mem_singleton.mp hcontent]
  exact Or.inr ⟨text, htext, [], (List.append_nil _).symm, Or.inl rfl⟩

end Legible

end OneFile
