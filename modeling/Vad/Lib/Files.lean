/-
  Files, as far as programs see them that read and write under a root.

  `Paths` is what the operating system makes of the text of a path: the place it leads to, links
  followed, and whether that place is under the root.  It is arbitrary, so that two texts may lead
  to one place (through `.` and `..`, a link, a second hard link), and it does not change while only
  files are written.  A `Disk` says what is at each place.

  A list of writes is undone by writing back what was there before (`writeAll_restore`), in any
  order and however often a place occurs, as long as everything was read before the first write.
-/
import Mathlib.Logic.Function.Basic
import Vad.Lib.Text

namespace Files

open PyText (Text)

/-! ## Places and what is there -/

/-- What the texts of paths under one root lead to. -/
structure Paths (Loc : Type) where
  resolve : String → Loc
  inside : String → Bool

inductive Entry where
  | file (bytes : ByteArray)
  | directory
deriving DecidableEq

/-- What is at each place: `none` where nothing is. -/
abbrev Disk (Loc : Type) : Type := Loc → Option Entry

inductive FileError where
  | notFound
  | isADirectory
  | notUtf8
  /-- `relative_to` of a place that is not under the root. -/
  | notRelative
  /-- A component of a path is a file. -/
  | notADirectory
  /-- `shutil.copy2` of a file onto itself. -/
  | sameFile
deriving DecidableEq, Repr

/-! ## Text files -/

/-- `t.encode("utf-8")`. -/
def encode (t : Text) : ByteArray := (String.ofList t).toUTF8

/-- `b.decode("utf-8")`. -/
def decode (b : ByteArray) : Option Text := (String.fromUTF8? b).map String.toList

theorem decode_encode (t : Text) : decode (encode t) = some t := by
  have hvalid : (String.ofList t).toUTF8.IsValidUTF8 := (String.ofList t).isValidUTF8
  unfold decode encode String.fromUTF8?
  rw [dif_pos hvalid]
  exact congrArg some (String.toList_ofList)

theorem encode_injective : Function.Injective encode := by
  intro t u h
  have hdec := congrArg decode h
  rw [decode_encode, decode_encode] at hdec
  exact Option.some.inj hdec

variable {Loc : Type}

/-- `path.read_bytes()`. -/
def Disk.readBytes (d : Disk Loc) (loc : Loc) : Except FileError ByteArray :=
  match d loc with
  | some (.file bytes) => .ok bytes
  | some .directory => .error .isADirectory
  | none => .error .notFound

/-- `path.read_text(encoding="utf-8")`. -/
def Disk.readText (d : Disk Loc) (loc : Loc) : Except FileError Text :=
  match d.readBytes loc with
  | .error e => .error e
  | .ok bytes =>
    match decode bytes with
    | some t => .ok (PyText.universalNewlines t)
    | none => .error .notUtf8

/-- `path.exists()`. -/
def Disk.present (d : Disk Loc) (loc : Loc) : Bool := (d loc).isSome

theorem readBytes_ok {d : Disk Loc} {loc : Loc} {bytes : ByteArray} :
    d.readBytes loc = .ok bytes ↔ d loc = some (.file bytes) := by
  unfold Disk.readBytes
  split <;> simp_all

theorem readText_ok {d : Disk Loc} {loc : Loc} {t : Text} :
    d.readText loc = .ok t ↔ ∃ bytes u, d loc = some (.file bytes) ∧ decode bytes = some u ∧
      t = PyText.universalNewlines u := by
  unfold Disk.readText
  constructor
  · intro h
    split at h
    · cases h
    · rename_i bytes hbytes
      split at h
      · rename_i u hu
        exact ⟨bytes, u, readBytes_ok.mp hbytes, hu, (Except.ok.inj h).symm⟩
      · cases h
  · rintro ⟨bytes, u, hfile, hu, rfl⟩
    rw [readBytes_ok.mpr hfile]
    simp only [hu]

/-- A text file is read with its line ends translated. -/
theorem readText_encode {d : Disk Loc} {loc : Loc} {t : Text} (h : d loc = some (.file (encode t))) :
    d.readText loc = .ok (PyText.universalNewlines t) :=
  readText_ok.mpr ⟨_, t, h, decode_encode t, rfl⟩

/-! ## Writing -/

variable [DecidableEq Loc]

/-- `path.write_bytes(bytes)`. -/
def Disk.write (d : Disk Loc) (loc : Loc) (bytes : ByteArray) : Disk Loc :=
  Function.update d loc (some (.file bytes))

/-- `path.unlink()`. -/
def Disk.unlink (d : Disk Loc) (loc : Loc) : Disk Loc := Function.update d loc none

/-- Writes, one after another. -/
def Disk.writeAll (d : Disk Loc) : List (Loc × ByteArray) → Disk Loc
  | [] => d
  | w :: rest => (d.write w.1 w.2).writeAll rest

@[simp] theorem write_same (d : Disk Loc) (loc : Loc) (bytes : ByteArray) :
    d.write loc bytes loc = some (.file bytes) := Function.update_self ..

@[simp] theorem write_other (d : Disk Loc) {loc other : Loc} (bytes : ByteArray)
    (h : other ≠ loc) : d.write loc bytes other = d other := Function.update_of_ne h ..

@[simp] theorem unlink_same (d : Disk Loc) (loc : Loc) : d.unlink loc loc = none :=
  Function.update_self ..

@[simp] theorem unlink_other (d : Disk Loc) {loc other : Loc} (h : other ≠ loc) :
    d.unlink loc other = d other := Function.update_of_ne h ..

/-- A place that no write names stays as it was. -/
theorem writeAll_other {ws : List (Loc × ByteArray)} {d : Disk Loc} {loc : Loc}
    (h : ∀ w ∈ ws, w.1 ≠ loc) : d.writeAll ws loc = d loc := by
  induction ws generalizing d with
  | nil => rfl
  | cons w rest ih =>
    show (d.write w.1 w.2).writeAll rest loc = d loc
    rw [ih fun x hx => h x (List.mem_cons_of_mem w hx)]
    exact write_other d w.2 (Ne.symm (h w (List.mem_cons_self ..)))

/-- A place that some write names holds what one of the writes gave it. -/
theorem writeAll_mem {ws : List (Loc × ByteArray)} {d : Disk Loc} {loc : Loc}
    (h : ∃ w ∈ ws, w.1 = loc) :
    ∃ w ∈ ws, w.1 = loc ∧ d.writeAll ws loc = some (.file w.2) := by
  induction ws generalizing d with
  | nil =>
    obtain ⟨w, hw, -⟩ := h
    exact absurd hw List.not_mem_nil
  | cons w rest ih =>
    by_cases hrest : ∃ x ∈ rest, x.1 = loc
    · obtain ⟨x, hx, hloc, hval⟩ := ih (d := d.write w.1 w.2) hrest
      exact ⟨x, List.mem_cons_of_mem w hx, hloc, hval⟩
    · -- no later write: the first one counts
      have hlast : ∀ x ∈ rest, x.1 ≠ loc := fun x hx heq => hrest ⟨x, hx, heq⟩
      obtain ⟨x, hx, hloc⟩ := h
      rcases List.mem_cons.mp hx with rfl | hx
      · refine ⟨x, List.mem_cons_self .., hloc, ?_⟩
        show (d.write x.1 x.2).writeAll rest loc = _
        rw [writeAll_other hlast, ← hloc, write_same]
      · exact absurd hloc (hlast x hx)

/-- Writing back what was there, everywhere where something was changed, undoes the changes. -/
theorem writeAll_restore {snapshots : List (Loc × ByteArray)} {d d' : Disk Loc}
    (hold : ∀ s ∈ snapshots, d s.1 = some (.file s.2))
    (hchanged : ∀ loc, (∀ s ∈ snapshots, s.1 ≠ loc) → d' loc = d loc) :
    d'.writeAll snapshots = d := by
  funext loc
  by_cases h : ∃ s ∈ snapshots, s.1 = loc
  · obtain ⟨s, hs, hloc, hval⟩ := writeAll_mem (d := d') h
    rw [hval, ← hloc, hold s hs]
  · have hno : ∀ s ∈ snapshots, s.1 ≠ loc := fun s hs heq => h ⟨s, hs, heq⟩
    rw [writeAll_other hno, hchanged loc hno]

end Files
