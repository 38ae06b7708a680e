/-
  A tree of files, and the calls that programs change it with.

  A `Place` is a resolved absolute path, so two places are two entries of the tree.  Every call
  either fails and leaves the tree as it was, or makes one change:

  1. `mkdirs` adds directories and nothing else (`mkdirs_files`, `mkdirs_directory`).
  2. `writeBytes`, `copy2` and `unlinkFile` change the file at one place (`writeBytes_ok`,
     `copy2_ok`, `unlinkFile_ok`).

  `fileAt` forgets the directories: what is there to be read.  A `FileTree` is a disk on which every
  entry but the root lies in a directory, which every call keeps, so that nothing has to be made
  above what is there already (`mkdirs_of_present`).
-/
import Mathlib.Data.List.Infix
import Vad.Lib.Files

namespace Files

/-- A resolved absolute path: its components from the root on. -/
abbrev Place : Type := List String

namespace Place

/-- `str(path)`. -/
def text (p : Place) : String := "/" ++ "/".intercalate p

/-- `root / relative`, as the text of a path that is still to be resolved. -/
def joined (root : Place) (relative : String) : String := text (root ++ [relative])

def parent (p : Place) : Place := p.dropLast

theorem parent_above (p : Place) : p.parent <+: p := List.dropLast_prefix p

/-- `path.relative_to(root)` does not raise. -/
def under (root p : Place) : Bool := root.isPrefixOf p

/-- `path.relative_to(root).as_posix()`. -/
def relativeTo (root p : Place) : String :=
  match p.drop root.length with
  | [] => "."
  | parts => "/".intercalate parts

end Place

/-! ## The calls -/

/-- What is read at a place: nothing where there is no file. -/
def Disk.fileAt (d : Disk Place) (p : Place) : Option ByteArray :=
  match d p with
  | some (.file bytes) => some bytes
  | _ => none

/-- `path.mkdir(parents=True, exist_ok=True)`. -/
def Disk.mkdirs (d : Disk Place) (p : Place) : Except FileError (Disk Place) :=
  if p.inits.any (fun q => (d.fileAt q).isSome) then .error .notADirectory
  else .ok fun q => if q ∈ p.inits ∧ d q = none then some .directory else d q

/-- `path.write_bytes(data)`. -/
def Disk.writeBytes (d : Disk Place) (p : Place) (bytes : ByteArray) :
    Except FileError (Disk Place) :=
  if d p = some .directory then .error .isADirectory
  else if d p.parent = some .directory then .ok (d.write p bytes)
  else .error .notFound

/-- Where `shutil.copy2` writes: into the destination when that is a directory. -/
def Disk.copyTarget (d : Disk Place) (source destination : Place) : Place :=
  if d destination = some .directory then destination ++ source.getLast?.toList else destination

/-- `shutil.copy2(source, destination)`. -/
def Disk.copy2 (d : Disk Place) (source destination : Place) : Except FileError (Disk Place) :=
  if d.present source ∧ d.copyTarget source destination = source then .error .sameFile
  else
    match d.readBytes source with
    | .error e => .error e
    | .ok bytes => d.writeBytes (d.copyTarget source destination) bytes

/-- `path.unlink()`. -/
def Disk.unlinkFile (d : Disk Place) (p : Place) : Except FileError (Disk Place) :=
  match d.readBytes p with
  | .error e => .error e
  | .ok _ => .ok (d.unlink p)

/-! ## What a call changes -/

theorem fileAt_eq_some {d : Disk Place} {p : Place} {bytes : ByteArray} :
    d.fileAt p = some bytes ↔ d p = some (.file bytes) := by
  unfold Disk.fileAt
  split <;> simp_all

theorem readBytes_fileAt {d : Disk Place} {p : Place} {bytes : ByteArray} :
    d.readBytes p = .ok bytes ↔ d.fileAt p = some bytes := readBytes_ok.trans fileAt_eq_some.symm

/-- Where something is that is not a directory, there is a file. -/
theorem fileAt_of_present {d : Disk Place} {p : Place} (h : d.present p = true) :
    (∃ bytes, d.fileAt p = some bytes) ∨ d p = some .directory := by
  unfold Disk.present at h
  cases hp : d p with
  | none =>
    rw [hp] at h
    cases h
  | some entry =>
    cases entry with
    | file bytes => exact Or.inl ⟨bytes, fileAt_eq_some.mpr hp⟩
    | directory => exact Or.inr rfl

theorem fileAt_of_absent {d : Disk Place} {p : Place} (h : d.present p = false) :
    d p = none ∧ d.fileAt p = none := by
  unfold Disk.present at h
  cases hp : d p with
  | none =>
    refine ⟨rfl, ?_⟩
    unfold Disk.fileAt
    rw [hp]
  | some entry =>
    rw [hp] at h
    cases h

theorem present_of_fileAt {d : Disk Place} {p : Place} {bytes : ByteArray}
    (h : d.fileAt p = some bytes) : d.present p = true := by
  unfold Disk.present
  rw [fileAt_eq_some.mp h]
  rfl

theorem fileAt_write (d : Disk Place) (p : Place) (bytes : ByteArray) :
    (d.write p bytes).fileAt = Function.update d.fileAt p (some bytes) := by
  funext q
  by_cases h : q = p
  · subst h
    rw [Function.update_self]
    exact fileAt_eq_some.mpr (write_same d q bytes)
  · rw [Function.update_of_ne h]
    unfold Disk.fileAt
    rw [write_other d bytes h]

theorem fileAt_unlink (d : Disk Place) (p : Place) :
    (d.unlink p).fileAt = Function.update d.fileAt p none := by
  funext q
  by_cases h : q = p
  · subst h
    rw [Function.update_self]
    unfold Disk.fileAt
    rw [unlink_same]
  · rw [Function.update_of_ne h]
    unfold Disk.fileAt
    rw [unlink_other d h]

/-- Making directories leaves every file alone, and replaces nothing. -/
theorem mkdirs_ok {d d' : Disk Place} {p : Place} (h : d.mkdirs p = .ok d') (q : Place) :
    d' q = d q ∨ (q <+: p ∧ d q = none ∧ d' q = some .directory) := by
  unfold Disk.mkdirs at h
  split at h
  · cases h
  · have hd : d' = _ := (Except.ok.inj h).symm
    subst hd
    by_cases hq : q ∈ p.inits ∧ d q = none
    · exact Or.inr ⟨(List.mem_inits _ _).mp hq.1, hq.2, if_pos hq⟩
    · exact Or.inl (if_neg hq)

theorem mkdirs_files {d d' : Disk Place} {p : Place} (h : d.mkdirs p = .ok d') :
    d'.fileAt = d.fileAt := by
  funext q
  unfold Disk.fileAt
  rcases mkdirs_ok h q with heq | ⟨-, hnone, hdir⟩
  · rw [heq]
  · rw [hnone, hdir]

theorem writeBytes_ok {d d' : Disk Place} {p : Place} {bytes : ByteArray}
    (h : d.writeBytes p bytes = .ok d') : d p ≠ some .directory ∧ d' = d.write p bytes := by
  unfold Disk.writeBytes at h
  split at h
  · cases h
  · rename_i hdir
    split at h
    · exact ⟨hdir, (Except.ok.inj h).symm⟩
    · cases h

/-- A copy reads one file and writes one other. -/
theorem copy2_writes {d d' : Disk Place} {source destination : Place}
    (h : d.copy2 source destination = .ok d') : ∃ bytes, (d.fileAt source = some bytes ∧
      d.copyTarget source destination ≠ source) ∧
      d.writeBytes (d.copyTarget source destination) bytes = .ok d' := by
  unfold Disk.copy2 at h
  split at h
  · cases h
  · rename_i hsame
    split at h
    · cases h
    · rename_i bytes hread
      have hfile := readBytes_fileAt.mp hread
      exact ⟨bytes, ⟨hfile, fun heq => hsame ⟨present_of_fileAt hfile, heq⟩⟩, h⟩

theorem unlinkFile_ok {d d' : Disk Place} {p : Place} (h : d.unlinkFile p = .ok d') :
    (∃ bytes, d.fileAt p = some bytes) ∧ d' = d.unlink p := by
  unfold Disk.unlinkFile at h
  split at h
  · cases h
  · rename_i bytes hread
    exact ⟨⟨bytes, readBytes_fileAt.mp hread⟩, (Except.ok.inj h).symm⟩

/-- Where there is no directory, a copy writes the destination itself. -/
theorem copyTarget_of_not_directory {d : Disk Place} {source destination : Place}
    (h : d destination ≠ some .directory) : d.copyTarget source destination = destination :=
  if_neg h

/-! ## Trees -/

/-- The root is a directory, and every entry lies in one. -/
structure Grounded (d : Disk Place) : Prop where
  root : d [] = some .directory
  parent : ∀ p, d p ≠ none → d p.parent = some .directory

/-- Above an entry there are directories only. -/
theorem Grounded.above {d : Disk Place} (h : Grounded d) {p : Place} (hp : d p ≠ none) :
    ∀ q, q <+: p.parent → d q = some .directory := by
  induction p using List.reverseRecOn with
  | nil =>
    intro q hq
    rw [List.prefix_nil.mp hq]
    exact h.root
  | append_singleton p x ih =>
    intro q hq
    have hparent := h.parent (p ++ [x]) hp
    rw [Place.parent, List.dropLast_concat] at hq hparent
    by_cases hqp : q = p
    · rw [hqp, hparent]
    · refine ih (by rw [hparent]; simp) q ?_
      -- a proper ancestor of `p` is one of its parent
      have hne : p ≠ [] := fun hnil => hqp ((List.prefix_nil.mp (hnil ▸ hq)).trans hnil.symm)
      obtain ⟨rest, rfl⟩ := hq
      have hrest : rest ≠ [] := fun hnil => hqp (by rw [hnil, List.append_nil])
      rw [Place.parent, List.dropLast_append_of_ne_nil hrest]
      exact List.prefix_append _ _

theorem grounded_write {d : Disk Place} (h : Grounded d) {p : Place} {bytes : ByteArray}
    (hp : d p ≠ some .directory) (hparent : d p.parent = some .directory) :
    Grounded (d.write p bytes) := by
  have hkeep : ∀ q, d q = some .directory → d.write p bytes q = some .directory := by
    intro q hq
    have hqp : q ≠ p := fun heq => hp (heq ▸ hq)
    rw [write_other d bytes hqp, hq]
  refine ⟨hkeep _ h.root, fun q hq => hkeep _ ?_⟩
  by_cases hqp : q = p
  · rw [hqp, hparent]
  · rw [write_other d bytes hqp] at hq
    exact h.parent q hq

theorem grounded_unlink {d : Disk Place} (h : Grounded d) {p : Place} {bytes : ByteArray}
    (hp : d.fileAt p = some bytes) : Grounded (d.unlink p) := by
  have hkeep : ∀ q, d q = some .directory → d.unlink p q = some .directory := by
    intro q hq
    have hqp : q ≠ p := by
      intro heq
      rw [heq, fileAt_eq_some.mp hp] at hq
      cases hq
    rw [unlink_other d hqp, hq]
  refine ⟨hkeep _ h.root, fun q hq => hkeep _ (h.parent q ?_)⟩
  have hqp : q ≠ p := by
    intro heq
    rw [heq, unlink_same] at hq
    exact hq rfl
  rwa [unlink_other d hqp] at hq

theorem grounded_mkdirs {d d' : Disk Place} (h : Grounded d) {p : Place}
    (hd : d.mkdirs p = .ok d') : Grounded d' := by
  unfold Disk.mkdirs at hd
  split at hd
  · cases hd
  · rename_i hfiles
    have hd' : d' = _ := (Except.ok.inj hd).symm
    subst hd'
    have hkeep : ∀ q, d q = some .directory →
        (if q ∈ p.inits ∧ d q = none then some .directory else d q) = some Entry.directory := by
      intro q hq
      rw [if_neg (by rw [hq]; simp), hq]
    refine ⟨hkeep _ h.root, fun q hq => ?_⟩
    by_cases hold : d q = none
    · -- a directory that was made: its parent was made or was one already
      by_cases hmade : q ∈ p.inits
      · have habove : q.parent ∈ p.inits :=
          (List.mem_inits _ _).mpr (q.parent_above.trans ((List.mem_inits _ _).mp hmade))
        show (if q.parent ∈ p.inits ∧ d q.parent = none then _ else d q.parent) = _
        cases hparent : d q.parent with
        | none => exact if_pos ⟨habove, rfl⟩
        | some entry =>
          cases entry with
          | directory => exact if_neg (by simp)
          | file bytes =>
            refine absurd (List.any_eq_true.mpr ⟨_, habove, ?_⟩) hfiles
            rw [fileAt_eq_some.mpr hparent]
            rfl
      · exact absurd (by simp [hmade, hold]) hq
    · exact hkeep _ (h.parent q hold)

structure FileTree where
  disk : Disk Place
  grounded : Grounded disk

theorem FileTree.ext {t t' : FileTree} (h : t.disk = t'.disk) : t = t' := by
  cases t
  cases t'
  cases h
  rfl

namespace FileTree

/-- A call on the disk that keeps it a tree. -/
def lift (t : FileTree) (call : Disk Place → Except FileError (Disk Place))
    (h : ∀ d', call t.disk = .ok d' → Grounded d') : Except FileError FileTree :=
  match hcall : call t.disk with
  | .ok d' => .ok ⟨d', h d' hcall⟩
  | .error e => .error e

theorem lift_ok {t t' : FileTree} {call : Disk Place → Except FileError (Disk Place)}
    {h : ∀ d', call t.disk = .ok d' → Grounded d'} :
    t.lift call h = .ok t' ↔ call t.disk = .ok t'.disk := by
  unfold lift
  split
  · rename_i d' hcall
    constructor
    · intro heq
      rw [← Except.ok.inj heq]
      exact hcall
    · intro heq
      exact congrArg Except.ok (ext (Except.ok.inj (hcall.symm.trans heq)))
  · rename_i e hcall
    exact ⟨fun heq => (by cases heq), fun heq => (by cases hcall.symm.trans heq)⟩

def fileAt (t : FileTree) (p : Place) : Option ByteArray := t.disk.fileAt p

theorem grounded_writeBytes {d d' : Disk Place} (hd : Grounded d) {p : Place} {bytes : ByteArray}
    (h : d.writeBytes p bytes = .ok d') : Grounded d' := by
  unfold Disk.writeBytes at h
  split at h
  · cases h
  · rename_i hp
    split at h
    · rename_i hparent
      rw [← Except.ok.inj h]
      exact grounded_write hd hp hparent
    · cases h

def mkdirs (t : FileTree) (p : Place) : Except FileError FileTree :=
  t.lift (·.mkdirs p) fun _ h => grounded_mkdirs t.grounded h

def writeBytes (t : FileTree) (p : Place) (bytes : ByteArray) : Except FileError FileTree :=
  t.lift (·.writeBytes p bytes) fun _ h => grounded_writeBytes t.grounded h

def copy2 (t : FileTree) (source destination : Place) : Except FileError FileTree :=
  t.lift (·.copy2 source destination) fun d' h => by
    obtain ⟨bytes, -, hwrite⟩ := copy2_writes h
    exact grounded_writeBytes t.grounded hwrite

def unlinkFile (t : FileTree) (p : Place) : Except FileError FileTree :=
  t.lift (·.unlinkFile p) fun d' h => by
    obtain ⟨⟨bytes, hfile⟩, rfl⟩ := unlinkFile_ok h
    exact grounded_unlink t.grounded hfile

/-- Above what is there, nothing has to be made. -/
theorem mkdirs_of_present {t : FileTree} {p : Place} (hp : t.disk p ≠ none) :
    t.mkdirs p.parent = .ok t := by
  have habove := t.grounded.above hp
  have hnofile : ¬ p.parent.inits.any (fun q => (t.disk.fileAt q).isSome) = true := by
    intro hany
    obtain ⟨q, hq, hfile⟩ := List.any_eq_true.mp hany
    unfold Disk.fileAt at hfile
    rw [habove q ((List.mem_inits _ _).mp hq)] at hfile
    cases hfile
  refine lift_ok.mpr ?_
  show t.disk.mkdirs p.parent = .ok t.disk
  unfold Disk.mkdirs
  rw [if_neg hnofile]
  congr 1
  funext q
  refine if_neg ?_
  rintro ⟨hq, hnone⟩
  rw [habove q ((List.mem_inits _ _).mp hq)] at hnone
  cases hnone

/-- The two trees hold the same files. -/
def SameFiles (t t' : FileTree) : Prop := t'.fileAt = t.fileAt

/-- Making directories changes no file, and above an entry it only makes directories. -/
theorem mkdirs_parent {t t' : FileTree} {p : Place} (h : t.mkdirs p.parent = .ok t') :
    SameFiles t t' ∧ t'.disk p = t.disk p := by
  have hd : t.disk.mkdirs p.parent = .ok t'.disk := lift_ok.mp h
  refine ⟨mkdirs_files hd, ?_⟩
  rcases mkdirs_ok hd p with heq | ⟨habove, hnone, -⟩
  · exact heq
  · -- only the root is its own parent, and the root is there
    have hlen := habove.length_le
    rw [Place.parent, List.length_dropLast] at hlen
    have hnil : p = [] := List.eq_nil_of_length_eq_zero (by omega)
    rw [hnil, t.grounded.root] at hnone
    cases hnone

/-- What a write leaves. -/
theorem writeBytes_fileAt {t t' : FileTree} {p : Place} {bytes : ByteArray}
    (h : t.writeBytes p bytes = .ok t') : t'.fileAt = Function.update t.fileAt p (some bytes) := by
  have hd := (writeBytes_ok (lift_ok.mp h)).2
  show t'.disk.fileAt = _
  rw [hd]
  exact fileAt_write t.disk p bytes

/-- What a copy leaves. -/
theorem copy2_fileAt {t t' : FileTree} {source destination : Place}
    (h : t.copy2 source destination = .ok t') : ∃ bytes, t.fileAt source = some bytes ∧
      t.disk.copyTarget source destination ≠ source ∧
      t'.fileAt = Function.update t.fileAt (t.disk.copyTarget source destination) (some bytes) := by
  obtain ⟨bytes, ⟨hfile, hne⟩, hwrite⟩ := copy2_writes (lift_ok.mp h)
  refine ⟨bytes, hfile, hne, ?_⟩
  show t'.disk.fileAt = _
  rw [(writeBytes_ok hwrite).2]
  exact fileAt_write t.disk _ bytes

/-- What a removal leaves. -/
theorem unlinkFile_fileAt {t t' : FileTree} {p : Place} (h : t.unlinkFile p = .ok t') :
    t'.fileAt = Function.update t.fileAt p none := by
  show t'.disk.fileAt = _
  rw [(unlinkFile_ok (lift_ok.mp h)).2]
  exact fileAt_unlink t.disk p

end FileTree

end Files
