/-
  The file-system guard (`vad/guards/filesystem.py`) and the sandbox around it
  (`vad/repo/workspace.py`).

  The guard resolves the path below its root and compares the result with the root, part by part.
  What exists is resolved as a whole.  Of what does not exist, only the parent is resolved, and the
  last name is put behind it as it stands: so the result can end in a link, or in `..`, and can
  even have a link inside, where `..` has cancelled a name that leads in a circle.

  1. **The property** — `Confined`: whatever opening an allowed path reaches lies inside the root.
  2. **The condition** — `Harmless`: the call is refused, or the path exists, or the resolved path
     is not the root's own `..`, and no link in it leads outside.
  3. **The result** — `confined_iff`, and three ways out (`dangling_link_escapes`).
-/
import Vad.Lib.Links

namespace Vad

open Files (Place)
open Links (Tree PathError opens opensThrough resolve walk MeetsLink PlainNames)

/-! ## The guard -/

structure FilesystemDecision where
  allowed : Bool
  path : Option (List String) := none
  reason : String
deriving DecidableEq, Repr

structure FilesystemGuard where
  root : Place
  writable : Bool := false
deriving DecidableEq, Repr

/-- The parts of a `Path`: neither empty ones nor `.` are kept, `..` is. -/
def partsOfPath (path : String) : List String :=
  (Links.slashParts path).filter fun name => name ≠ "" && name ≠ "."

/-- `Path.is_absolute`. -/
def isAbsolutePath (path : String) : Bool := path.startsWith "/"

/-- `_resolve_for_access`. -/
def resolveForAccess (t : Tree) (maxLinks : Nat) (path : List String) :
    Except PathError (List String) :=
  if Links.exists_ t maxLinks path then resolve t maxLinks [] path
  else
    match resolve t maxLinks [] path.dropLast with
    | .error e => .error e
    | .ok parent => .ok (parent ++ path.getLast?.toList)

/-- `_is_relative_to`. -/
def isRelativeTo (path root : List String) : Bool := root.isPrefixOf path

namespace FilesystemGuard

/-- `FilesystemGuard.__init__`, in the working directory `cwd`. -/
def init (t : Tree) (maxLinks : Nat) (cwd : Place) (root : String) (writable : Bool) :
    Except PathError FilesystemGuard :=
  match resolve t maxLinks (if isAbsolutePath root then [] else cwd) (partsOfPath root) with
  | .error e => .error e
  | .ok place => .ok { root := place, writable := writable }

variable (g : FilesystemGuard) (t : Tree) (maxLinks : Nat)

/-- `FilesystemGuard._resolve`. -/
def resolvePath (relative : String) (write : Bool) : Except PathError FilesystemDecision :=
  if write && !g.writable then
    .ok { allowed := false, reason := "workspace is read-only" }
  else if isAbsolutePath relative then
    .ok { allowed := false, reason := "absolute paths are not allowed" }
  else
    match resolveForAccess t maxLinks (g.root ++ partsOfPath relative) with
    | .error e => .error e
    | .ok resolved =>
      if isRelativeTo resolved g.root then
        .ok { allowed := true, path := some resolved, reason := "path allowed" }
      else .ok { allowed := false, reason := "path escapes workspace root" }

/-- `FilesystemGuard.resolve_read`. -/
def resolveRead (relative : String) : Except PathError FilesystemDecision :=
  g.resolvePath t maxLinks relative false

/-- `FilesystemGuard.resolve_write`. -/
def resolveWrite (relative : String) : Except PathError FilesystemDecision :=
  g.resolvePath t maxLinks relative true

end FilesystemGuard

/-- `WorkspaceSandbox`, which makes a guard for every call. -/
structure WorkspaceSandbox where
  root : Place
  writable : Bool := false

/-- `WorkspaceSandbox.resolve_read` and `resolve_write`: the root is resolved once more. -/
def WorkspaceSandbox.resolvePath (b : WorkspaceSandbox) (t : Tree) (maxLinks : Nat)
    (relative : String) (write : Bool) : Except PathError FilesystemDecision :=
  match resolve t maxLinks [] b.root with
  | .error e => .error e
  | .ok root => FilesystemGuard.resolvePath ⟨root, b.writable⟩ t maxLinks relative write

/-! ## The property -/

/-- The calls of the guard with this path: whatever opening an allowed path reaches is inside. -/
def Confined (t : Tree) (maxLinks : Nat) (g : FilesystemGuard) (relative : String)
    (write : Bool) : Prop :=
  ∀ d path place, g.resolvePath t maxLinks relative write = .ok d → d.allowed = true →
    d.path = some path → opens t maxLinks path = some place → g.root <+: place

/-- A path that stays inside the root when it is opened: it is not the root's own `..`, and no link
    in it leads outside. -/
structure StaysInside (t : Tree) (maxLinks : Nat) (root : Place) (path : List String) : Prop where
  above : path = root ++ [".."] → root = []
  links : ∀ p name rest target, path = p ++ name :: rest →
    t.entryAt (p ++ [name]) = some (.link target) →
      ∀ place, opensThrough t maxLinks p target rest = some place → root <+: place

/-- The guard refuses, or the path exists, or what it resolves to stays inside. -/
def Harmless (t : Tree) (maxLinks : Nat) (g : FilesystemGuard) (relative : String)
    (write : Bool) : Prop :=
  (write = true ∧ g.writable = false) ∨ isAbsolutePath relative = true ∨
    Links.exists_ t maxLinks (g.root ++ partsOfPath relative) = true ∨
      ∀ parent, resolve t maxLinks [] (g.root ++ partsOfPath relative).dropLast = .ok parent →
        ∀ name, (partsOfPath relative).getLast? = some name →
          g.root <+: parent ++ [name] → StaysInside t maxLinks g.root (parent ++ [name])

/-! ## The result -/

section Result

variable {t : Tree} {maxLinks : Nat}

theorem opens_root_above {root : Place} (hroot : t.entryAt root = some .directory) :
    opens t maxLinks (root ++ [".."]) = some root.dropLast := by
  obtain ⟨follow, hwalk, -⟩ := Links.walk_eq t maxLinks
  have hpass := @Links.walkWith_through _ [] follow root [".."] hroot
  unfold opens
  rw [hwalk, hpass, List.nil_append, Links.walkWith, if_pos hroot, if_neg (by decide), if_pos rfl]
  rfl

/-- A path below a resolved one is opened inside the root exactly when it stays inside. -/
theorem opens_inside_iff {root parent : Place} {name : String}
    (hroot : t.entryAt root = some .directory) (hparent : PlainNames parent)
    (hname : name ≠ "" ∧ name ≠ ".") (hbelow : root <+: parent ++ [name]) :
    (∀ place, opens t maxLinks (parent ++ [name]) = some place → root <+: place) ↔
      StaysInside t maxLinks root (parent ++ [name]) := by
  constructor
  · intro h
    refine ⟨fun habove => ?_, fun p link rest target hpath he place hplace => ?_⟩
    · rw [habove] at h
      have hprefix := (h _ (opens_root_above hroot)).length_le
      rw [List.length_dropLast] at hprefix
      exact List.length_eq_zero_iff.mp (by omega)
    · refine h place ?_
      rw [hpath, Links.opens_link rest he]
      exact hplace
  · intro h place hplace
    by_cases hmeets : MeetsLink t (parent ++ [name])
    · obtain ⟨p, link, rest, target, hpath, he⟩ := hmeets
      rw [hpath, Links.opens_link rest he] at hplace
      exact h.links p link rest target hpath he place hplace
    by_cases hdots : name = ".."
    · subst hdots
      rw [Links.opens_above hparent hmeets hplace]
      -- the root has no name `..`, so it lies above the parent
      have hroots : root <+: parent := by
        rcases List.prefix_concat_iff.mp hbelow with heq | hprefix
        · have hgood := Links.goodName_of_mem hroot ".." (by rw [heq]; simp)
          exact absurd rfl (Links.ne_of_goodName hgood).2.2
        · exact hprefix
      by_cases hsame : parent = root
      · rw [h.above (by rw [hsame])]
        exact List.nil_prefix
      · rcases List.eq_nil_or_concat parent with rfl | ⟨init, last, rfl⟩
        · exact absurd (List.prefix_nil.mp hroots).symm hsame
        · rw [List.concat_eq_append] at hroots hsame ⊢
          rw [List.dropLast_concat]
          exact (List.prefix_concat_iff.mp hroots).resolve_left fun heq => hsame heq.symm
    · have hplain : PlainNames (parent ++ [name]) := by
        intro x hx
        rcases List.mem_append.mp hx with hx | hx
        · exact hparent x hx
        · rw [List.mem_singleton.mp hx]
          exact ⟨hname.1, hname.2, hdots⟩
      rw [Links.opens_plain hplain hmeets hplace]
      exact hbelow

/-- What exists is resolved to where it is, and opened there. -/
theorem resolveForAccess_exists {path resolved : List String}
    (h : Links.exists_ t maxLinks path = true)
    (hresolved : resolveForAccess t maxLinks path = .ok resolved) :
    opens t maxLinks resolved = some resolved := by
  unfold resolveForAccess at hresolved
  rw [if_pos h] at hresolved
  unfold Links.exists_ at h
  split at h
  · rename_i q hwalk
    obtain ⟨hplace, hopens⟩ := Links.resolve_of_walk hwalk
    cases hplace.symm.trans hresolved
    exact hopens
  · cases h

/-- A call that is not refused outright allows the resolved path when that lies below the root. -/
theorem allowed_iff {g : FilesystemGuard} {relative : String} {write : Bool}
    (hwrite : ¬ (write = true ∧ g.writable = false)) (habsolute : ¬ isAbsolutePath relative = true)
    (path : List String) :
    (∃ d, g.resolvePath t maxLinks relative write = .ok d ∧ d.allowed = true ∧
      d.path = some path) ↔
        resolveForAccess t maxLinks (g.root ++ partsOfPath relative) = .ok path ∧ g.root <+: path := by
  have hwritable : ¬ (write && !g.writable) = true := by
    simpa using hwrite
  unfold FilesystemGuard.resolvePath
  rw [if_neg hwritable, if_neg habsolute]
  cases resolveForAccess t maxLinks (g.root ++ partsOfPath relative) with
  | error e => exact ⟨fun ⟨d, hd, _⟩ => (nomatch hd), fun h => (nomatch h.1)⟩
  | ok resolved =>
    dsimp only
    by_cases hinside : isRelativeTo resolved g.root = true
    · rw [if_pos hinside]
      constructor
      · rintro ⟨d, hd, -, hpath⟩
        cases hd
        cases hpath
        exact ⟨rfl, List.isPrefixOf_iff_prefix.mp hinside⟩
      · rintro ⟨hpath, -⟩
        cases hpath
        exact ⟨_, rfl, rfl, rfl⟩
    · rw [if_neg hinside]
      constructor
      · rintro ⟨d, hd, hallowed, -⟩
        cases hd
        cases hallowed
      · rintro ⟨hpath, hprefix⟩
        cases hpath
        exact absurd (List.isPrefixOf_iff_prefix.mpr hprefix) hinside

theorem confined_of_refused {g : FilesystemGuard} {relative : String} {write : Bool}
    (h : (write = true ∧ g.writable = false) ∨ isAbsolutePath relative = true) :
    Confined t maxLinks g relative write := by
  intro d path place hd hallowed
  have hrefused : d.allowed = false := by
    unfold FilesystemGuard.resolvePath at hd
    split at hd
    · cases hd
      rfl
    · rename_i hwritable
      rcases h with ⟨rfl, hreadOnly⟩ | habsolute
      · rw [hreadOnly] at hwritable
        exact absurd rfl hwritable
      · rw [if_pos habsolute] at hd
        cases hd
        rfl
  rw [hrefused] at hallowed
  cases hallowed

/-- Of a path that does not exist, the parent is resolved and the last name kept. -/
theorem resolveForAccess_missing {path resolved : List String} {name : String}
    (h : ¬ Links.exists_ t maxLinks path = true) (hname : path.getLast? = some name) :
    resolveForAccess t maxLinks path = .ok resolved ↔
      ∃ parent, resolve t maxLinks [] path.dropLast = .ok parent ∧
        resolved = parent ++ [name] := by
  unfold resolveForAccess
  rw [if_neg h, hname]
  cases resolve t maxLinks [] path.dropLast with
  | error e => exact ⟨fun h => (nomatch h), fun ⟨_, h, _⟩ => (nomatch h)⟩
  | ok parent =>
    constructor
    · intro h
      cases h
      exact ⟨parent, rfl, rfl⟩
    · rintro ⟨parent', hparent, rfl⟩
      cases hparent
      rfl

/-- A path below a directory that does not exist has a last name. -/
theorem lastName_of_missing {root : Place} (hroot : t.entryAt root = some .directory)
    {relative : String} (h : ¬ Links.exists_ t maxLinks (root ++ partsOfPath relative) = true) :
    ∃ name, (partsOfPath relative).getLast? = some name ∧
      (root ++ partsOfPath relative).getLast? = some name ∧ name ≠ "" ∧ name ≠ "." := by
  rcases List.eq_nil_or_concat (partsOfPath relative) with hnil | ⟨names, name, hnames⟩
  · refine absurd ?_ h
    rw [hnil, List.append_nil]
    unfold Links.exists_
    rw [Links.walk_place hroot fun _ h => (nomatch h)]
  · rw [List.concat_eq_append] at hnames
    have hkept : name ≠ "" ∧ name ≠ "." := by
      have hmem : name ∈ partsOfPath relative := by
        rw [hnames]
        exact List.mem_append_right _ (List.mem_singleton_self name)
      simpa using (List.mem_filter.mp hmem).2
    refine ⟨name, ?_, ?_, hkept⟩
    · rw [hnames, List.getLast?_concat]
    · rw [hnames, ← List.append_assoc, List.getLast?_concat]

/-- For every tree, every directory of it as the root, and every path: the guard confines the path
    exactly when the path is harmless. -/
theorem confined_iff {g : FilesystemGuard} (hroot : t.entryAt g.root = some .directory)
    (relative : String) (write : Bool) :
    Confined t maxLinks g relative write ↔ Harmless t maxLinks g relative write := by
  by_cases hwrite : write = true ∧ g.writable = false
  · exact ⟨fun _ => Or.inl hwrite, fun _ => confined_of_refused (Or.inl hwrite)⟩
  by_cases habsolute : isAbsolutePath relative = true
  · exact ⟨fun _ => Or.inr (Or.inl habsolute), fun _ => confined_of_refused (Or.inr habsolute)⟩
  have hallows := @allowed_iff t maxLinks _ _ _ hwrite habsolute
  by_cases hexists : Links.exists_ t maxLinks (g.root ++ partsOfPath relative) = true
  · refine ⟨fun _ => Or.inr (Or.inr (Or.inl hexists)), ?_⟩
    intro _ d path place hd hallowed hpath hplace
    obtain ⟨hresolved, hprefix⟩ := (hallows path).mp ⟨d, hd, hallowed, hpath⟩
    rw [resolveForAccess_exists hexists hresolved] at hplace
    cases hplace
    exact hprefix
  obtain ⟨name, hlast, hname, hplain⟩ := lastName_of_missing hroot hexists
  constructor
  · refine fun h => Or.inr (Or.inr (Or.inr fun parent hparent name' hname' hbelow => ?_))
    cases hlast.symm.trans hname'
    refine (opens_inside_iff hroot (Links.plainNames_resolve hparent) hplain hbelow).mp
      fun place hplace => ?_
    have hresolved := (resolveForAccess_missing hexists hname).mpr ⟨parent, hparent, rfl⟩
    obtain ⟨d, hd, hallowed, hpath⟩ := (hallows _).mpr ⟨hresolved, hbelow⟩
    exact h d _ place hd hallowed hpath hplace
  · rintro (h | h | h | h) d path place hd hallowed hpath hplace
    · exact absurd h hwrite
    · exact absurd h habsolute
    · exact absurd h hexists
    · obtain ⟨hresolved, hprefix⟩ := (hallows path).mp ⟨d, hd, hallowed, hpath⟩
      obtain ⟨parent, hparent, rfl⟩ := (resolveForAccess_missing hexists hname).mp hresolved
      exact (opens_inside_iff hroot (Links.plainNames_resolve hparent) hplain hprefix).mpr
        (h parent hparent name hlast hprefix) place hplace

end Result

/-! ## Roots -/

/-- A guard made for a path that leads to a directory has that directory as its root. -/
theorem FilesystemGuard.init_root {t : Tree} {maxLinks : Nat} {cwd q : Place} {root : String}
    (habsolute : isAbsolutePath root = true) (writable : Bool)
    (h : walk t maxLinks [] (partsOfPath root) = .ok (.found q)) :
    FilesystemGuard.init t maxLinks cwd root writable = .ok ⟨q, writable⟩ := by
  unfold FilesystemGuard.init
  rw [if_pos habsolute, (Links.resolve_of_walk h).1]

/-- Resolving the root of a sandbox once more changes nothing. -/
theorem WorkspaceSandbox.resolvePath_eq {t : Tree} {maxLinks : Nat} {b : WorkspaceSandbox}
    (hroot : t.entryAt b.root = some .directory) (relative : String) (write : Bool) :
    b.resolvePath t maxLinks relative write =
      FilesystemGuard.resolvePath ⟨b.root, b.writable⟩ t maxLinks relative write := by
  unfold WorkspaceSandbox.resolvePath
  rw [(Links.resolve_of_walk (Links.walk_place hroot fun _ h => (nomatch h))).1]

/-! ## Ways out -/

/-- A workspace with a dangling link and a live link to a directory outside of it. -/
def sampleTree : Tree where
  entries := [
    ([], .directory),
    (["out"], .directory),
    (["out", "secret"], .file),
    (["ws"], .directory),
    (["ws", "src"], .directory),
    (["ws", "src", "app"], .file),
    (["ws", "app"], .link "src/app"),
    (["ws", "dangling"], .link "/out/new"),
    (["ws", "live"], .link "/out/secret")]
  root := rfl
  placed := by decide

def sampleGuard : FilesystemGuard := ⟨["ws"], true⟩

/-- A link that stays inside is harmless, even when the path only exists without its `..`. -/
theorem confined_insideLink : Confined sampleTree 40 sampleGuard "missing/../app" true := by
  refine (confined_iff rfl _ _).mpr (Or.inr (Or.inr (Or.inr fun parent hparent name hname _ => ?_)))
  have hresolved : resolve sampleTree 40 [] (["ws"] ++ partsOfPath "missing/../app").dropLast =
      .ok ["ws"] := by decide +kernel
  cases hparent.symm.trans hresolved
  have hlast : (partsOfPath "missing/../app").getLast? = some "app" := by decide
  cases hname.symm.trans hlast
  constructor
  · intro habove
    exact absurd habove (by decide)
  · intro p link rest target hpath he place hplace
    rcases p with _ | ⟨first, p⟩
    · -- the root itself is a directory
      cases hpath
      cases he
    rcases p with _ | ⟨second, p⟩
    · cases hpath
      cases he
      have hopens : opensThrough sampleTree 40 ["ws"] "src/app" [] =
          some ["ws", "src", "app"] := by decide +kernel
      cases hplace.symm.trans hopens
      exact ⟨["src", "app"], rfl⟩
    · have hlength := congrArg List.length hpath
      simp at hlength

/-- Three allowed paths lead outside: a dangling link, through which a write creates a file; a link
    that is only looked at without its target, because a missing name stands before it; and the
    `..` of the root, because a missing name stands before that. -/
theorem dangling_link_escapes :
    ¬ Confined sampleTree 40 sampleGuard "dangling" true ∧
    ¬ Confined sampleTree 40 sampleGuard "missing/../live" false ∧
    ¬ Confined sampleTree 40 sampleGuard "missing/../.." false := by
  refine ⟨fun h => ?_, fun h => ?_, fun h => ?_⟩
  · have houtside := h ⟨true, some ["ws", "dangling"], "path allowed"⟩ ["ws", "dangling"]
      ["out", "new"] (by decide +kernel) rfl rfl (by decide +kernel)
    exact absurd houtside (by decide)
  · have houtside := h ⟨true, some ["ws", "live"], "path allowed"⟩ ["ws", "live"]
      ["out", "secret"] (by decide +kernel) rfl rfl (by decide +kernel)
    exact absurd houtside (by decide)
  · have houtside := h ⟨true, some ["ws", ".."], "path allowed"⟩ ["ws", ".."]
      [] (by decide +kernel) rfl rfl (by decide)
    exact absurd houtside (by decide)

end Vad
