/-
  Trees with symbolic links, and the two ways in which a path is resolved in them.

  1. **The operating system** (`walk`) — one name after the other, from directory to directory.  A
     link is replaced by the text it holds, and only so many links are followed.  A name that is
     missing ends the walk, unless it is the last one: there a file could be created.
  2. **The library** (`realPath`) — the same, but nothing is an error: below a name that is missing,
     or is no directory, `..` just drops a name, and of a link that leads back to itself the rest
     of the path is kept as it is.

  Where the operating system arrives at something, the library names its place
  (`realPath_of_walk`).  The proof counts the links that a walk follows: a link that is being
  resolved costs more than what is left of its own text, so the library never meets it again.

  A path that meets no circle is resolved to one without links, which is opened at the place that
  it names (`clean_resolve`, `Clean.opens_eq`).
-/
import Mathlib.Data.List.Infix
import Mathlib.Logic.Function.Basic
import Vad.Lib.FileTree

namespace Links

open Files (Place)

/-! ## Trees -/

/-- What is at a place. -/
inductive Entry where
  | file
  | directory
  | link (target : String)
deriving DecidableEq, Repr

/-- The parts of a path between its slashes. -/
def slashParts (path : String) : List String := (path.toList.splitOn '/').map String.ofList

/-- A name that an entry can have. -/
def goodName (name : String) : Bool :=
  name ≠ "" && name ≠ "." && name ≠ ".." && !name.toList.contains '/' &&
    !name.toList.contains (Char.ofNat 0)

/-- A finite tree: the root is a directory, and every other entry has a name in a directory. -/
structure Tree where
  entries : List (Place × Entry)
  root : entries.lookup [] = some .directory
  placed : ∀ x ∈ entries, x.1 = [] ∨
    (entries.lookup x.1.dropLast = some .directory ∧ goodName (x.1.getLastD "") = true)

namespace Tree

variable (t : Tree)

/-- `lstat`. -/
def entryAt (p : Place) : Option Entry := t.entries.lookup p

theorem entryAt_root : t.entryAt [] = some .directory := t.root

variable {t}

theorem mem_of_entryAt {p : Place} {e : Entry} (h : t.entryAt p = some e) : (p, e) ∈ t.entries := by
  obtain ⟨before, after, hsplit, -⟩ := List.lookup_eq_some_iff.mp h
  rw [hsplit]
  simp

/-- An entry lies in a directory, under a name. -/
theorem entryAt_parent {p : Place} {name : String} {e : Entry} (h : t.entryAt (p ++ [name]) = some e) :
    t.entryAt p = some .directory ∧ goodName name = true := by
  rcases t.placed _ (mem_of_entryAt h) with hroot | ⟨hparent, hname⟩
  · simp at hroot
  · rw [List.dropLast_concat] at hparent
    rw [List.getLastD_concat] at hname
    exact ⟨hparent, hname⟩

end Tree

theorem ne_of_goodName {name : String} (h : goodName name = true) :
    name ≠ "" ∧ name ≠ "." ∧ name ≠ ".." := by
  simp only [goodName, Bool.and_eq_true, decide_eq_true_eq] at h
  exact ⟨h.1.1.1.1, h.1.1.1.2, h.1.1.2⟩

/-! ## The walk of the operating system -/

/-- Where a walk ends: at something, or at a name that is missing in a directory. -/
inductive Reached where
  | found (p : Place)
  | fresh (p : Place)
deriving DecidableEq, Repr

def Reached.place : Reached → Place
  | .found p => p
  | .fresh p => p

inductive WalkError where
  | notFound
  | notDirectory
  | tooManyLinks
deriving DecidableEq, Repr

/-- Where the text of a link is read from. -/
def linkStart (p : Place) (target : String) : Place := if target.startsWith "/" then [] else p

/-- One name after the other, until a link has to be followed. -/
def walkWith (t : Tree) (follow : Place → List String → Except WalkError Reached) :
    Place → List String → Except WalkError Reached
  | p, [] => .ok (.found p)
  | p, name :: rest =>
    if t.entryAt p = some .directory then
      if name = "" ∨ name = "." then walkWith t follow p rest
      else if name = ".." then walkWith t follow p.dropLast rest
      else
        match t.entryAt (p ++ [name]) with
        | none => if rest = [] then .ok (.fresh (p ++ [name])) else .error .notFound
        | some (.link target) => follow (linkStart p target) (slashParts target ++ rest)
        | some _ => walkWith t follow (p ++ [name]) rest
    else .error .notDirectory

/-- The walk, with a number of links that it may follow. -/
def walk (t : Tree) : Nat → Place → List String → Except WalkError Reached
  | 0 => walkWith t fun _ _ => .error .tooManyLinks
  | n + 1 => walkWith t (walk t n)

/-! ## The library's resolution -/

inductive PathError where
  /-- A name holds the null character. -/
  | valueError
  /-- The links of a path lead in a circle. -/
  | runtimeError
  /-- The model ran out of fuel, which it never does (`realPath_ne_outOfFuel`). -/
  | outOfFuel
deriving DecidableEq, Repr

/-- The links that have been met: each is being resolved, or leads to a place. -/
abbrev Seen : Type := Place → Option (Option Place)

/-- `os.path.join(path, rest)`, of the parts: a rest that begins with a slash replaces the path. -/
def joinRest (path rest : List String) : List String :=
  match rest with
  | "" :: part :: parts => part :: parts
  | _ => path ++ rest

/-- What `_joinrealpath` gives: a path, and whether it is resolved. -/
structure Joined where
  path : List String
  ok : Bool
  seen : Seen

/-- The loop of `_joinrealpath`, given how it resolves the text of a link. -/
def joinWith (t : Tree) (resolveLink : Place → List String → Seen → Except PathError Joined) :
    Place → List String → Seen → Except PathError Joined
  | path, [], seen => .ok ⟨path, true, seen⟩
  | path, name :: rest, seen =>
    if name = "" ∨ name = "." then joinWith t resolveLink path rest seen
    else if name = ".." then joinWith t resolveLink path.dropLast rest seen
    else if name.toList.contains (Char.ofNat 0) then .error .valueError
    else
      match t.entryAt (path ++ [name]) with
      | some (.link target) =>
        match seen (path ++ [name]) with
        | some (some resolved) => joinWith t resolveLink resolved rest seen
        | some none => .ok ⟨joinRest (path ++ [name]) rest, false, seen⟩
        | none =>
          match resolveLink (linkStart path target) (slashParts target)
              (Function.update seen (path ++ [name]) (some none)) with
          | .error e => .error e
          | .ok inner =>
            if inner.ok then
              joinWith t resolveLink inner.path rest
                (Function.update inner.seen (path ++ [name]) (some (some inner.path)))
            else .ok ⟨joinRest inner.path rest, false, inner.seen⟩
      | _ => joinWith t resolveLink (path ++ [name]) rest seen

/-- `_joinrealpath`, with fuel for the links that it is inside of. -/
def joinRealPath (t : Tree) : Nat → Place → List String → Seen → Except PathError Joined
  | 0 => joinWith t fun _ _ _ => .error .outOfFuel
  | n + 1 => joinWith t (joinRealPath t n)

/-- `os.path.normpath` of an absolute path. -/
def normPath (parts : List String) : Place :=
  parts.foldl (fun path name =>
    if name = "" ∨ name = "." then path
    else if name = ".." then path.dropLast
    else path ++ [name]) []

/-- `os.path.realpath`; each link is resolved inside itself at most once. -/
def realPath (t : Tree) (start : Place) (path : List String) : Except PathError Place :=
  (joinRealPath t t.entries.length start path fun _ => none).map fun joined => normPath joined.path

/-- `Path.resolve()`: `realpath`, and an exception when what it gives still leads in a circle. -/
def resolve (t : Tree) (maxLinks : Nat) (start : Place) (path : List String) :
    Except PathError Place :=
  match realPath t start path with
  | .error e => .error e
  | .ok p =>
    if p.any (fun name => name.toList.contains (Char.ofNat 0)) then .error .valueError
    else if walk t maxLinks [] p = .error .tooManyLinks then .error .runtimeError
    else .ok p

/-! ## Places in a tree -/

section Places

variable {t : Tree} {p : Place}

/-- What has something below it is a directory. -/
theorem directory_of_below {e : Entry} : ∀ {rest : List String}, rest ≠ [] →
    t.entryAt (p ++ rest) = some e → t.entryAt p = some .directory := by
  intro rest
  induction rest using List.reverseRecOn generalizing e with
  | nil => exact fun h => absurd rfl h
  | append_singleton rest name ih =>
    intro _ h
    rw [← List.append_assoc] at h
    have hparent := (Tree.entryAt_parent h).1
    by_cases hrest : rest = []
    · rw [hrest, List.append_nil] at hparent
      exact hparent
    · exact ih hrest hparent

theorem goodName_of_mem {e : Entry} (h : t.entryAt p = some e) : ∀ name ∈ p, goodName name = true := by
  induction p using List.reverseRecOn generalizing e with
  | nil => exact fun name hname => absurd hname List.not_mem_nil
  | append_singleton p last ih =>
    intro name hname
    obtain ⟨hparent, hlast⟩ := Tree.entryAt_parent h
    rcases List.mem_append.mp hname with hname | hname
    · exact ih hparent name hname
    · rw [List.mem_singleton.mp hname]
      exact hlast

theorem directory_dropLast (h : t.entryAt p = some .directory) :
    t.entryAt p.dropLast = some .directory := by
  rcases List.eq_nil_or_concat p with rfl | ⟨init, last, rfl⟩
  · exact h
  · rw [List.concat_eq_append] at h ⊢
    rw [List.dropLast_concat]
    exact (Tree.entryAt_parent h).1

/-- Names other than `""`, `"."` and `".."`. -/
def PlainNames (names : List String) : Prop :=
  ∀ name ∈ names, name ≠ "" ∧ name ≠ "." ∧ name ≠ ".."

/-- Plain names are their own normal form. -/
theorem normPath_plain {names : List String} (hplain : PlainNames names) :
    normPath names = names := by
  have hfold : ∀ (rest base : List String), PlainNames rest →
      rest.foldl (fun path name => if name = "" ∨ name = "." then path
        else if name = ".." then path.dropLast else path ++ [name]) base = base ++ rest := by
    intro rest
    induction rest with
    | nil => exact fun base _ => (List.append_nil base).symm
    | cons name rest ih =>
      intro base hrest
      obtain ⟨hempty, hdot, hdots⟩ := hrest name (List.mem_cons_self ..)
      rw [List.foldl_cons, if_neg (by simp [hempty, hdot]), if_neg hdots,
        ih _ fun x hx => hrest x (List.mem_cons_of_mem _ hx), List.append_assoc]
      rfl
  exact (hfold names [] hplain).trans (List.nil_append names)

/-- A place is its own normal form. -/
theorem normPath_place {e : Entry} (h : t.entryAt p = some e) : normPath p = p :=
  normPath_plain fun name hname => ne_of_goodName (goodName_of_mem h name hname)

variable {follow : Place → List String → Except WalkError Reached}

/-- A walk along directories passes through them. -/
theorem walkWith_through (names rest : List String)
    (h : t.entryAt (p ++ names) = some .directory) :
    walkWith t follow p (names ++ rest) = walkWith t follow (p ++ names) rest := by
  induction names generalizing p with
  | nil => rw [List.append_nil, List.nil_append]
  | cons name names ih =>
    have hsplit : p ++ name :: names = (p ++ [name]) ++ names := by simp
    rw [hsplit] at h ⊢
    have hnext : t.entryAt (p ++ [name]) = some .directory := by
      by_cases hnames : names = []
      · rw [hnames, List.append_nil] at h
        exact h
      · exact directory_of_below hnames h
    obtain ⟨hp, hname⟩ := Tree.entryAt_parent hnext
    obtain ⟨hempty, hdot, hdots⟩ := ne_of_goodName hname
    rw [List.cons_append, walkWith, if_pos hp, if_neg (by simp [hempty, hdot]), if_neg hdots, hnext]
    exact ih h

/-- The next name of a walk that stands in a directory. -/
theorem walkWith_name {name : String} {rest : List String} (hp : t.entryAt p = some .directory)
    (hempty : name ≠ "") (hdot : name ≠ ".") (hdots : name ≠ "..") :
    walkWith t follow p (name :: rest) = match t.entryAt (p ++ [name]) with
      | none => if rest = [] then .ok (.fresh (p ++ [name])) else .error .notFound
      | some (.link target) => follow (linkStart p target) (slashParts target ++ rest)
      | some _ => walkWith t follow (p ++ [name]) rest := by
  rw [walkWith, if_pos hp, if_neg (by simp [hempty, hdot]), if_neg hdots]

end Places

/-! ## Walks that arrive -/

/-- The path leads from one place to another, across so many links. -/
inductive Leads (t : Tree) : Place → List String → Place → Nat → Prop
  | done (p : Place) : Leads t p [] p 0
  | here {p q : Place} {name : String} {rest : List String} {n : Nat}
      (hp : t.entryAt p = some .directory) (hname : name = "" ∨ name = ".")
      (hrest : Leads t p rest q n) : Leads t p (name :: rest) q n
  | up {p q : Place} {rest : List String} {n : Nat} (hp : t.entryAt p = some .directory)
      (hrest : Leads t p.dropLast rest q n) : Leads t p (".." :: rest) q n
  | enter {p q : Place} {name : String} {rest : List String} {n : Nat} {e : Entry}
      (he : t.entryAt (p ++ [name]) = some e) (hlink : ∀ target, e ≠ .link target)
      (hrest : Leads t (p ++ [name]) rest q n) : Leads t p (name :: rest) q n
  | follow {p q : Place} {name target : String} {rest : List String} {n : Nat}
      (he : t.entryAt (p ++ [name]) = some (.link target))
      (hrest : Leads t (linkStart p target) (slashParts target ++ rest) q n) :
      Leads t p (name :: rest) q (n + 1)

section Leads

variable {t : Tree} {p q : Place}

theorem leads_of_walkWith {follow : Place → List String → Except WalkError Reached}
    (hfollow : ∀ p path q, follow p path = .ok (.found q) → ∃ n, Leads t p path q n)
    {path : List String} : ∀ {p : Place}, walkWith t follow p path = .ok (.found q) →
      ∃ n, Leads t p path q n := by
  induction path with
  | nil =>
    intro p h
    cases h
    exact ⟨0, .done _⟩
  | cons name rest ih =>
    intro p h
    rw [walkWith] at h
    split at h
    case isFalse => cases h
    rename_i hp
    split at h
    · rename_i hname
      obtain ⟨n, hn⟩ := ih h
      exact ⟨n, .here hp hname hn⟩
    split at h
    · rename_i hname
      subst hname
      obtain ⟨n, hn⟩ := ih h
      exact ⟨n, .up hp hn⟩
    split at h
    · split at h <;> cases h
    · rename_i target he
      obtain ⟨n, hn⟩ := hfollow _ _ _ h
      exact ⟨n + 1, .follow he hn⟩
    · rename_i e hlink he
      obtain ⟨n, hn⟩ := ih h
      exact ⟨n, .enter he (fun target htarget => hlink target htarget) hn⟩

theorem leads_of_walk : ∀ {maxLinks : Nat} {p : Place} {path : List String},
    walk t maxLinks p path = .ok (.found q) → ∃ n, Leads t p path q n := by
  intro maxLinks
  induction maxLinks generalizing q with
  | zero => exact fun h => leads_of_walkWith (fun _ _ _ h => by cases h) h
  | succ n ih => exact fun h => leads_of_walkWith (fun _ _ _ h => ih h) h

/-- A path leads to one place, across one number of links. -/
theorem Leads.unique {path : List String} {n : Nat} (h : Leads t p path q n) :
    ∀ {q' : Place} {n' : Nat}, Leads t p path q' n' → q = q' ∧ n = n' := by
  have hdots : ∀ {p : Place} {e : Entry}, t.entryAt (p ++ [".."]) ≠ some e := fun he =>
    (ne_of_goodName (Tree.entryAt_parent he).2).2.2 rfl
  have hskip : ∀ {p : Place} {name : String} {e : Entry}, name = "" ∨ name = "." →
      t.entryAt (p ++ [name]) ≠ some e := fun hname he => by
    obtain ⟨hempty, hdot, -⟩ := ne_of_goodName (Tree.entryAt_parent he).2
    rcases hname with h | h
    · exact hempty h
    · exact hdot h
  induction h with
  | done p =>
    intro q' n' h'
    cases h'
    exact ⟨rfl, rfl⟩
  | here hp hname hrest ih =>
    intro q' n' h'
    cases h' with
    | here _ _ hrest' => exact ih hrest'
    | up _ _ => simp at hname
    | enter he _ _ => exact absurd he (hskip hname)
    | follow he _ => exact absurd he (hskip hname)
  | up hp hrest ih =>
    intro q' n' h'
    cases h' with
    | here _ hname _ => simp at hname
    | up _ hrest' => exact ih hrest'
    | enter he _ _ => exact absurd he hdots
    | follow he _ => exact absurd he hdots
  | enter he hlink hrest ih =>
    intro q' n' h'
    cases h' with
    | here _ hname _ => exact absurd he (hskip hname)
    | up _ _ => exact absurd he hdots
    | enter _ _ hrest' => exact ih hrest'
    | follow he' _ => exact absurd (Option.some.inj (he.symm.trans he')) (hlink _)
  | follow he hrest ih =>
    intro q' n' h'
    cases h' with
    | here _ hname _ => exact absurd he (hskip hname)
    | up _ _ => exact absurd he hdots
    | enter he' hlink _ => exact absurd (Option.some.inj (he'.symm.trans he)) (hlink _)
    | follow he' hrest' =>
      cases he.symm.trans he'
      obtain ⟨hq, hn⟩ := ih hrest'
      exact ⟨hq, congrArg (· + 1) hn⟩

/-- A path in two parts leads somewhere in between. -/
theorem Leads.split {xs ys : List String} {n : Nat} (h : Leads t p (xs ++ ys) q n) :
    ∃ m a b, Leads t p xs m a ∧ Leads t m ys q b ∧ n = a + b := by
  have hnil : ∀ {p q path n}, Leads t p path q n →
      ∃ m a b, Leads t p [] m a ∧ Leads t m path q b ∧ n = a + b :=
    fun {p _ _ n} h => ⟨p, 0, n, .done p, h, (Nat.zero_add n).symm⟩
  generalize hpath : xs ++ ys = path at h
  induction h generalizing xs with
  | done p =>
    obtain ⟨rfl, rfl⟩ := List.append_eq_nil_iff.mp hpath
    exact ⟨p, 0, 0, .done p, .done p, rfl⟩
  | @here p q name rest n hp hname hrest ih =>
    cases xs with
    | nil =>
      obtain rfl : ys = _ := hpath
      exact hnil (.here hp hname hrest)
    | cons x xs =>
      obtain ⟨rfl, hrest'⟩ := List.cons.inj hpath
      obtain ⟨m, a, b, ha, hb, hn⟩ := ih hrest'
      exact ⟨m, a, b, .here hp hname ha, hb, hn⟩
  | @up p q rest n hp hrest ih =>
    cases xs with
    | nil =>
      obtain rfl : ys = _ := hpath
      exact hnil (.up hp hrest)
    | cons x xs =>
      obtain ⟨rfl, hrest'⟩ := List.cons.inj hpath
      obtain ⟨m, a, b, ha, hb, hn⟩ := ih hrest'
      exact ⟨m, a, b, .up hp ha, hb, hn⟩
  | @enter p q name rest n e he hlink hrest ih =>
    cases xs with
    | nil =>
      obtain rfl : ys = _ := hpath
      exact hnil (.enter he hlink hrest)
    | cons x xs =>
      obtain ⟨rfl, hrest'⟩ := List.cons.inj hpath
      obtain ⟨m, a, b, ha, hb, hn⟩ := ih hrest'
      exact ⟨m, a, b, .enter he hlink ha, hb, hn⟩
  | @follow p q name target rest n he hrest ih =>
    cases xs with
    | nil =>
      obtain rfl : ys = _ := hpath
      exact hnil (.follow he hrest)
    | cons x xs =>
      obtain ⟨rfl, rfl⟩ := List.cons.inj hpath
      -- the text of the link comes before the rest of the first part
      obtain ⟨m, a, b, ha, hb, hn⟩ := @ih (slashParts target ++ xs) (List.append_assoc ..)
      exact ⟨m, a + 1, b, .follow he ha, hb, by omega⟩

/-- What a path leads to exists, and is no link. -/
theorem Leads.arrives {path : List String} {n : Nat} (h : Leads t p path q n)
    (hp : t.entryAt p = some .directory) :
    ∃ e, t.entryAt q = some e ∧ ∀ target, e ≠ .link target := by
  have hgeneral : ∀ {p q : Place} {path : List String} {n : Nat}, Leads t p path q n →
      (∃ e, t.entryAt p = some e ∧ ∀ target, e ≠ .link target) →
        ∃ e, t.entryAt q = some e ∧ ∀ target, e ≠ .link target := by
    intro p q path n h
    induction h with
    | done p => exact fun hp => hp
    | here _ _ _ ih => exact ih
    | up hp _ ih => exact fun _ => ih ⟨_, directory_dropLast hp, fun _ h => by cases h⟩
    | enter he hlink _ ih => exact fun _ => ih ⟨_, he, hlink⟩
    | @follow p q name target rest n he _ ih =>
      refine fun _ => ih ⟨.directory, ?_, fun _ h => by cases h⟩
      unfold linkStart
      split
      · exact t.entryAt_root
      · exact (Tree.entryAt_parent he).1
  exact hgeneral h ⟨_, hp, fun _ h => by cases h⟩

end Leads

/-! ## The library arrives where the operating system does -/

/-- The links of a tree that have not been met. -/
def unseen (t : Tree) (seen : Seen) : Nat :=
  ((t.entries.map Prod.fst).filter fun p => seen p = none).length

/-- Links that have been met stay so, and no more of them are being resolved. -/
structure Grown (seen seen' : Seen) : Prop where
  kept : ∀ p, seen p ≠ none → seen' p ≠ none
  pending : ∀ p, seen' p = some none → seen p = some none

/-- The links that have been resolved lead where they are said to. -/
def Resolved (t : Tree) (seen : Seen) : Prop :=
  ∀ p name q, seen (p ++ [name]) = some (some q) → ∃ n, Leads t p [name] q n

/-- A link that is being resolved costs more than `n`, if it leads anywhere. -/
def Costly (t : Tree) (n : Nat) (seen : Seen) : Prop :=
  ∀ p name q k, seen (p ++ [name]) = some none → Leads t p [name] q k → n < k

section Library

variable {t : Tree} {seen seen' : Seen}

theorem Grown.trans {seen'' : Seen} (h : Grown seen seen') (h' : Grown seen' seen'') :
    Grown seen seen'' :=
  ⟨fun p hp => h'.kept p (h.kept p hp), fun p hp => h.pending p (h'.pending p hp)⟩

theorem Grown.costly {n m : Nat} (h : Grown seen seen') (hs : Costly t n seen) (hm : m ≤ n) :
    Costly t m seen' := fun p name q k hp hk =>
  lt_of_le_of_lt hm (hs p name q k (h.pending _ hp) hk)

theorem unseen_le_of_kept (hkept : ∀ p, seen p ≠ none → seen' p ≠ none) :
    unseen t seen' ≤ unseen t seen := by
  refine List.Sublist.length_le (List.monotone_filter_right _ fun p hp => ?_)
  rw [decide_eq_true_eq] at hp ⊢
  by_contra hne
  exact hkept p hne hp

theorem Grown.unseen_le (h : Grown seen seen') : unseen t seen' ≤ unseen t seen :=
  unseen_le_of_kept h.kept

/-- Meeting a link of the tree for the first time leaves fewer to be met. -/
theorem unseen_update {p : Place} {e : Entry} (he : t.entryAt p = some e) (hp : seen p = none)
    (value : Option Place) : unseen t (Function.update seen p (some value)) < unseen t seen := by
  have hmem : p ∈ t.entries.map Prod.fst := List.mem_map_of_mem (Tree.mem_of_entryAt he)
  have hsub : ((t.entries.map Prod.fst).filter fun q =>
      Function.update seen p (some value) q = none) =
      ((t.entries.map Prod.fst).filter fun q => seen q = none).filter (· ≠ p) := by
    rw [List.filter_filter]
    refine List.filter_congr fun q _ => ?_
    by_cases hq : q = p
    · subst hq
      simp
    · simp [hq]
  unfold unseen
  rw [hsub]
  refine List.length_filter_lt_length_iff_exists.mpr ⟨p, ?_, by simp⟩
  exact List.mem_filter.mpr ⟨hmem, by simp [hp]⟩

/-- How `_joinrealpath` resolves the text of a link. -/
def innerJoin (t : Tree) : Nat → Place → List String → Seen → Except PathError Joined
  | 0 => fun _ _ _ => .error .outOfFuel
  | n + 1 => joinRealPath t n

theorem joinRealPath_eq (fuel : Nat) : joinRealPath t fuel = joinWith t (innerJoin t fuel) := by
  cases fuel <;> rfl

theorem not_nul_of_goodName {name : String} (h : goodName name = true) :
    name.toList.contains (Char.ofNat 0) = false := by
  simp only [goodName, Bool.and_eq_true, Bool.not_eq_true'] at h
  exact h.2

/-- The next name of a resolution, when it is there. -/
theorem joinWith_name {resolveLink : Place → List String → Seen → Except PathError Joined}
    {path : Place} {name : String} {rest : List String} (hname : goodName name = true) :
    joinWith t resolveLink path (name :: rest) seen = match t.entryAt (path ++ [name]) with
      | some (.link target) =>
        match seen (path ++ [name]) with
        | some (some resolved) => joinWith t resolveLink resolved rest seen
        | some none => .ok ⟨joinRest (path ++ [name]) rest, false, seen⟩
        | none =>
          match resolveLink (linkStart path target) (slashParts target)
              (Function.update seen (path ++ [name]) (some none)) with
          | .error e => .error e
          | .ok inner =>
            if inner.ok then
              joinWith t resolveLink inner.path rest
                (Function.update inner.seen (path ++ [name]) (some (some inner.path)))
            else .ok ⟨joinRest inner.path rest, false, inner.seen⟩
      | _ => joinWith t resolveLink (path ++ [name]) rest seen := by
  obtain ⟨hempty, hdot, hdots⟩ := ne_of_goodName hname
  rw [joinWith, if_neg (by simp [hempty, hdot]), if_neg hdots,
    if_neg (by rw [not_nul_of_goodName hname]; simp)]

/-- What a resolution comes to when the path leads to a place. -/
def Arrives (t : Tree) (fuel : Nat) (path : Place) (rest : List String) (q : Place)
    (seen : Seen) : Prop :=
  ∃ seen', joinRealPath t fuel path rest seen = .ok ⟨q, true, seen'⟩ ∧ Resolved t seen' ∧
    Grown seen seen'

/-- The step at a link, given what is known of cheaper paths. -/
theorem arrives_follow {n : Nat} (cheaper : ∀ m < n + 1, ∀ fuel path rest q seen,
      Leads t path rest q m → Resolved t seen → Costly t m seen → unseen t seen ≤ fuel →
        Arrives t fuel path rest q seen)
    {fuel : Nat} {path q : Place} {name target : String} {rest : List String}
    (he : t.entryAt (path ++ [name]) = some (.link target))
    (hrest : Leads t (linkStart path target) (slashParts target ++ rest) q n)
    (hresolved : Resolved t seen) (hcostly : Costly t (n + 1) seen) (hfuel : unseen t seen ≤ fuel) :
    Arrives t fuel path (name :: rest) q seen := by
  obtain ⟨m, a, b, htarget, hlater, hn⟩ := hrest.split
  have hlink : Leads t path [name] m (a + 1) :=
    .follow he (by rw [List.append_nil]; exact htarget)
  unfold Arrives
  rw [joinRealPath_eq, joinWith_name (Tree.entryAt_parent he).2, he]
  dsimp only
  cases hseen : seen (path ++ [name]) with
  | some value =>
    cases value with
    | some resolved =>
      -- the link has been resolved before, to the same place
      obtain ⟨k, hk⟩ := hresolved path name resolved hseen
      obtain ⟨rfl, -⟩ := hk.unique hlink
      dsimp only
      rw [← joinRealPath_eq]
      refine cheaper b (by omega) fuel resolved rest q seen hlater hresolved ?_ hfuel
      exact fun p x r k hp hk => lt_of_le_of_lt (by omega) (hcostly p x r k hp hk)
    | none =>
      -- a link that is being resolved costs more than all of this path
      have := hcostly path name m (a + 1) hseen hlink
      omega
  | none =>
    cases fuel with
    | zero =>
      have := unseen_update he hseen none
      omega
    | succ fuel =>
      have hmet : Costly t a (Function.update seen (path ++ [name]) (some none)) := by
        intro p x r k hp hk
        by_cases hsame : p ++ [x] = path ++ [name]
        · obtain ⟨rfl, hx⟩ := List.append_inj' hsame rfl
          cases hx
          obtain ⟨-, rfl⟩ := hk.unique hlink
          omega
        · rw [Function.update_of_ne hsame] at hp
          exact lt_of_le_of_lt (by omega) (hcostly p x r k hp hk)
      have hknown : Resolved t (Function.update seen (path ++ [name]) (some none)) := by
        intro p x r hp
        by_cases hsame : p ++ [x] = path ++ [name]
        · rw [hsame, Function.update_self] at hp
          cases hp
        · rw [Function.update_of_ne hsame] at hp
          exact hresolved p x r hp
      obtain ⟨seen', hinner, hresolved', hgrown⟩ := cheaper a (by omega) fuel _ _ m _ htarget hknown
        hmet (by have := unseen_update he hseen none; omega)
      have hfirst : Grown seen (Function.update seen' (path ++ [name]) (some (some m))) := by
        constructor
        · intro p hp
          by_cases hsame : p = path ++ [name]
          · rw [hsame, Function.update_self]
            exact Option.some_ne_none _
          · rw [Function.update_of_ne hsame]
            refine hgrown.kept p ?_
            rw [Function.update_of_ne hsame]
            exact hp
        · intro p hp
          by_cases hsame : p = path ++ [name]
          · rw [hsame, Function.update_self] at hp
            cases hp
          · rw [Function.update_of_ne hsame] at hp
            have hbefore := hgrown.pending p hp
            rwa [Function.update_of_ne hsame] at hbefore
      have hdone : Resolved t (Function.update seen' (path ++ [name]) (some (some m))) := by
        intro p x r hp
        by_cases hsame : p ++ [x] = path ++ [name]
        · obtain ⟨rfl, hx⟩ := List.append_inj' hsame rfl
          cases hx
          rw [Function.update_self] at hp
          cases hp
          exact ⟨_, hlink⟩
        · rw [Function.update_of_ne hsame] at hp
          exact hresolved' p x r hp
      obtain ⟨seen'', hlast, hresolved'', hgrown'⟩ := cheaper b (by omega) (fuel + 1) m rest q _
        hlater hdone (hfirst.costly hcostly (by omega)) (le_trans hfirst.unseen_le hfuel)
      refine ⟨seen'', ?_, hresolved'', hfirst.trans hgrown'⟩
      dsimp only [innerJoin]
      rw [hinner]
      dsimp only
      rw [if_pos rfl]
      exact hlast

/-- Where a path leads to a place, the library resolves it to that place. -/
theorem arrives_of_leads : ∀ (n fuel : Nat) (path : Place) (rest : List String) (q : Place)
    (seen : Seen), Leads t path rest q n → Resolved t seen → Costly t n seen →
      unseen t seen ≤ fuel → Arrives t fuel path rest q seen := by
  intro n
  induction n using Nat.strong_induction_on with
  | _ n cheaper =>
    intro fuel path rest q seen h hresolved hcostly hfuel
    induction rest generalizing path with
    | nil =>
      cases h
      refine ⟨seen, ?_, hresolved, fun _ h => h, fun _ h => h⟩
      rw [joinRealPath_eq]
      rfl
    | cons name rest ih =>
      cases h with
      | here hp hname hrest =>
        obtain ⟨seen', hjoin, hdone⟩ := ih path hrest
        refine ⟨seen', ?_, hdone⟩
        rw [joinRealPath_eq] at hjoin ⊢
        rw [joinWith, if_pos hname]
        exact hjoin
      | up hp hrest =>
        obtain ⟨seen', hjoin, hdone⟩ := ih _ hrest
        refine ⟨seen', ?_, hdone⟩
        rw [joinRealPath_eq] at hjoin ⊢
        rw [joinWith, if_neg (by decide), if_pos rfl]
        exact hjoin
      | @enter _ _ _ _ _ e he hlink hrest =>
        obtain ⟨seen', hjoin, hdone⟩ := ih _ hrest
        refine ⟨seen', ?_, hdone⟩
        rw [joinRealPath_eq] at hjoin ⊢
        rw [joinWith_name (Tree.entryAt_parent he).2, he]
        cases e with
        | link target => exact absurd rfl (hlink target)
        | file => exact hjoin
        | directory => exact hjoin
      | follow he hrest => exact arrives_follow cheaper he hrest hresolved hcostly hfuel

end Library

/-- Where the operating system arrives at something, `realpath` names its place. -/
theorem realPath_of_walk {t : Tree} {maxLinks : Nat} {start q : Place} {path : List String}
    (hstart : t.entryAt start = some .directory)
    (h : walk t maxLinks start path = .ok (.found q)) : realPath t start path = .ok q := by
  obtain ⟨n, hleads⟩ := leads_of_walk h
  obtain ⟨e, he, -⟩ := hleads.arrives hstart
  have hfuel : unseen t (fun _ => none) ≤ t.entries.length := by
    refine le_trans (List.length_filter_le _ _) ?_
    rw [List.length_map]
  obtain ⟨seen, hjoin, -⟩ := arrives_of_leads n t.entries.length start path q (fun _ => none) hleads
    (fun _ _ _ h => by cases h) (fun _ _ _ _ h => by cases h) hfuel
  unfold realPath
  rw [hjoin]
  exact congrArg Except.ok (normPath_place he)

/-! ## The fuel is enough -/

section Fuel

variable {t : Tree} {seen : Seen}

/-- The result is not that the fuel ran out, and no link that has been met is forgotten. -/
def Finishes (seen : Seen) (result : Except PathError Joined) : Prop :=
  result ≠ .error .outOfFuel ∧
    ∀ joined, result = .ok joined → ∀ p, seen p ≠ none → joined.seen p ≠ none

theorem finishes_ok {joined : Joined} (h : ∀ p, seen p ≠ none → joined.seen p ≠ none) :
    Finishes seen (.ok joined) := by
  refine ⟨fun h => (nomatch h), fun j hj => ?_⟩
  cases hj
  exact h

/-- Going on after more links have been met. -/
theorem Finishes.after {seen' : Seen} {result : Except PathError Joined}
    (hkept : ∀ p, seen p ≠ none → seen' p ≠ none) (h : Finishes seen' result) :
    Finishes seen result :=
  ⟨h.1, fun joined hj p hp => h.2 joined hj p (hkept p hp)⟩

theorem kept_update {p : Place} {value : Option Place} (q : Place) (hq : seen q ≠ none) :
    Function.update seen p (some value) q ≠ none := by
  by_cases hsame : q = p
  · rw [hsame, Function.update_self]
    exact Option.some_ne_none _
  · rw [Function.update_of_ne hsame]
    exact hq

theorem finishes_joinWith {resolveLink : Place → List String → Seen → Except PathError Joined}
    {fuel : Nat} (hinner : ∀ path rest seen, unseen t seen < fuel →
      Finishes seen (resolveLink path rest seen)) (rest : List String) :
    ∀ (path : Place) (seen : Seen), unseen t seen ≤ fuel →
      Finishes seen (joinWith t resolveLink path rest seen) := by
  induction rest with
  | nil => exact fun path seen _ => finishes_ok fun _ hp => hp
  | cons name rest ih =>
    intro path seen hfuel
    rw [joinWith]
    split
    · exact ih path seen hfuel
    split
    · exact ih _ seen hfuel
    split
    · exact ⟨fun h => (nomatch h), fun _ h => (nomatch h)⟩
    split
    · rename_i target he
      cases hseen : seen (path ++ [name]) with
      | some value =>
        cases value with
        | some resolved => exact ih resolved seen hfuel
        | none => exact finishes_ok fun _ hp => hp
      | none =>
        have hfewer := unseen_update he hseen none
        have hdone := hinner (linkStart path target) (slashParts target)
          (Function.update seen (path ++ [name]) (some none)) (by omega)
        dsimp only
        split
        · rename_i e hinnerError
          exact ⟨fun h => hdone.1 (hinnerError.trans h), fun _ h => (nomatch h)⟩
        · rename_i inner hinnerOk
          have hkept : ∀ p, seen p ≠ none → inner.seen p ≠ none := fun p hp =>
            hdone.2 inner hinnerOk p (kept_update p hp)
          split
          · have hlater : ∀ p, seen p ≠ none → Function.update inner.seen (path ++ [name])
                (some (some inner.path)) p ≠ none := fun p hp => kept_update p (hkept p hp)
            exact (ih inner.path _ (le_trans (unseen_le_of_kept hlater) hfuel)).after hlater
          · exact finishes_ok hkept
    · exact ih _ seen hfuel

theorem finishes_joinRealPath : ∀ (fuel : Nat) (path : Place) (rest : List String) (seen : Seen),
    unseen t seen ≤ fuel → Finishes seen (joinRealPath t fuel path rest seen) := by
  intro fuel
  induction fuel with
  | zero =>
    exact fun path rest seen hfuel => @finishes_joinWith _ _ 0
      (fun _ _ seen h => absurd h (Nat.not_lt_zero _)) rest path seen hfuel
  | succ fuel ih =>
    exact fun path rest seen hfuel => @finishes_joinWith _ _ (fuel + 1)
      (fun path rest seen h => ih path rest seen (Nat.lt_succ_iff.mp h)) rest path seen hfuel

/-- The fuel of `realPath` is enough for every path. -/
theorem realPath_ne_outOfFuel (t : Tree) (start : Place) (path : List String) :
    realPath t start path ≠ .error .outOfFuel := by
  have hfuel : unseen t (fun _ => none) ≤ t.entries.length := by
    refine le_trans (List.length_filter_le _ _) ?_
    rw [List.length_map]
  have hdone := (finishes_joinRealPath t.entries.length start path (fun _ => none) hfuel).1
  unfold realPath
  cases hjoin : joinRealPath t t.entries.length start path fun _ => none with
  | ok joined => exact fun h => (nomatch h)
  | error e =>
    rw [hjoin] at hdone
    exact fun h => hdone (by cases h; rfl)

end Fuel

/-! ## What is opened -/

/-- What opening a path reaches, a missing file being created. -/
def opens (t : Tree) (maxLinks : Nat) (path : List String) : Option Place :=
  (walk t maxLinks [] path).toOption.map Reached.place

/-- What opening goes on to reach at a link, with the rest of the path behind it. -/
def opensThrough (t : Tree) (maxLinks : Nat) (p : Place) (target : String) (rest : List String) :
    Option Place :=
  match maxLinks with
  | 0 => none
  | n + 1 => (walk t n (linkStart p target) (slashParts target ++ rest)).toOption.map Reached.place

/-- A path names something: `Path.exists`. -/
def exists_ (t : Tree) (maxLinks : Nat) (path : List String) : Bool :=
  match walk t maxLinks [] path with
  | .ok (.found _) => true
  | _ => false

section Opening

variable {t : Tree} {maxLinks : Nat}

theorem walk_eq (t : Tree) (maxLinks : Nat) : ∃ follow, walk t maxLinks = walkWith t follow ∧
    ∀ p target rest, (follow (linkStart p target) (slashParts target ++ rest)).toOption.map
      Reached.place = opensThrough t maxLinks p target rest := by
  cases maxLinks with
  | zero => exact ⟨_, rfl, fun _ _ _ => rfl⟩
  | succ n => exact ⟨_, rfl, fun _ _ _ => rfl⟩

/-- A place that is no link is opened where it is. -/
theorem walk_place {q : Place} {e : Entry} (he : t.entryAt q = some e)
    (hlink : ∀ target, e ≠ .link target) : walk t maxLinks [] q = .ok (.found q) := by
  obtain ⟨follow, hwalk, -⟩ := walk_eq t maxLinks
  rw [hwalk]
  rcases List.eq_nil_or_concat q with rfl | ⟨init, last, rfl⟩
  · rfl
  · rw [List.concat_eq_append] at he ⊢
    obtain ⟨hinit, hname⟩ := Tree.entryAt_parent he
    obtain ⟨hempty, hdot, hdots⟩ := ne_of_goodName hname
    have hthrough := @walkWith_through t [] follow init [last] hinit
    rw [hthrough, List.nil_append, walkWith_name hinit hempty hdot hdots, he]
    cases e with
    | link target => exact absurd rfl (hlink target)
    | file => rfl
    | directory => rfl

/-- What exists is resolved to where the operating system finds it, and that is no link. -/
theorem resolve_of_walk {q : Place} {path : List String}
    (h : walk t maxLinks [] path = .ok (.found q)) :
    resolve t maxLinks [] path = .ok q ∧ opens t maxLinks q = some q := by
  obtain ⟨n, hleads⟩ := leads_of_walk h
  obtain ⟨e, he, hlink⟩ := hleads.arrives t.entryAt_root
  have hplace := @walk_place t maxLinks _ _ he hlink
  constructor
  · unfold resolve
    rw [realPath_of_walk t.entryAt_root h]
    dsimp only
    rw [if_neg, if_neg]
    · rw [hplace]
      exact fun h => (nomatch h)
    · rw [List.any_eq_true]
      rintro ⟨name, hname, hnul⟩
      rw [not_nul_of_goodName (goodName_of_mem he name hname)] at hnul
      cases hnul
  · unfold opens
    rw [hplace]
    rfl

/-- Opening a path with a link behind directories goes on at the link. -/
theorem opens_link {p : Place} {name target : String} (rest : List String)
    (he : t.entryAt (p ++ [name]) = some (.link target)) :
    opens t maxLinks (p ++ name :: rest) = opensThrough t maxLinks p target rest := by
  obtain ⟨follow, hwalk, hthrough⟩ := walk_eq t maxLinks
  obtain ⟨hp, hname⟩ := Tree.entryAt_parent he
  obtain ⟨hempty, hdot, hdots⟩ := ne_of_goodName hname
  have hpass := @walkWith_through t [] follow p (name :: rest) hp
  unfold opens
  rw [hwalk, hpass, List.nil_append, walkWith_name hp hempty hdot hdots, he]
  exact hthrough p target rest

/-- A path has a link on its way. -/
def MeetsLink (t : Tree) (path : List String) : Prop :=
  ∃ p name rest target, path = p ++ name :: rest ∧ t.entryAt (p ++ [name]) = some (.link target)

/-- A walk past plain names without a link stands in the directory that they name. -/
theorem directory_of_walk {follow : Place → List String → Except WalkError Reached} {r : Reached}
    {rest : List String} (hrest : rest ≠ []) (names : List String) : ∀ {p : Place},
    PlainNames names →
      (∀ q name more target, names = q ++ name :: more →
        t.entryAt (p ++ q ++ [name]) ≠ some (.link target)) →
      walkWith t follow p (names ++ rest) = .ok r →
        t.entryAt (p ++ names) = some .directory ∧ walkWith t follow (p ++ names) rest = .ok r := by
  induction names with
  | nil =>
    intro p _ _ h
    rw [List.append_nil]
    refine ⟨?_, h⟩
    obtain ⟨name, more, rfl⟩ := List.exists_cons_of_ne_nil hrest
    rw [List.nil_append, walkWith] at h
    split at h
    · assumption
    · cases h
  | cons name names ih =>
    intro p hplain hnone h
    obtain ⟨hempty, hdot, hdots⟩ := hplain name (List.mem_cons_self ..)
    have hsplit : p ++ name :: names = (p ++ [name]) ++ names := by simp
    have hlater : names ++ rest ≠ [] := fun hnil => hrest (List.append_eq_nil_iff.mp hnil).2
    have hp : t.entryAt p = some .directory := by
      by_contra hp
      rw [List.cons_append, walkWith, if_neg hp] at h
      cases h
    rw [List.cons_append, walkWith_name hp hempty hdot hdots] at h
    rw [hsplit]
    split at h
    · rw [if_neg hlater] at h
      cases h
    · rename_i target he
      refine absurd he ?_
      have hfirst := hnone [] name names target rfl
      rwa [List.append_nil] at hfirst
    · refine ih (fun x hx => hplain x (List.mem_cons_of_mem _ hx)) (fun q x more target hq => ?_) h
      have hmore := hnone (name :: q) x more target (by rw [hq]; rfl)
      rwa [show p ++ name :: q = p ++ [name] ++ q by simp] at hmore

/-- Opening a plain path without a link reaches the place of that name. -/
theorem opens_plain {names : List String} {last : String} (hplain : PlainNames (names ++ [last]))
    (hnone : ¬ MeetsLink t (names ++ [last])) {place : Place}
    (h : opens t maxLinks (names ++ [last]) = some place) : place = names ++ [last] := by
  obtain ⟨follow, hwalk, -⟩ := walk_eq t maxLinks
  obtain ⟨r, hr, rfl⟩ := Option.map_eq_some_iff.mp h
  have hok : walk t maxLinks [] (names ++ [last]) = .ok r := by
    cases hw : walk t maxLinks [] (names ++ [last]) with
    | error e => rw [hw] at hr; cases hr
    | ok r' => rw [hw] at hr; cases hr; rfl
  rw [hwalk] at hok
  obtain ⟨hdir, hlast⟩ := directory_of_walk (List.cons_ne_nil last []) names
    (fun x hx => hplain x (List.mem_append_left _ hx))
    (fun q name more target hq he => hnone ⟨q, name, more ++ [last], target, by rw [hq]; simp, he⟩)
    hok
  rw [List.nil_append] at hdir hlast
  obtain ⟨hempty, hdot, hdots⟩ := hplain last (List.mem_append_right _ (List.mem_singleton_self _))
  rw [walkWith_name hdir hempty hdot hdots] at hlast
  split at hlast
  · cases hlast
    rfl
  · rename_i target he
    exact absurd ⟨names, last, [], target, rfl, he⟩ hnone
  · cases hlast
    rfl

/-- Opening `..` behind plain names without a link reaches the directory above the one they name. -/
theorem opens_above {names : List String} (hplain : PlainNames names)
    (hnone : ¬ MeetsLink t (names ++ [".."])) {place : Place}
    (h : opens t maxLinks (names ++ [".."]) = some place) : place = names.dropLast := by
  obtain ⟨follow, hwalk, -⟩ := walk_eq t maxLinks
  obtain ⟨r, hr, rfl⟩ := Option.map_eq_some_iff.mp h
  have hok : walk t maxLinks [] (names ++ [".."]) = .ok r := by
    cases hw : walk t maxLinks [] (names ++ [".."]) with
    | error e => rw [hw] at hr; cases hr
    | ok r' => rw [hw] at hr; cases hr; rfl
  rw [hwalk] at hok
  obtain ⟨hdir, hlast⟩ := directory_of_walk (List.cons_ne_nil ".." []) names hplain
    (fun q name more target hq he => hnone ⟨q, name, more ++ [".."], target, by rw [hq]; simp, he⟩)
    hok
  rw [List.nil_append] at hdir hlast
  rw [walkWith, if_pos hdir, if_neg (by decide), if_pos rfl] at hlast
  cases hlast
  rfl

end Opening

/-- A normal path has plain names. -/
theorem plainNames_normPath (parts : List String) : PlainNames (normPath parts) := by
  have hfold : ∀ (rest base : List String), PlainNames base → PlainNames (rest.foldl
      (fun path name => if name = "" ∨ name = "." then path
        else if name = ".." then path.dropLast else path ++ [name]) base) := by
    intro rest
    induction rest with
    | nil => exact fun base hbase => hbase
    | cons name rest ih =>
      intro base hbase
      refine ih _ ?_
      dsimp only
      split
      · exact hbase
      split
      · exact fun x hx => hbase x (List.mem_of_mem_dropLast hx)
      · rename_i hskip hdots
        intro x hx
        rcases List.mem_append.mp hx with hx | hx
        · exact hbase x hx
        · rw [List.mem_singleton.mp hx]
          exact ⟨fun h => hskip (Or.inl h), fun h => hskip (Or.inr h), hdots⟩
  exact hfold parts [] fun x hx => absurd hx List.not_mem_nil

theorem plainNames_resolve {t : Tree} {maxLinks : Nat} {start p : Place} {path : List String}
    (h : resolve t maxLinks start path = .ok p) : PlainNames p := by
  unfold resolve at h
  split at h
  · cases h
  rename_i q hq
  split at h
  · cases h
  split at h
  · cases h
  · cases h
    unfold realPath at hq
    cases hjoin : joinRealPath t t.entries.length start path fun _ => none with
    | error e => rw [hjoin] at hq; cases hq
    | ok joined =>
      rw [hjoin] at hq
      cases hq
      exact plainNames_normPath joined.path

/-! ## Paths that meet no circle -/

/-- No link that the library meets leads back to itself: it resolves the path as a whole. -/
def Straight (t : Tree) (path : List String) : Prop :=
  ∀ joined, joinRealPath t t.entries.length [] path (fun _ => none) = .ok joined →
    joined.ok = true

/-- A path that is opened at the place it names: plain names, and no link among them. -/
structure Clean (t : Tree) (path : List String) : Prop where
  plain : PlainNames path
  noLink : ¬ MeetsLink t path

section Clean

variable {t : Tree}

theorem clean_nil : Clean t [] where
  plain := fun _ hname => absurd hname List.not_mem_nil
  noLink := by
    rintro ⟨p, name, rest, target, hpath, -⟩
    simp at hpath

/-- What a clean path begins with is clean. -/
theorem Clean.of_append {p rest : List String} (h : Clean t (p ++ rest)) : Clean t p where
  plain := fun name hname => h.plain name (List.mem_append_left _ hname)
  noLink := by
    rintro ⟨q, name, more, target, rfl, he⟩
    exact h.noLink ⟨q, name, more ++ rest, target, by simp, he⟩

theorem Clean.dropLast {p : List String} (h : Clean t p) : Clean t p.dropLast := by
  obtain ⟨rest, hrest⟩ := List.dropLast_prefix p
  rw [← hrest] at h
  exact h.of_append

theorem Clean.concat {p : List String} {name : String} (h : Clean t p)
    (hname : name ≠ "" ∧ name ≠ "." ∧ name ≠ "..")
    (hlink : ∀ target, t.entryAt (p ++ [name]) ≠ some (.link target)) : Clean t (p ++ [name]) where
  plain := by
    intro x hx
    rcases List.mem_append.mp hx with hx | hx
    · exact h.plain x hx
    · rw [List.mem_singleton.mp hx]
      exact hname
  noLink := by
    rintro ⟨q, x, rest, target, hpath, he⟩
    -- the link is the last name, or one of those before it
    rcases List.eq_nil_or_concat rest with rfl | ⟨init, last, rfl⟩
    · obtain ⟨rfl, hx⟩ := List.append_inj' hpath rfl
      cases hx
      exact hlink target he
    · rw [List.concat_eq_append, ← List.cons_append, ← List.append_assoc] at hpath
      obtain ⟨hp, -⟩ := List.append_inj' hpath rfl
      exact h.noLink ⟨q, x, init, target, hp, he⟩

theorem clean_linkStart {p : Place} (h : Clean t p) (target : String) :
    Clean t (linkStart p target) := by
  unfold linkStart
  split
  · exact clean_nil
  · exact h

/-- Every link that has been resolved leads to a clean place. -/
def CleanSeen (t : Tree) (seen : Seen) : Prop := ∀ p q, seen p = some (some q) → Clean t q

theorem CleanSeen.update {seen : Seen} (h : CleanSeen t seen) {value : Option Place}
    (hvalue : ∀ q, value = some q → Clean t q) (p : Place) :
    CleanSeen t (Function.update seen p (some value)) := by
  intro p' q hq
  by_cases hsame : p' = p
  · rw [hsame, Function.update_self] at hq
    exact hvalue q (Option.some.inj hq)
  · rw [Function.update_of_ne hsame] at hq
    exact h p' q hq

/-- What is resolved is clean. -/
def CleanJoined (t : Tree) (result : Except PathError Joined) : Prop :=
  ∀ joined, result = .ok joined → joined.ok = true →
    Clean t joined.path ∧ CleanSeen t joined.seen

theorem cleanJoined_error (e : PathError) : CleanJoined t (.error e) := fun _ h => by cases h

theorem cleanJoined_unresolved (path : List String) (seen : Seen) :
    CleanJoined t (.ok ⟨path, false, seen⟩) := fun _ h hok => by cases h; cases hok

/-- A step of the loop keeps the path clean, if what resolves the links does. -/
theorem cleanJoined_joinWith
    {resolveLink : Place → List String → Seen → Except PathError Joined}
    (hinner : ∀ path rest seen, Clean t path → CleanSeen t seen →
      CleanJoined t (resolveLink path rest seen)) (rest : List String) :
    ∀ (path : Place) (seen : Seen), Clean t path → CleanSeen t seen →
      CleanJoined t (joinWith t resolveLink path rest seen) := by
  induction rest with
  | nil =>
    intro path seen hpath hseen joined h _
    cases h
    exact ⟨hpath, hseen⟩
  | cons name rest ih =>
    intro path seen hpath hseen
    rw [joinWith]
    split
    · exact ih path seen hpath hseen
    rename_i hskip
    split
    · exact ih _ seen hpath.dropLast hseen
    rename_i hdots
    have hname : name ≠ "" ∧ name ≠ "." ∧ name ≠ ".." :=
      ⟨fun h => hskip (Or.inl h), fun h => hskip (Or.inr h), hdots⟩
    split
    · exact cleanJoined_error _
    split
    · rename_i target he
      cases hmet : seen (path ++ [name]) with
      | some value =>
        cases value with
        | some resolved => exact ih resolved seen (hseen _ _ hmet) hseen
        | none => exact cleanJoined_unresolved _ _
      | none =>
        have hclean := hinner (linkStart path target) (slashParts target)
          (Function.update seen (path ++ [name]) (some none)) (clean_linkStart hpath target)
          (hseen.update (fun _ h => by cases h) _)
        dsimp only
        split
        · exact cleanJoined_error _
        · rename_i inner hok
          split
          · rename_i hresolved
            obtain ⟨hplace, hlater⟩ := hclean inner hok hresolved
            refine ih inner.path _ hplace (hlater.update (fun q hq => ?_) _)
            rw [← Option.some.inj hq]
            exact hplace
          · exact cleanJoined_unresolved _ _
    · rename_i hlink
      exact ih _ seen (hpath.concat hname fun target he => hlink target he) hseen

theorem cleanJoined_joinRealPath (fuel : Nat) : ∀ (path : Place) (rest : List String) (seen : Seen),
    Clean t path → CleanSeen t seen → CleanJoined t (joinRealPath t fuel path rest seen) := by
  induction fuel with
  | zero =>
    exact fun path rest seen hpath hseen =>
      cleanJoined_joinWith (fun _ _ _ _ _ => cleanJoined_error _) rest path seen hpath hseen
  | succ fuel ih =>
    exact fun path rest seen hpath hseen => cleanJoined_joinWith ih rest path seen hpath hseen

/-- What a path without circles is resolved to is clean. -/
theorem clean_resolve {maxLinks : Nat} {path : List String} {p : Place}
    (hstraight : Straight t path) (h : resolve t maxLinks [] path = .ok p) : Clean t p := by
  unfold resolve at h
  split at h
  · cases h
  rename_i q hq
  split at h
  · cases h
  split at h
  · cases h
  · cases h
    unfold realPath at hq
    cases hjoin : joinRealPath t t.entries.length [] path fun _ => none with
    | error e => rw [hjoin] at hq; cases hq
    | ok joined =>
      rw [hjoin] at hq
      cases hq
      have hclean := (cleanJoined_joinRealPath _ [] path (fun _ => none) clean_nil
        (fun _ _ h => by cases h) joined hjoin (hstraight joined hjoin)).1
      show Clean t (normPath joined.path)
      rw [normPath_plain hclean.plain]
      exact hclean

/-- A clean path is opened at the place that it names. -/
theorem Clean.opens_eq {maxLinks : Nat} {path : List String} {place : Place} (h : Clean t path)
    (hopens : opens t maxLinks path = some place) : place = path := by
  rcases List.eq_nil_or_concat path with rfl | ⟨names, last, rfl⟩
  · obtain ⟨follow, hwalk, -⟩ := walk_eq t maxLinks
    unfold opens at hopens
    rw [hwalk, walkWith] at hopens
    cases hopens
    rfl
  · rw [List.concat_eq_append] at h hopens ⊢
    exact opens_plain h.plain h.noLink hopens

end Clean

end Links
