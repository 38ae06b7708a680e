/-
  URI references, split as RFC 3986 splits them.

  A reference is cut from left to right: a scheme that ends at the first colon, an authority after
  two slashes, the path up to the first `?` or `#`, the query up to the first `#`, and the fragment.
  A text is in origin form when it begins with one slash and no more: it has neither scheme nor
  authority, and its path is the beginning of the text itself (`split_originForm`).

  The host is what is left of an authority without the user information in front of its last `@`,
  without the brackets of an address and without the port.  A text that begins with a name has that
  name as its host unless an `@` follows in the authority (`hostOf_name_port`).
-/
import Mathlib.Data.List.DropRight
import Mathlib.Data.List.TakeWhile
import Vad.Lib.Text

namespace Uri

open PyText (Text)

/-- The five components; `none` is an absent one, which differs from an empty one. -/
structure Parts where
  scheme : Option Text := none
  authority : Option Text := none
  path : Text
  query : Option Text := none
  fragment : Option Text := none
deriving DecidableEq, Repr

/-- `scheme = ALPHA *( ALPHA / DIGIT / "+" / "-" / "." )`. -/
def isScheme : Text → Bool
  | [] => false
  | c :: rest => c.isAlpha && rest.all fun d => d.isAlphanum || d == '+' || d == '-' || d == '.'

/-- The scheme before the first colon, and what follows that. -/
def splitScheme (t : Text) : Option Text × Text :=
  match t.dropWhile (· ≠ ':') with
  | _ :: rest =>
    let scheme := t.takeWhile (· ≠ ':')
    if isScheme scheme then (some scheme, rest) else (none, t)
  | [] => (none, t)

/-- The authority between two slashes and the next of `/`, `?` and `#`. -/
def splitAuthority : Text → Option Text × Text
  | '/' :: '/' :: rest =>
    (some (rest.takeWhile fun c => c ≠ '/' && c ≠ '?' && c ≠ '#'),
      rest.dropWhile fun c => c ≠ '/' && c ≠ '?' && c ≠ '#')
  | t => (none, t)

/-- The characters of a path. -/
def inPath (c : Char) : Bool := c ≠ '?' && c ≠ '#'

/-- What follows the first occurrence of a character, if it comes first. -/
def after (c : Char) : Text → Option Text
  | d :: rest => if d = c then some rest else none
  | [] => none

def split (t : Text) : Parts :=
  let (scheme, t) := splitScheme t
  let (authority, t) := splitAuthority t
  let rest := t.dropWhile inPath
  { scheme := scheme
    authority := authority
    path := t.takeWhile inPath
    query := (after '?' rest).map (·.takeWhile (· ≠ '#'))
    fragment := after '#' (rest.dropWhile (· ≠ '#')) }

example : split "http://host:80/events?a=b#c".toList =
    ⟨some "http".toList, some "host:80".toList, "/events".toList, some "a=b".toList,
      some "c".toList⟩ := by decide

/-- One slash at the front, and no second one. -/
def OriginForm (t : Text) : Prop := ∃ rest, t = '/' :: rest ∧ rest.head? ≠ some '/'

theorem splitScheme_slash (rest : Text) : splitScheme ('/' :: rest) = (none, '/' :: rest) := by
  unfold splitScheme
  split
  · rw [if_neg]
    simp [isScheme]
  · rfl

theorem splitAuthority_originForm {t : Text} (h : OriginForm t) : splitAuthority t = (none, t) := by
  obtain ⟨rest, rfl, hrest⟩ := h
  unfold splitAuthority
  split
  · rename_i tail heq
    cases heq
    exact absurd rfl hrest
  · rfl

theorem split_originForm {t : Text} (h : OriginForm t) : (split t).path = t.takeWhile inPath := by
  have hauthority := splitAuthority_originForm h
  obtain ⟨rest, rfl, -⟩ := h
  simp only [split, splitScheme_slash, hauthority]

/-- The path of a text in origin form begins the text. -/
theorem path_prefix {t : Text} (h : OriginForm t) : (split t).path <+: t := by
  rw [split_originForm h]
  exact List.takeWhile_prefix inPath

/-! ## The host of an authority -/

/-- The characters of an authority: unreserved, sub-delimiters, percent, and its own delimiters. -/
def isAuthorityChar (c : Char) : Bool := c.isAlphanum || "-._~%!$&'()*+,;=:@[]".toList.contains c

/-- The authority at the beginning of a text; it ends where it can not go on. -/
def authorityOf (t : Text) : Text := t.takeWhile isAuthorityChar

/-- What follows the user information. -/
def hostPort (authority : Text) : Text := authority.rtakeWhile (· ≠ '@')

/-- The host without brackets and port. -/
def withoutPort : Text → Text
  | '[' :: address => address.takeWhile (· ≠ ']')
  | t => t.takeWhile (· ≠ ':')

/-- The host of the URI whose authority begins here. -/
def hostOf (t : Text) : Text := withoutPort (hostPort (authorityOf t))

example : hostOf "user:80@[::1]:8080/path".toList = "::1".toList := by decide

/-- A name that needs no brackets: authority characters without delimiters. -/
def IsName (name : Text) : Prop :=
  ∀ c ∈ name, isAuthorityChar c = true ∧ c ≠ '@' ∧ c ≠ ':' ∧ c ≠ '['

theorem hostPort_of_not_mem {t : Text} (h : '@' ∉ t) : hostPort t = t := by
  refine List.rtakeWhile_eq_self_iff.mpr fun c hc => decide_eq_true ?_
  rintro rfl
  exact h hc

/-- The last `@` decides: what stands in front of another text with one is user information. -/
theorem hostPort_append {front t : Text} (h : '@' ∈ t) : hostPort (front ++ t) = hostPort t := by
  obtain ⟨a, b, rfl, hb⟩ : ∃ a b, t = a ++ '@' :: b ∧ '@' ∉ b := by
    obtain ⟨b, a, hreverse, hb⟩ := List.eq_append_cons_of_mem (List.mem_reverse.mpr h)
    refine ⟨a.reverse, b.reverse, ?_, fun hin => hb (List.mem_reverse.mp hin)⟩
    have hback := congrArg List.reverse hreverse
    simpa using hback
  have htail (s : Text) : hostPort (s ++ '@' :: b) = b := by
    unfold hostPort List.rtakeWhile
    have hclean : ∀ c ∈ b.reverse, decide (c ≠ '@') = true := fun c hc => decide_eq_true <| by
      rintro rfl
      exact hb (List.mem_reverse.mp hc)
    rw [List.reverse_append, List.reverse_cons, List.append_assoc,
      List.takeWhile_append_of_pos hclean]
    simp
  rw [← List.append_assoc, htail, htail]

theorem withoutPort_name {name tail : Text} (hname : IsName name) (hne : name ≠ [])
    (htail : ∀ c ∈ tail.head?, c = ':') : withoutPort (name ++ tail) = name := by
  obtain ⟨c, rest, rfl⟩ := List.exists_cons_of_ne_nil hne
  have hc : c ≠ '[' := (hname c (List.mem_cons_self ..)).2.2.2
  have htake : (c :: rest ++ tail).takeWhile (· ≠ ':') = c :: rest := by
    rw [List.takeWhile_append_of_pos fun d hd => decide_eq_true (hname d hd).2.2.1]
    cases tail with
    | nil => exact List.append_nil _
    | cons d tail =>
      rw [htail d rfl, List.takeWhile_cons_of_neg (by decide)]
      exact List.append_nil _
  unfold withoutPort
  split
  · rename_i heq
    exact absurd (List.cons.inj heq).1 hc
  · exact htake

/-- The authority of a text that begins with a name. -/
theorem authorityOf_name {name t : Text} (hname : IsName name) :
    authorityOf (name ++ t) = name ++ authorityOf t :=
  List.takeWhile_append_of_pos fun c hc => (hname c hc).1

theorem not_mem_name {name : Text} (hname : IsName name) : '@' ∉ name :=
  fun h => (hname '@' h).2.1 rfl

/-- A name alone, or one that the path follows, is the host. -/
theorem hostOf_name {name t : Text} (hname : IsName name) (hne : name ≠ [])
    (ht : authorityOf t = []) : hostOf (name ++ t) = name := by
  unfold hostOf
  rw [authorityOf_name hname, ht, List.append_nil, hostPort_of_not_mem (not_mem_name hname)]
  have h := @withoutPort_name name [] hname hne fun c hc => nomatch hc
  rwa [List.append_nil] at h

/-- Behind a name and a colon, an `@` makes both user information. -/
theorem hostOf_name_port {name t : Text} (hname : IsName name) (hne : name ≠ []) :
    hostOf (name ++ ':' :: t) =
      if '@' ∈ authorityOf t then withoutPort (hostPort (authorityOf t)) else name := by
  have hcolon : authorityOf (':' :: t) = ':' :: authorityOf t :=
    List.takeWhile_cons_of_pos (by decide)
  unfold hostOf
  rw [authorityOf_name hname, hcolon]
  split
  · rename_i hat
    have hsplit : name ++ ':' :: authorityOf t = (name ++ [':']) ++ authorityOf t := by
      rw [List.append_assoc]
      rfl
    rw [hsplit, hostPort_append hat]
  · rename_i hat
    have hclean : '@' ∉ name ++ ':' :: authorityOf t := by
      intro h
      rcases List.mem_append.mp h with h | h
      · exact not_mem_name hname h
      · rcases List.mem_cons.mp h with h | h
        · exact absurd h (by decide)
        · exact hat h
    rw [hostPort_of_not_mem hclean]
    exact withoutPort_name hname hne fun c hc => (Option.some.inj hc).symm

end Uri
