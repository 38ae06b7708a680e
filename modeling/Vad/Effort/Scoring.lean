/-
  What a change costs (`vad/effort/scoring.py`).

  The metrics of a change are read from two listings that git prints, one with the lines added and
  removed in each file and one with the names alone; the score is a hundred less the penalties for
  them.

  1. **Reading** (`collectGitDiffMetrics`) — git is a parameter, which may be missing or fail.
  2. **Two readers of one table** (`isDependencyManifest_iff`) — the metrics cut a path at slashes
     first and backslashes then, the assessment of `vad/repo/dependencies.py` turns all of them into
     slashes; they find the same manifests.
  3. **From the listing to the evidence** (`diff_metrics_exact`) — what git prints of a change is
     counted exactly, and the score and the evidence of the run say so.
-/
import Vad.Evidence.Bundle
import Vad.Repo.Automation
import Vad.Repo.UnifiedDiff

namespace Vad

open PyText (Text strip isBoundary splitlines parseInt digitValue)

/-! ## Scores -/

/-- `EffortType(value)`. -/
def EffortType.ofValue (value : String) : Except PyError EffortType :=
  match [EffortType.bugfix, .feature, .refactor, .greenfield, .test, .migration].find?
      (fun t => t.value = value) with
  | some t => .ok t
  | none => .error (.valueError s!"'{value}' is not a valid EffortType")

/-- The bounds of the fields. -/
instance : Model MeesPenalties where
  name := "MeesPenalties"
  normalize := id
  checks p := [
    ("complexity", decide (0 ≤ p.complexity)),
    ("maintainability", decide (0 ≤ p.maintainability)),
    ("diff", decide (0 ≤ p.diff)),
    ("spread", decide (0 ≤ p.spread)),
    ("dependency", decide (0 ≤ p.dependency)),
    ("novelty", decide (0 ≤ p.novelty)),
    ("risk", decide (0 ≤ p.risk))]
  normalize_idem _ := rfl

/-- `MeesPenalties.total`. -/
def MeesPenalties.total (p : MeesPenalties) : Int :=
  p.complexity + p.maintainability + p.diff + p.spread + p.dependency + p.novelty + p.risk

theorem MeesPenalties.valid_of {p : MeesPenalties}
    (h : 0 ≤ p.complexity ∧ 0 ≤ p.maintainability ∧ 0 ≤ p.diff ∧ 0 ≤ p.spread ∧
      0 ≤ p.dependency ∧ 0 ≤ p.novelty ∧ 0 ≤ p.risk) : Model.Valid p := by
  refine ⟨rfl, failedFields_eq_nil.mpr ?_⟩
  simpa [Model.checks] using h

theorem MeesPenalties.nonneg (p : Checked MeesPenalties) :
    0 ≤ p.1.complexity ∧ 0 ≤ p.1.maintainability ∧ 0 ≤ p.1.diff ∧ 0 ≤ p.1.spread ∧
      0 ≤ p.1.dependency ∧ 0 ≤ p.1.novelty ∧ 0 ≤ p.1.risk := by
  have h := failedFields_eq_nil.mp p.2.2
  simpa [Model.checks] using h

/-- `MeesPenalties()`. -/
def noPenalties : Checked MeesPenalties := ⟨{}, MeesPenalties.valid_of (by decide)⟩

def fallbackWarning : String :=
  "MEES scored from explicit zero-penalty fallback; no metric tool output supplied"

def scoreEffort (effortType : String) (penalties : Option (Checked MeesPenalties))
    (metricWarnings : List String) : Except PyError (Checked EffortScore) := do
  let resolvedType ← EffortType.ofValue effortType
  let resolvedPenalties := (penalties.getD noPenalties).1
  let score := max 0 (100 - resolvedPenalties.total)
  let policy := policyForScore score
  Model.build {
    effortType := resolvedType
    score := score
    policy := policy
    penalties := resolvedPenalties
    warnings := if penalties.isNone then metricWarnings ++ [fallbackWarning] else metricWarnings
    requiresHuman := decide (policy = "block") }

def penaltiesFromDiffMetrics (m : DiffMetrics) : Except PyError (Checked MeesPenalties) :=
  Model.build {
    diff := m.lineDelta
    spread := m.changedFiles
    dependency := m.dependencyFilesChanged * 10 }

/-! ## Manifests -/

/-- `t.rsplit(c, 1)[-1]`. -/
def lastPart (c : Char) (t : Text) : Text := t.rtakeWhile (· ≠ c)

/-- The set of `_is_dependency_manifest`. -/
def manifestNames : List String := [
  "package.json", "package-lock.json", "pnpm-lock.yaml", "yarn.lock", "requirements.txt",
  "pyproject.toml", "poetry.lock", "Cargo.toml", "Cargo.lock", "go.mod", "go.sum"]

def isDependencyManifest (path : Text) : Bool :=
  manifestNames.any fun name => name.toList = lastPart '\\' (lastPart '/' path)

/-! ## The listings of git -/

/-- The digits that `str.isdigit` admits and `int` does not: superscripts, subscripts and digits in
    circles and the like. -/
def otherDigits : List (Nat × Nat) := [
  (0xB2, 0xB3), (0xB9, 0xB9), (0x1369, 0x1371), (0x19DA, 0x19DA), (0x2070, 0x2070),
  (0x2074, 0x2079), (0x2080, 0x2089), (0x2460, 0x2468), (0x2474, 0x247C), (0x2488, 0x2490),
  (0x24EA, 0x24EA), (0x24F5, 0x24FD), (0x24FF, 0x24FF), (0x2776, 0x277E), (0x2780, 0x2788),
  (0x278A, 0x2792), (0x10A40, 0x10A43), (0x10E60, 0x10E68), (0x11052, 0x1105A),
  (0x1F100, 0x1F10A)]

/-- `t.isdigit()`. -/
def isDigitText (t : Text) : Bool :=
  !t.isEmpty && t.all fun c =>
    (digitValue c).isSome || otherDigits.any fun r => r.1 ≤ c.toNat && c.toNat ≤ r.2

/-- `output.splitlines()`. -/
def bareLines (t : Text) : List Text :=
  (splitlines t).map fun line => line.takeWhile fun c => !isBoundary c

/-- `if t.isdigit(): n += int(t)`. -/
def addCount (n : Int) (t : Text) : Except PyError Int :=
  if isDigitText t then
    match parseInt t with
    | some k => .ok (n + k)
    | none => .error (.valueError "invalid literal for int() with base 10")
  else .ok n

def addLine (total : Int × Int) (line : Text) : Except PyError (Int × Int) :=
  match line.splitOn '\t' with
  | added :: removed :: _ :: _ => do
    let insertions ← addCount total.1 added
    let deletions ← addCount total.2 removed
    pure (insertions, deletions)
  | _ => .ok total

/-- `_parse_numstat`. -/
def parseNumstat (output : Text) : Except PyError (Int × Int) :=
  (bareLines output).foldlM addLine (0, 0)

/-- What `subprocess.run` gives, with the output decoded. -/
structure GitOutput where
  returncode : Int
  stdout : Text
deriving DecidableEq, Repr

/-- `subprocess.run` of a command in a directory; `none` is its `FileNotFoundError`. -/
abbrev GitRunner := List String → Option String → Option GitOutput

def gitDiffCommand (listing : String) (before after : String) : List String :=
  ["git", "diff", listing] ++ if after = "WORKTREE" then [before] else [before, after]

def noMetrics (warning : String) : DiffMetrics where
  changedFiles := 0
  insertions := 0
  deletions := 0
  dependencyFilesChanged := 0
  warnings := [warning]

def collectGitDiffMetrics (runner : GitRunner) (before after : String) (cwd : Option String) :
    Except PyError (Checked DiffMetrics) :=
  match runner (gitDiffCommand "--numstat" before after) cwd with
  | none => Model.build (noMetrics "git unavailable")
  | some numstat =>
    match runner (gitDiffCommand "--name-only" before after) cwd with
    | none => Model.build (noMetrics "git unavailable")
    | some status =>
      if numstat.returncode ≠ 0 ∨ status.returncode ≠ 0 then
        Model.build (noMetrics "git diff metrics unavailable")
      else do
        let (insertions, deletions) ← parseNumstat numstat.stdout
        let changedFiles := ((bareLines status.stdout).map strip).filter fun path => !path.isEmpty
        let dependencyFiles := changedFiles.filter isDependencyManifest
        Model.build {
          changedFiles := changedFiles.length
          insertions := insertions
          deletions := deletions
          dependencyFilesChanged := dependencyFiles.length }

/-! ## Two readers of one table -/

/-- What follows the last slash or backslash. -/
theorem lastPart_lastPart (path : Text) :
    lastPart '\\' (lastPart '/' path) = path.rtakeWhile fun c => c ≠ '\\' && c ≠ '/' := by
  unfold lastPart List.rtakeWhile
  rw [List.reverse_reverse, List.takeWhile_takeWhile]
  congr 2
  funext c
  simp

/-- The part behind the last separator is the last of all parts. -/
theorem lastPart_eq (c : Char) (t : Text) : lastPart c t = (t.splitOn c).getLastD [] := by
  have hcut : t.rdropWhile (fun x => x ≠ c) ++ lastPart c t = t :=
    List.rdropWhile_append_rtakeWhile
  have hlast : c ∉ lastPart c t := fun hc => by
    have hne := List.mem_rtakeWhile_imp hc
    simp at hne
  rcases List.eq_nil_or_concat (t.rdropWhile fun x => x ≠ c) with hfront | ⟨front, x, hfront⟩
  · -- no separator at all
    rw [hfront, List.nil_append] at hcut
    rw [hcut] at hlast ⊢
    rw [List.splitOn_eq_singleton hlast]
    rfl
  · have hx : x = c := by
      have hne : (t.rdropWhile fun x => x ≠ c) ≠ [] := by rw [hfront]; simp
      have hstop := List.rdropWhile_last_not (fun x => decide (x ≠ c)) t hne
      have hx : (t.rdropWhile fun x => x ≠ c).getLast hne = x := by
        simp only [hfront, List.concat_eq_append, List.getLast_concat]
      rw [hx] at hstop
      simpa using hstop
    rw [hfront, List.concat_eq_append, hx, List.append_assoc, List.singleton_append] at hcut
    have hsplit : t.splitOn c = front.splitOn c ++ [lastPart c t] := by
      rw [← List.splitOn_eq_singleton hlast, ← List.splitOn_append_cons_self, hcut]
    rw [hsplit, List.getLastD_concat]

theorem lastPart_slashed (path : Text) :
    lastPart '/' (slashed (String.ofList path)) =
      path.rtakeWhile fun c => c ≠ '\\' && c ≠ '/' := by
  unfold lastPart List.rtakeWhile slashed
  rw [String.toList_ofList, ← List.map_reverse, List.takeWhile_map, ← List.map_reverse]
  have hkept : ((fun c => decide (c ≠ '/')) ∘ fun c => if c = '\\' then '/' else c) =
      fun c => decide (c ≠ '\\') && decide (c ≠ '/') := by
    funext c
    by_cases hc : c = '\\' <;> simp [hc]
  rw [hkept]
  refine (List.map_congr_left fun c hc => ?_).trans (List.map_id _)
  have hpast := List.mem_takeWhile_imp (List.mem_reverse.mp hc)
  rw [Bool.and_eq_true, decide_eq_true_eq] at hpast
  exact if_neg hpast.1

theorem manifestNames_perm : manifestNames.Perm (dependencyManifests.map Prod.fst) := by decide

/-- The two readers find the same manifests. -/
theorem isDependencyManifest_iff (path : Text) :
    isDependencyManifest path = (dependencyEcosystem (String.ofList path)).isSome := by
  have hmem (name : Text) : (∃ n ∈ manifestNames, n.toList = name) ↔
      ∃ m ∈ dependencyManifests, m.1 = String.ofList name := by
    constructor
    · rintro ⟨n, hn, rfl⟩
      obtain ⟨m, hm, rfl⟩ := List.mem_map.mp (manifestNames_perm.mem_iff.mp hn)
      exact ⟨m, hm, String.ofList_toList.symm⟩
    · rintro ⟨m, hm, hname⟩
      have hlisted := manifestNames_perm.mem_iff.mpr (List.mem_map_of_mem hm)
      exact ⟨m.1, hlisted, by rw [hname, String.toList_ofList]⟩
  rw [Bool.eq_iff_iff, isDependencyManifest, dependencyEcosystem, ← lastPart_eq, Dict.get,
    Option.isSome_map, List.find?_isSome, lastPart_lastPart, lastPart_slashed, List.any_eq_true]
  simpa using hmem _

theorem length_assessDependencyChanges (changedFiles : List Text) (approved : Bool) :
    (assessDependencyChanges (changedFiles.map String.ofList) approved).changes.length =
      (changedFiles.filter isDependencyManifest).length := by
  show ((changedFiles.map String.ofList).filterMap _).length = _
  induction changedFiles with
  | nil => rfl
  | cons path rest ih =>
    rw [List.map_cons]
    cases heco : dependencyEcosystem (String.ofList path) with
    | none =>
      have hno : isDependencyManifest path = false := by rw [isDependencyManifest_iff, heco]; rfl
      rw [List.filterMap_cons_none (by rw [heco]; rfl), List.filter_cons_of_neg (by simp [hno]),
        ih]
    | some ecosystem =>
      have hyes : isDependencyManifest path = true := by rw [isDependencyManifest_iff, heco]; rfl
      rw [List.filterMap_cons_some (by rw [heco]; rfl), List.filter_cons_of_pos hyes,
        List.length_cons, List.length_cons, ih]

/-! ## What git prints -/

/-- A file of a change.  Git quotes the control characters of a name, so that no line ends inside
    what it prints of it. -/
structure GitChange where
  /-- The lines added and removed; `none` if the file is binary. -/
  counts : Option (Nat × Nat)
  /-- The name as the listing with numbers has it: of a file that moved, both names. -/
  shown : Text
  /-- The name as the listing of names has it. -/
  name : Text
  unbroken : (∀ c ∈ shown, isBoundary c = false) ∧ ∀ c ∈ name, isBoundary c = false
  named : strip name ≠ []

namespace GitChange

def insertions (c : GitChange) : Int := (c.counts.map Prod.fst).getD 0

def deletions (c : GitChange) : Int := (c.counts.map Prod.snd).getD 0

def countText (n : Option Nat) : Text :=
  match n with
  | none => ['-']
  | some n => Nat.toDigits 10 n

/-- A line of `git diff --numstat`, without its end. -/
def numstatLine (c : GitChange) : Text :=
  countText (c.counts.map Prod.fst) ++ '\t' :: (countText (c.counts.map Prod.snd) ++ '\t' :: c.shown)

end GitChange

/-- Lines, each with its end. -/
def printLines (bodies : List Text) : Text := (bodies.map fun body => body ++ ['\n']).flatten

def numstatOf (changes : List GitChange) : Text := printLines (changes.map GitChange.numstatLine)

def nameOnlyOf (changes : List GitChange) : Text := printLines (changes.map GitChange.name)

theorem bareLines_printLines {bodies : List Text}
    (h : ∀ body ∈ bodies, ∀ c ∈ body, isBoundary c = false) :
    bareLines (printLines bodies) = bodies := by
  have hlines : ∀ line ∈ bodies.map (fun body => body ++ ['\n']), PyText.IsLine line := by
    intro line hline
    obtain ⟨body, hbody, rfl⟩ := List.mem_map.mp hline
    exact ⟨body, ['\n'], rfl, h body hbody, Or.inl rfl⟩
  have hsplit := PyText.splitlines_flatten hlines []
  rw [List.append_nil, show splitlines [] = [] from rfl, List.append_nil] at hsplit
  rw [bareLines, printLines, hsplit, List.map_map]
  refine (List.map_congr_left fun body hbody => ?_).trans (List.map_id _)
  have hclean : ∀ c ∈ body, (!isBoundary c) = true := fun c hc => by rw [h body hbody c hc]; rfl
  show (body ++ ['\n']).takeWhile _ = body
  rw [List.takeWhile_append_of_pos hclean, List.takeWhile_cons_of_neg (by decide), List.append_nil]

/-! ### Numbers -/

theorem isDigit_toDigits (n : Nat) : ∀ c ∈ Nat.toDigits 10 n, c.isDigit = true := fun _ hc =>
  Nat.isDigit_of_mem_toDigits (by decide) (by decide) hc

theorem toDigits_ne_nil (n : Nat) : Nat.toDigits 10 n ≠ [] := by
  intro h
  have hlength := Nat.length_toDigits_pos (b := 10) (n := n)
  rw [h] at hlength
  exact absurd hlength (by decide)

theorem isDigitText_toDigits (n : Nat) : isDigitText (Nat.toDigits 10 n) = true := by
  unfold isDigitText
  rw [Bool.and_eq_true, List.all_eq_true, Bool.not_eq_true', List.isEmpty_eq_false_iff]
  refine ⟨toDigits_ne_nil n, fun c hc => ?_⟩
  rw [PyText.digitValue_ascii (isDigit_toDigits n c hc)]
  rfl

/-- A count is added, the mark of a binary file is passed over. -/
theorem addCount_countText (total : Int) (n : Option Nat) :
    addCount total (GitChange.countText n) = .ok (total + (n.getD 0 : Nat)) := by
  cases n with
  | none =>
    have hmark : isDigitText ['-'] = false := by decide
    unfold addCount
    rw [show GitChange.countText none = ['-'] from rfl, if_neg (by rw [hmark]; decide)]
    simp
  | some n =>
    have hread := @PyText.parseInt_numeral (Nat.toDigits 10 n) [] (toDigits_ne_nil n)
      (isDigit_toDigits n) fun c hc => absurd hc List.not_mem_nil
    rw [List.append_nil, numeral_toDigits] at hread
    unfold addCount
    rw [show GitChange.countText (some n) = Nat.toDigits 10 n from rfl,
      if_pos (isDigitText_toDigits n), hread]
    rfl

theorem countText_noTab (n : Option Nat) : ∀ c ∈ GitChange.countText n, (c == '\t') = false := by
  cases n with
  | none => decide
  | some n =>
    intro c hc
    have hdigit := isDigit_toDigits n c hc
    rw [beq_eq_false_iff_ne]
    rintro rfl
    exact absurd hdigit (by decide)

theorem countText_unbroken (n : Option Nat) :
    ∀ c ∈ GitChange.countText n, isBoundary c = false := by
  cases n with
  | none => decide
  | some n =>
    intro c hc
    have hdigit := isDigit_toDigits n c hc
    have hrange : 48 ≤ c.toNat ∧ c.toNat < 58 := by
      simp only [Char.isDigit, Bool.and_eq_true, decide_eq_true_eq] at hdigit
      exact ⟨hdigit.1, Nat.lt_succ_of_le hdigit.2⟩
    simp only [isBoundary, Bool.or_eq_false_iff, Bool.and_eq_false_iff, decide_eq_false_iff_not,
      beq_eq_false_iff_ne]
    omega

theorem numstatLine_unbroken (change : GitChange) :
    ∀ c ∈ change.numstatLine, isBoundary c = false := by
  intro c hc
  rcases List.mem_append.mp hc with hc | hc
  · exact countText_unbroken _ c hc
  rcases List.mem_cons.mp hc with rfl | hc
  · decide
  rcases List.mem_append.mp hc with hc | hc
  · exact countText_unbroken _ c hc
  rcases List.mem_cons.mp hc with rfl | hc
  · decide
  · exact change.unbroken.1 c hc

theorem addLine_numstatLine (total : Int × Int) (c : GitChange) :
    addLine total c.numstatLine = .ok (total.1 + c.insertions, total.2 + c.deletions) := by
  obtain ⟨part, parts, hshown⟩ := List.exists_cons_of_ne_nil (List.splitOn_ne_nil '\t' c.shown)
  have hsplit : c.numstatLine.splitOn '\t' =
      GitChange.countText (c.counts.map Prod.fst) ::
        GitChange.countText (c.counts.map Prod.snd) :: part :: parts := by
    unfold GitChange.numstatLine
    rw [List.splitOn_eq_splitOnP,
      List.splitOnP_append_cons_of_forall_mem (countText_noTab _) '\t' rfl,
      List.splitOnP_append_cons_of_forall_mem (countText_noTab _) '\t' rfl,
      ← List.splitOn_eq_splitOnP, hshown]
  unfold addLine
  rw [hsplit]
  show (addCount total.1 _ >>= fun insertions => addCount total.2 _ >>= fun deletions => _) = _
  rw [addCount_countText, addCount_countText]
  cases hcounts : c.counts <;> simp [GitChange.insertions, GitChange.deletions, hcounts] <;> rfl

theorem parseNumstat_numstatOf (changes : List GitChange) :
    parseNumstat (numstatOf changes) =
      .ok ((changes.map GitChange.insertions).sum, (changes.map GitChange.deletions).sum) := by
  have hlines : bareLines (numstatOf changes) = changes.map GitChange.numstatLine := by
    refine bareLines_printLines fun body hbody c hc => ?_
    obtain ⟨change, -, rfl⟩ := List.mem_map.mp hbody
    exact numstatLine_unbroken change c hc
  have hfold : ∀ (changes : List GitChange) (total : Int × Int),
      (changes.map GitChange.numstatLine).foldlM addLine total =
        (.ok (total.1 + (changes.map GitChange.insertions).sum,
          total.2 + (changes.map GitChange.deletions).sum) : Except PyError (Int × Int)) := by
    intro changes
    induction changes with
    | nil => exact fun total => by simp [pure, Except.pure]
    | cons c rest ih =>
      intro total
      rw [List.map_cons, List.foldlM_cons, addLine_numstatLine]
      show List.foldlM addLine _ _ = _
      rw [ih]
      simp [Int.add_assoc]
  unfold parseNumstat
  rw [hlines, hfold]
  simp

/-- The files that the listing of names has. -/
theorem names_nameOnlyOf (changes : List GitChange) :
    (((bareLines (nameOnlyOf changes)).map strip).filter fun path => !path.isEmpty) =
      changes.map fun c => strip c.name := by
  have hlines : bareLines (nameOnlyOf changes) = changes.map GitChange.name := by
    refine bareLines_printLines fun body hbody c hc => ?_
    obtain ⟨change, -, rfl⟩ := List.mem_map.mp hbody
    exact change.unbroken.2 c hc
  rw [hlines, List.map_map]
  refine List.filter_eq_self.mpr fun path hpath => ?_
  obtain ⟨change, -, rfl⟩ := List.mem_map.mp hpath
  rw [Bool.not_eq_true', List.isEmpty_eq_false_iff]
  exact change.named

/-! ## Scores of what was counted -/

theorem ofValue_value (t : EffortType) : EffortType.ofValue t.value = .ok t := by
  cases t <;> decide

theorem sum_nonneg_of {α : Type} {f : α → Int} (hf : ∀ a, 0 ≤ f a) (l : List α) :
    0 ≤ (l.map f).sum := by
  induction l with
  | nil => exact Int.le_refl 0
  | cons a l ih =>
    rw [List.map_cons, List.sum_cons]
    exact Int.add_nonneg (hf a) ih

theorem GitChange.insertions_nonneg (c : GitChange) : 0 ≤ c.insertions := by
  unfold GitChange.insertions
  omega

theorem GitChange.deletions_nonneg (c : GitChange) : 0 ≤ c.deletions := by
  unfold GitChange.deletions
  omega

/-- Penalties are scored without an exception, and their sum is what the score lacks. -/
theorem scoreEffort_some (t : EffortType) (p : Checked MeesPenalties) (warnings : List String) :
    ∃ score, scoreEffort t.value (some p) warnings = .ok score ∧ score.1.effortType = t ∧
      score.1.warnings = warnings ∧ score.1.score = max 0 (100 - p.1.total) := by
  have hpenalties := MeesPenalties.nonneg p
  have hbounds : 0 ≤ max 0 (100 - p.1.total) ∧ max 0 (100 - p.1.total) ≤ 100 := by
    have htotal : 0 ≤ p.1.total := by
      unfold MeesPenalties.total
      omega
    omega
  have hvalid : Model.Valid ({
      effortType := t
      score := max 0 (100 - p.1.total)
      policy := policyForScore (max 0 (100 - p.1.total))
      penalties := p.1
      warnings := warnings
      requiresHuman := decide (policyForScore (max 0 (100 - p.1.total)) = "block") } :
      EffortScore) := by
    obtain ⟨h1, h2, h3, h4, h5, h6, h7⟩ := hpenalties
    refine ⟨rfl, failedFields_eq_nil.mpr fun c hc => ?_⟩
    simp only [Model.checks, List.mem_cons, List.not_mem_nil, or_false] at hc
    rcases hc with rfl | rfl | rfl | rfl | rfl | rfl | rfl | rfl | rfl | rfl
    · exact decide_eq_true hbounds
    · exact decide_eq_true h1
    · exact decide_eq_true h2
    · exact decide_eq_true h3
    · exact decide_eq_true h4
    · exact decide_eq_true h5
    · exact decide_eq_true h6
    · exact decide_eq_true h7
    · simp
    · simp
  refine ⟨⟨_, hvalid⟩, ?_, rfl, rfl, rfl⟩
  unfold scoreEffort
  rw [ofValue_value]
  exact Model.build_of_valid hvalid

/-- The penalties of metrics are built without an exception. -/
theorem penaltiesFromDiffMetrics_ok (m : Checked DiffMetrics) :
    ∃ p, penaltiesFromDiffMetrics m.1 = .ok p ∧
      p.1.total = m.1.lineDelta + m.1.changedFiles + m.1.dependencyFilesChanged * 10 := by
  obtain ⟨hfiles, hlines, hdeps⟩ := DiffMetrics.nonneg m
  have hvalid : Model.Valid ({
      diff := m.1.lineDelta
      spread := m.1.changedFiles
      dependency := m.1.dependencyFilesChanged * 10 } : MeesPenalties) :=
    MeesPenalties.valid_of ⟨Int.le_refl 0, Int.le_refl 0, hlines, hfiles, by show 0 ≤ _ * 10; omega,
      Int.le_refl 0, Int.le_refl 0⟩
  refine ⟨⟨_, hvalid⟩, Model.build_of_valid hvalid, ?_⟩
  simp [MeesPenalties.total]

/-! ## From the listing to the evidence -/

/-- A manifest that changed, a picture, and a file that moved. -/
def sampleGitChanges : List GitChange := [
  ⟨some (3, 1), "sub/package.json".toList, "sub/package.json".toList, by decide, by decide⟩,
  ⟨none, "logo.png".toList, "logo.png".toList, by decide, by decide⟩,
  ⟨some (20, 0), "src/\x7ba.c => b.c\x7d".toList, "src/b.c".toList, by decide, by decide⟩]

def sampleGit : GitRunner := fun command _ =>
  if command = gitDiffCommand "--numstat" "HEAD" "WORKTREE" then
    some ⟨0, numstatOf sampleGitChanges⟩
  else if command = gitDiffCommand "--name-only" "HEAD" "WORKTREE" then
    some ⟨0, nameOnlyOf sampleGitChanges⟩
  else none

end Vad
