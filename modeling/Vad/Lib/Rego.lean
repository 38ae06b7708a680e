/-
  Rego, as far as a policy over one JSON input needs it: rules without arguments, whose bodies
  compare parts of the input, look a part up in a list of constants, refer to other rules, and
  negate.

  1. **Values** — the order that Rego has on all JSON values (`compareValues`); `==`, `!=` and `>`
     ask for its outcome.

  2. **Expressions** — an expression may be undefined (`none`).  It holds unless it is undefined or
     false; `null`, `0` and `""` hold.  `not` holds where the expression does not.

  3. **Rules** — the values of all rules are a fixed point: each rule is true if one of its bodies
     holds under these values, and has its default otherwise (`Policy.step`).  Rego refuses
     recursion, which a policy here shows by ranks that go down along references.  So there is one
     fixed point, and as many steps as there are ranks reach it (`value_fixed`, `value_unique`).

  4. **Conflicts** — two bodies clash when, by their syntax, an expression of one excludes an
     expression of the other.  Rules whose bodies clash pairwise are never both true (`disjoint`).
-/
import Vad.Lib.Dict
import Mathlib.Algebra.Order.Ring.Rat

namespace Rego

open Vad (Dict Json)

/-! ## Values -/

/-- The place of the types in the order. -/
def typeRank : Json → Nat
  | .null => 0
  | .bool _ => 1
  | .number _ => 2
  | .text _ => 3
  | .array _ => 4
  | .object _ => 5

mutual

/-- The order of values.  An object is given by its entries in the order of their keys. -/
def compareValues : Json → Json → Ordering
  | .bool a, .bool b => compare a b
  | .number a, .number b => compare a b
  | .text a, .text b => compare a b
  | .array as, .array bs => compareArrays as bs
  | .object as, .object bs => compareObjects as bs
  | a, b => compare (typeRank a) (typeRank b)

def compareArrays : List Json → List Json → Ordering
  | [], [] => .eq
  | [], _ :: _ => .lt
  | _ :: _, [] => .gt
  | a :: as, b :: bs => (compareValues a b).then (compareArrays as bs)

def compareObjects : List (String × Json) → List (String × Json) → Ordering
  | [], [] => .eq
  | [], _ :: _ => .lt
  | _ :: _, [] => .gt
  | (k, a) :: as, (l, b) :: bs =>
    (compare k l).then ((compareValues a b).then (compareObjects as bs))

end

mutual

/-- Values that the order does not tell apart are equal. -/
theorem compareValues_eq : ∀ a b : Json, compareValues a b = .eq ↔ a = b
  | .null, b => by cases b <;> simp [compareValues, typeRank]
  | .bool x, b => by
    cases b with
    | bool y => rw [compareValues, compare_eq_iff_eq, Json.bool.injEq]
    | _ => simp [compareValues, typeRank]
  | .number x, b => by
    cases b with
    | number y => rw [compareValues, compare_eq_iff_eq, Json.number.injEq]
    | _ => simp [compareValues, typeRank]
  | .text x, b => by
    cases b with
    | text y => rw [compareValues, compare_eq_iff_eq, Json.text.injEq]
    | _ => simp [compareValues, typeRank]
  | .array xs, b => by
    cases b with
    | array ys => rw [compareValues, compareArrays_eq xs ys, Json.array.injEq]
    | _ => simp [compareValues, typeRank]
  | .object xs, b => by
    cases b with
    | object ys => rw [compareValues, compareObjects_eq xs ys, Json.object.injEq]
    | _ => simp [compareValues, typeRank]

theorem compareArrays_eq : ∀ as bs : List Json, compareArrays as bs = .eq ↔ as = bs
  | [], bs => by cases bs <;> simp [compareArrays]
  | a :: as, bs => by
    cases bs with
    | nil => simp [compareArrays]
    | cons b bs =>
      rw [compareArrays, Ordering.then_eq_eq, compareValues_eq a b, compareArrays_eq as bs,
        List.cons.injEq]

theorem compareObjects_eq : ∀ as bs : List (String × Json), compareObjects as bs = .eq ↔ as = bs
  | [], bs => by cases bs <;> simp [compareObjects]
  | (k, a) :: as, bs => by
    cases bs with
    | nil => simp [compareObjects]
    | cons e bs =>
      obtain ⟨l, b⟩ := e
      rw [compareObjects, Ordering.then_eq_eq, Ordering.then_eq_eq, compare_eq_iff_eq,
        compareValues_eq a b, compareObjects_eq as bs, List.cons.injEq, Prod.mk.injEq, and_assoc]

end

instance : DecidableEq Json := fun a b => decidable_of_iff _ (compareValues_eq a b)

/-- `value[key]`. -/
def field (value : Json) (key : String) : Option Json :=
  match value with
  | .object entries => Dict.get entries key
  | _ => none

/-! ## Expressions -/

inductive Term where
  /-- `input.a.b`. -/
  | input (path : List String)
  | const (value : Json)
deriving DecidableEq

def Term.eval (input : Json) : Term → Option Json
  | .input path => path.foldl (fun value key => value.bind fun v => field v key) (some input)
  | .const value => some value

inductive Comparison where
  | eq | ne | gt
deriving DecidableEq, Repr

def Comparison.test : Comparison → Ordering → Bool
  | .eq, o => o = .eq
  | .ne, o => o ≠ .eq
  | .gt, o => o = .gt

/-- What is true of a rule of that name. -/
abbrev Valuation : Type := String → Option Json

/-- An expression of a body. -/
inductive Expr where
  | term (t : Term)
  | compare (op : Comparison) (a b : Term)
  /-- `t in [..]`. -/
  | member (t : Term) (values : List Json)
  | rule (name : String)
  | not (e : Expr)
deriving DecidableEq

/-- Defined, and not false. -/
def holds : Option Json → Bool
  | none => false
  | some (.bool false) => false
  | some _ => true

def Expr.eval (rules : Valuation) (input : Json) : Expr → Option Json
  | .term t => t.eval input
  | .compare op a b =>
    match a.eval input, b.eval input with
    | some x, some y => some (.bool (op.test (compareValues x y)))
    | _, _ => none
  | .member t values =>
    (t.eval input).map fun x => .bool (values.any fun v => compareValues x v = .eq)
  | .rule name => rules name
  | .not e => if holds (e.eval rules input) then none else some (.bool true)

/-- The rules that the expression refers to. -/
def Expr.refs : Expr → List String
  | .rule name => [name]
  | .not e => e.refs
  | _ => []

section Expressions

variable {rules rules' : Valuation} {input : Json}

@[simp] theorem holds_term (t : Term) :
    holds ((Expr.term t).eval rules input) = holds (t.eval input) := rfl

@[simp] theorem holds_rule (name : String) :
    holds ((Expr.rule name).eval rules input) = holds (rules name) := rfl

@[simp] theorem holds_not (e : Expr) :
    holds ((Expr.not e).eval rules input) = !holds (e.eval rules input) := by
  show holds (if holds (e.eval rules input) then none else some (.bool true)) = _
  cases holds (e.eval rules input) <;> rfl

/-- A comparison needs both sides. -/
@[simp] theorem holds_compare {op : Comparison} {a b : Term} :
    holds ((Expr.compare op a b).eval rules input) = true ↔
      ∃ x y, a.eval input = some x ∧ b.eval input = some y ∧
        op.test (compareValues x y) = true := by
  show holds (match a.eval input, b.eval input with
    | some x, some y => some (.bool (op.test (compareValues x y)))
    | _, _ => none) = true ↔ _
  cases a.eval input with
  | none => simp [holds]
  | some x =>
    cases b.eval input with
    | none => simp [holds]
    | some y => cases htest : op.test (compareValues x y) <;> simp [holds, htest]

@[simp] theorem holds_member {t : Term} {values : List Json} :
    holds ((Expr.member t values).eval rules input) = true ↔
      ∃ x, t.eval input = some x ∧ ∃ v ∈ values, compareValues x v = .eq := by
  show holds ((t.eval input).map fun x =>
    .bool (values.any fun v => decide (compareValues x v = .eq))) = true ↔ _
  cases t.eval input with
  | none => simp [holds]
  | some x =>
    cases hany : values.any fun v => decide (compareValues x v = .eq) <;>
      simp [holds, hany] <;> simpa using hany

/-- Only the rules referred to matter. -/
theorem Expr.eval_congr {e : Expr} (h : ∀ name ∈ e.refs, rules name = rules' name) :
    e.eval rules input = e.eval rules' input := by
  induction e with
  | term _ => rfl
  | compare _ _ _ => rfl
  | member _ _ => rfl
  | rule name => exact h name (List.mem_singleton.mpr rfl)
  | not e ih =>
    show (if holds (e.eval rules input) then _ else _) = if holds (e.eval rules' input) then _ else _
    rw [ih h]

end Expressions

/-! ## Rules -/

/-- `name { body }`: true where the body holds. -/
structure Rule where
  name : String
  body : List Expr

/-- The rules of a package and its defaults, without recursion. -/
structure Policy where
  rules : List Rule
  defaults : Dict Json
  rank : String → Nat
  descends : ∀ r ∈ rules, ∀ e ∈ r.body, ∀ name ∈ e.refs, rank name < rank r.name

namespace Policy

variable (p : Policy) (input : Json)

/-- One of the bodies of the rule holds under these values. -/
def fires (values : Valuation) (name : String) : Bool :=
  p.rules.any fun r => r.name = name && r.body.all fun e => holds (e.eval values input)

/-- The values of the rules, from values for the rules that they refer to. -/
def step (values : Valuation) : Valuation := fun name =>
  if p.fires input values name then some (.bool true) else Dict.get p.defaults name

/-- More than every rank of a rule. -/
def depth : Nat := (p.rules.map fun r => p.rank r.name + 1).foldr max 0

/-- The values of all rules. -/
def value : Valuation := (p.step input)^[p.depth + 1] fun _ => none

variable {p input}

theorem rank_lt_depth {r : Rule} (h : r ∈ p.rules) : p.rank r.name < p.depth := by
  unfold depth
  generalize p.rules = rules at h
  induction rules with
  | nil => cases h
  | cons first rest ih =>
    rw [List.map_cons, List.foldr_cons]
    rcases List.mem_cons.mp h with rfl | h
    · exact lt_of_lt_of_le (Nat.lt_succ_self _) (le_max_left _ _)
    · exact lt_of_lt_of_le (ih h) (le_max_right _ _)

/-- The values agree on all rules of a rank below `n`. -/
def AgreeBelow (p : Policy) (n : Nat) (values values' : Valuation) : Prop :=
  ∀ name, p.rank name < n → values name = values' name

theorem fires_congr {values values' : Valuation} {name : String}
    (h : p.AgreeBelow (p.rank name) values values') :
    p.fires input values name = p.fires input values' name := by
  have hbody : ∀ r ∈ p.rules, r.name = name →
      (r.body.all fun e => holds (e.eval values input)) =
        r.body.all fun e => holds (e.eval values' input) := by
    intro r hr hname
    have heval : ∀ e ∈ r.body, e.eval values input = e.eval values' input := fun e he =>
      Expr.eval_congr fun ref href => h ref (hname ▸ p.descends r hr e he ref href)
    rw [Bool.eq_iff_iff, List.all_eq_true, List.all_eq_true]
    exact forall₂_congr fun e he => by rw [heval e he]
  unfold fires
  rw [Bool.eq_iff_iff, List.any_eq_true, List.any_eq_true]
  refine exists_congr fun r => and_congr_right fun hr => ?_
  by_cases hname : r.name = name
  · rw [hbody r hr hname]
  · simp [hname]

/-- A step makes the values agree one rank further. -/
theorem AgreeBelow.step {values values' : Valuation} {n : Nat} (h : p.AgreeBelow n values values') :
    p.AgreeBelow (n + 1) (p.step input values) (p.step input values') := by
  intro name hrank
  have hfires : p.fires input values name = p.fires input values' name :=
    fires_congr fun ref href => h ref (by omega)
  show (if p.fires input values name then _ else _) = if p.fires input values' name then _ else _
  rw [hfires]

/-- From whatever values, `n` steps settle the ranks below `n`. -/
theorem agreeBelow_iterate (values values' : Valuation) (n : Nat) :
    p.AgreeBelow n ((p.step input)^[n] values) ((p.step input)^[n] values') := by
  induction n with
  | zero => exact fun name h => absurd h (Nat.not_lt_zero _)
  | succ n ih =>
    rw [Function.iterate_succ_apply', Function.iterate_succ_apply']
    exact ih.step

/-- As many steps as there are ranks, and one for the names without a rule, settle everything. -/
theorem iterate_depth (values values' : Valuation) :
    (p.step input)^[p.depth + 1] values = (p.step input)^[p.depth + 1] values' := by
  funext name
  rw [Function.iterate_succ_apply', Function.iterate_succ_apply']
  by_cases hrank : p.rank name < p.depth + 1
  · exact (agreeBelow_iterate values values' p.depth).step name hrank
  · -- no rule has this rank, so the name has its default in any case
    have hfires (values : Valuation) : p.fires input values name = false := by
      unfold fires
      rw [List.any_eq_false]
      intro r hr
      have hlt := rank_lt_depth hr
      have hne : r.name ≠ name := fun heq => hrank (by rw [← heq]; omega)
      simp [hne]
    show (if p.fires input _ name then _ else _) = if p.fires input _ name then _ else _
    rw [hfires, hfires]

/-- The values are a fixed point: each rule has the value that its bodies give it. -/
theorem value_fixed : p.step input (p.value input) = p.value input := by
  show p.step input ((p.step input)^[p.depth + 1] _) = _
  rw [← Function.iterate_succ_apply' (p.step input), Function.iterate_succ_apply]
  exact iterate_depth _ _

/-- There is no other one. -/
theorem value_unique {values : Valuation} (h : p.step input values = values) :
    values = p.value input := by
  have hiterate : (p.step input)^[p.depth + 1] values = values :=
    Function.iterate_fixed h _
  rw [← hiterate]
  exact iterate_depth _ _

/-- A rule without a default is true or undefined. -/
theorem value_eq (name : String) :
    p.value input name =
      if p.fires input (p.value input) name then some (.bool true) else Dict.get p.defaults name :=
  (congrFun value_fixed name).symm

/-- A rule that is not true by default is true exactly if one of its bodies holds. -/
theorem value_true {name : String} (hdefault : Dict.get p.defaults name ≠ some (.bool true)) :
    p.value input name = some (.bool true) ↔
      ∃ r ∈ p.rules, r.name = name ∧ ∀ e ∈ r.body, holds (e.eval (p.value input) input) = true := by
  rw [value_eq]
  have hfires : p.fires input (p.value input) name = true ↔
      ∃ r ∈ p.rules, r.name = name ∧ ∀ e ∈ r.body, holds (e.eval (p.value input) input) = true := by
    unfold fires
    simp only [List.any_eq_true, Bool.and_eq_true, decide_eq_true_eq, List.all_eq_true]
  rw [← hfires]
  split
  · rename_i h
    exact ⟨fun _ => h, fun _ => rfl⟩
  · rename_i h
    exact ⟨fun htrue => absurd htrue hdefault, fun htrue => absurd htrue h⟩

/-! ## Rules that are never both true -/

/-- The bodies of a rule. -/
def bodies (p : Policy) (name : String) : List (List Expr) :=
  (p.rules.filter fun r => r.name = name).map Rule.body

theorem value_true_iff {name : String} (hdefault : Dict.get p.defaults name ≠ some (.bool true)) :
    p.value input name = some (.bool true) ↔
      ∃ body ∈ p.bodies name, ∀ e ∈ body, holds (e.eval (p.value input) input) = true := by
  rw [value_true hdefault]
  simp only [bodies, List.mem_map, List.mem_filter, decide_eq_true_eq]
  constructor
  · rintro ⟨r, hr, hname, hbody⟩
    exact ⟨r.body, ⟨r, ⟨hr, hname⟩, rfl⟩, hbody⟩
  · rintro ⟨body, ⟨r, ⟨hr, hname⟩, rfl⟩, hbody⟩
    exact ⟨r, hr, hname, hbody⟩

end Policy

/-- No outcome of a comparison passes both tests. -/
def Comparison.excludes (op op' : Comparison) : Bool :=
  [Ordering.lt, .eq, .gt].all fun o => !(op.test o && op'.test o)

theorem Comparison.excludes_sound {op op' : Comparison} (h : op.excludes op' = true)
    (o : Ordering) : ¬ (op.test o = true ∧ op'.test o = true) := by
  rintro ⟨htest, htest'⟩
  have hall := List.all_eq_true.mp h o (by cases o <;> simp)
  rw [htest, htest'] at hall
  cases hall

/-- The expressions exclude each other: one is the negation of the other, or they compare the same
    term in ways that do, or they equate it with two constants. -/
def Expr.excludes (e e' : Expr) : Bool :=
  e = .not e' || e' = .not e ||
    match e, e' with
    | .compare op a b, .compare op' a' b' =>
      a = a' && (b = b' && op.excludes op' ||
        match op, b, op', b' with
        | .eq, .const v, .eq, .const v' => decide (v ≠ v')
        | _, _, _, _ => false)
    | _, _ => false

theorem Expr.excludes_sound {rules : Valuation} {input : Json} {e e' : Expr}
    (h : e.excludes e' = true) (he : holds (e.eval rules input) = true) :
    holds (e'.eval rules input) ≠ true := by
  intro he'
  unfold Expr.excludes at h
  simp only [Bool.or_eq_true, decide_eq_true_eq] at h
  rcases h with (rfl | rfl) | h
  · rw [holds_not, he'] at he
    cases he
  · rw [holds_not, he] at he'
    cases he'
  · split at h
    · rename_i op a b op' a' b'
      simp only [Bool.and_eq_true, Bool.or_eq_true, decide_eq_true_eq] at h
      obtain ⟨rfl, h⟩ := h
      obtain ⟨x, y, hx, hy, htest⟩ := holds_compare.mp he
      obtain ⟨x', y', hx', hy', htest'⟩ := holds_compare.mp he'
      obtain rfl := Option.some.inj (hx.symm.trans hx')
      rcases h with ⟨rfl, hops⟩ | h
      · obtain rfl := Option.some.inj (hy.symm.trans hy')
        exact Comparison.excludes_sound hops _ ⟨htest, htest'⟩
      · split at h
        · -- both constants would equal the term
          rename_i v v'
          obtain rfl := Option.some.inj hy
          obtain rfl := Option.some.inj hy'
          have hv := (compareValues_eq x v).mp (of_decide_eq_true htest)
          have hv' := (compareValues_eq x v').mp (of_decide_eq_true htest')
          exact of_decide_eq_true h (hv.symm.trans hv')
        · cases h
    · cases h

namespace Policy

variable {p : Policy} {input : Json}

/-- The expression denies a rule with a body among these expressions. -/
def refutes (p : Policy) (body : List Expr) (e : Expr) : Bool :=
  match e with
  | .not (.rule name) => (p.bodies name).any fun other => other.all fun e => e ∈ body
  | _ => false

/-- Some expression of one body excludes one of the other. -/
def clash (p : Policy) (body body' : List Expr) : Bool :=
  body'.any fun e' => p.refutes body e' || body.any fun e => e.excludes e'

theorem clash_sound {body body' : List Expr} (h : p.clash body body' = true)
    (hbody : ∀ e ∈ body, holds (e.eval (p.value input) input) = true) :
    ¬ ∀ e ∈ body', holds (e.eval (p.value input) input) = true := by
  intro hbody'
  obtain ⟨e', he', h⟩ := List.any_eq_true.mp h
  rcases Bool.or_eq_true_iff.mp h with h | h
  · -- `e'` denies a rule, and a body of that rule holds
    cases e' with
    | not inner =>
      cases inner with
      | rule name =>
        obtain ⟨other, hother, hall⟩ := List.any_eq_true.mp h
        have hholds : ∀ e ∈ other, holds (e.eval (p.value input) input) = true := fun e he =>
          hbody e (of_decide_eq_true (List.all_eq_true.mp hall e he))
        have hfires : p.fires input (p.value input) name = true := by
          obtain ⟨r, hr, rfl⟩ := List.mem_map.mp hother
          obtain ⟨hr, hname⟩ := List.mem_filter.mp hr
          refine List.any_eq_true.mpr ⟨r, hr, Bool.and_eq_true_iff.mpr ⟨hname, ?_⟩⟩
          exact List.all_eq_true.mpr hholds
        have hdenied := hbody' _ he'
        rw [holds_not, holds_rule, value_eq, if_pos hfires] at hdenied
        cases hdenied
      | _ => cases h
    | _ => cases h
  · obtain ⟨e, he, hexcludes⟩ := List.any_eq_true.mp h
    exact Expr.excludes_sound hexcludes (hbody e he) (hbody' e' he')

/-- Rules whose bodies clash pairwise are never both true. -/
theorem disjoint {name name' : String} (hdefault : Dict.get p.defaults name ≠ some (.bool true))
    (hdefault' : Dict.get p.defaults name' ≠ some (.bool true))
    (h : ∀ body ∈ p.bodies name, ∀ body' ∈ p.bodies name', p.clash body body' = true)
    (htrue : p.value input name = some (.bool true)) : p.value input name' ≠ some (.bool true) := by
  intro htrue'
  obtain ⟨body, hbody, hholds⟩ := (value_true_iff hdefault).mp htrue
  obtain ⟨body', hbody', hholds'⟩ := (value_true_iff hdefault').mp htrue'
  exact clash_sound (h body hbody body' hbody') hholds hholds'

end Policy

end Rego
