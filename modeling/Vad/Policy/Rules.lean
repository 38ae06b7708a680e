/-
  The policy of the repository (`policies/vad.rego`), and that its deny rules never contradict its
  allow rules.

  Every deny rule is about one action.  An allow rule for another action compares `input.action`
  with another text; the allow rules for the same action contain the opposite of one of the deny
  rule's conditions, or deny `forbidden_capability` where the deny rule's conditions are one of its
  bodies.  So the bodies clash pairwise (`deny_clashes_allow`).
-/
import Vad.Lib.Rego

namespace Vad

open Rego (Expr Term Rule Policy field)

/-! ## The rules -/

/-- `input.key == "text"`. -/
def isText (key text : String) : Expr := .compare .eq (.input [key]) (.const (.text text))

/-- `input.key != "text"`. -/
def isNotText (key text : String) : Expr := .compare .ne (.input [key]) (.const (.text text))

/-- `input.key in ["..", ..]`. -/
def isOneOf (key : String) (texts : List String) : Expr := .member (.input [key]) (texts.map .text)

/-- `input.key`. -/
def isGiven (key : String) : Expr := .term (.input [key])

def allowRules : List Rule := [
  ⟨"allow", [isText "action" "build", .compare .ne (.input ["builder"]) (.input ["approver"]),
    .not (.rule "forbidden_capability")]⟩,
  ⟨"allow", [isText "action" "use_model", isOneOf "model_tier" ["tier1", "tier2"]]⟩,
  ⟨"allow", [isText "action" "memory_access", isText "scope" "agent_local"]⟩,
  ⟨"allow", [isText "action" "use_tool", .not (.rule "forbidden_capability")]⟩,
  ⟨"allow", [isText "action" "delegate", .not (.rule "forbidden_capability")]⟩,
  ⟨"allow", [isText "action" "deploy_dry_run"]⟩,
  ⟨"allow", [isText "action" "deploy_apply", isNotText "environment" "production"]⟩,
  ⟨"allow", [isText "action" "deploy_apply", isText "environment" "production",
    isGiven "approval_ref", .compare .gt (.input ["telemetry_count"]) (.const (.number 0)),
    .compare .eq (.input ["rollback_enabled"]) (.const (.bool true))]⟩,
  ⟨"allow", [isText "action" "deploy_rollback", isGiven "rollback_approval_ref"]⟩]

def forbiddenRules : List Rule := [
  ⟨"forbidden_capability", [isText "action" "use_tool", isOneOf "tool" ["shell", "network"]]⟩,
  ⟨"forbidden_capability", [isText "action" "delegate",
    isOneOf "capability" ["shell", "network"]]⟩]

def denyRules : List Rule := [
  ⟨"deny_builder_self_approval", [isText "action" "build",
    .compare .eq (.input ["builder"]) (.input ["approver"])]⟩,
  ⟨"deny_unauthorized_tool", [isText "action" "use_tool", isOneOf "tool" ["shell", "network"]]⟩,
  ⟨"deny_model_tier", [isText "action" "use_model",
    .not (isOneOf "model_tier" ["tier1", "tier2"])]⟩,
  ⟨"deny_memory_scope", [isText "action" "memory_access", isNotText "scope" "agent_local"]⟩,
  ⟨"deny_unauthorized_delegation", [isText "action" "delegate",
    isOneOf "capability" ["shell", "network"]]⟩,
  ⟨"deny_deployment_apply_without_approval", [isText "action" "deploy_apply",
    isText "environment" "production", .not (isGiven "approval_ref")]⟩,
  ⟨"deny_deployment_missing_telemetry", [isText "action" "deploy_apply",
    isText "environment" "production",
    .compare .eq (.input ["telemetry_count"]) (.const (.number 0))]⟩,
  ⟨"deny_deployment_missing_rollback", [isText "action" "deploy_apply",
    isText "environment" "production",
    .compare .ne (.input ["rollback_enabled"]) (.const (.bool true))]⟩,
  ⟨"deny_deployment_rollback_without_approval", [isText "action" "deploy_rollback",
    .not (isGiven "rollback_approval_ref")]⟩]

/-- `package vad.policy`. -/
def vadPolicy : Policy where
  rules := allowRules ++ forbiddenRules ++ denyRules
  defaults := [("allow", .bool false)]
  rank name := if name = "forbidden_capability" then 0 else 1
  descends := by decide

section Bodies

variable {v : Rego.Valuation} {input : Json}

@[simp] theorem holds_isText {key text : String} :
    Rego.holds ((isText key text).eval v input) = true ↔ field input key = some (.text text) := by
  simp [isText, Term.eval, Rego.Comparison.test, Rego.compareValues_eq]

@[simp] theorem holds_isNotText {key text : String} :
    Rego.holds ((isNotText key text).eval v input) = true ↔
      ∃ x, field input key = some x ∧ x ≠ .text text := by
  simp [isNotText, Term.eval, Rego.Comparison.test, Rego.compareValues_eq]

@[simp] theorem holds_isGiven {key : String} :
    Rego.holds ((isGiven key).eval v input) = Rego.holds (field input key) := rfl

end Bodies

/-- The names of the deny rules. -/
def denyNames : List String := denyRules.map Rule.name

theorem default_deny {name : String} (h : name ∈ denyNames) :
    Dict.get vadPolicy.defaults name = none := by
  revert name
  decide

theorem deny_clashes_allow : ∀ name ∈ denyNames, ∀ body ∈ vadPolicy.bodies name,
    ∀ body' ∈ vadPolicy.bodies "allow", vadPolicy.clash body body' = true := by
  decide

/-- `allow` is true where the body of one of its rules holds. -/
theorem allow_iff {input : Json} : vadPolicy.value input "allow" = some (.bool true) ↔
    ∃ r ∈ allowRules, ∀ e ∈ r.body, Rego.holds (e.eval (vadPolicy.value input) input) = true := by
  have hbodies : vadPolicy.bodies "allow" = allowRules.map Rule.body := rfl
  rw [Policy.value_true_iff (by simp [vadPolicy, Dict.get]), hbodies]
  simp only [List.mem_map, exists_exists_and_eq_and]

/-- `allow` is true or false on every input. -/
theorem allow_cases (input : Json) : vadPolicy.value input "allow" = some (.bool true) ∨
    vadPolicy.value input "allow" = some (.bool false) := by
  rw [Policy.value_eq]
  split
  · exact Or.inl rfl
  · exact Or.inr rfl

/-- Where a deny rule is true, `allow` is false. -/
theorem allow_of_denied {input : Json} {name : String} (hname : name ∈ denyNames)
    (hdenied : vadPolicy.value input name = some (.bool true)) :
    vadPolicy.value input "allow" = some (.bool false) := by
  have hnot : vadPolicy.value input "allow" ≠ some (.bool true) :=
    Policy.disjoint (by rw [default_deny hname]; simp) (by simp [vadPolicy, Dict.get])
      (deny_clashes_allow name hname) hdenied
  exact (allow_cases input).resolve_left hnot

end Vad
