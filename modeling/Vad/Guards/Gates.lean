/-
  The gates that ask the policy engine (`vad/guards`, `vad/adapters/a2a.py` and the check in front
  of `vad/evidence/provenance.py`).

  Each asks in its own way: the guards of tools, models and memory ask a deny rule and take any
  truthy answer for a yes, two of them ask `allow` as well and take only `true`; the others ask for
  a decision.  And each fills in the input by itself, the guard of commands with another tool than
  the executable where that is a shell.

  1. **Rules** (`allow_action`) — what the policy says of an input that names one action.
  2. **Gates** (`Gate.passes`) — what the code asks and makes of the answers.
  3. **One policy** (`gates_follow_policy`) — a gate passes exactly what `allow` says of its input,
     as far as it asks, and this comes to a plain condition on what is to be done.
-/
import Vad.Policy.Engine

namespace Vad

open Rego (Policy Rule field)

/-! ## What the gates ask about -/

/-- `{"action": action, key: value}`. -/
def actionInput (action key : String) (value : Json) : Json :=
  .object [("action", .text action), (key, value)]

/-- The input of a build. -/
def buildInput (builder approver : String) : Json :=
  .object [("action", .text "build"), ("approver", .text approver), ("builder", .text builder)]

/-- The input of a message from one agent to another. -/
def delegateInput (capability : Json) (sender receiver : String) : Json :=
  .object [("action", .text "delegate"), ("capability", capability), ("receiver", .text receiver),
    ("sender", .text sender)]

/-- `bool(value)` of a query that may have no result. -/
def truthyAnswer (value : Option Json) : Bool := value.any truthy

/-! ## Gates -/

section Guards

variable (run : Subprocess) (policyPath : String)

/-- `ToolGuard.check_tool_access`. -/
def checkToolAccess (toolName : String) : Except PolicyError Bool := do
  let isDenied ← evaluate run policyPath "data.vad.policy.deny_unauthorized_tool"
    (actionInput "use_tool" "tool" (.text toolName))
  pure (!truthyAnswer isDenied)

/-- The two queries of a guard that asks a deny rule first and `allow` then. -/
def checkBoth (denyQuery : String) (input : Json) : Except PolicyError Bool := do
  let isDenied ← evaluate run policyPath denyQuery input
  if truthyAnswer isDenied then
    pure false
  else
    let isAllowed ← evaluate run policyPath "data.vad.policy.allow" input
    pure (decide (isAllowed = some (.bool true)))

/-- `MemoryGuard.check_memory_access`. -/
def checkMemoryAccess (scope : String) : Except PolicyError Bool :=
  checkBoth run policyPath "data.vad.policy.deny_memory_scope"
    (actionInput "memory_access" "scope" (.text scope))

/-- `ModelGuard.check_model_access`. -/
def checkModelAccess (modelTier : String) : Except PolicyError Bool :=
  checkBoth run policyPath "data.vad.policy.deny_model_tier"
    (actionInput "use_model" "model_tier" (.text modelTier))

/-- `_contains_shell_control`. -/
def containsShellControl (value : String) : Bool :=
  [";", "&&", "||", "|", "$(", "`", ">", "<"].any fun token => token.toList <:+: value.toList

/-- The executables that a guard allows by default. -/
def defaultExecutables : List String := ["pytest", "python", "python3"]

/-- The tool that a command is for the policy. -/
def policyTool (executable : String) : String :=
  if executable ∈ ["sh", "bash", "powershell", "cmd"] then "shell" else executable

/-- `ExecutionGuard.check`. -/
def checkCommand (allowedExecutables : List String) (command : List String) :
    Except PolicyError PolicyDecision :=
  match command with
  | [] => .ok { allow := false, denials := ["empty command"] }
  | executable :: _ =>
    if executable ∉ allowedExecutables then
      .ok { allow := false, denials := [s!"executable not allowed: {executable}"] }
    else if command.any containsShellControl then
      .ok { allow := false, denials := ["shell control syntax is not allowed"] }
    else do
      let decision ← evaluateDecision run policyPath
        (actionInput "use_tool" "tool" (.text (policyTool executable)))
      if decision.denials ≠ [] then
        pure decision
      else
        pure { allow := true, reasons := [s!"executable allowed: {executable}"] }

/-- The capability that a message is sent for. -/
def messageCapability (action : String) (payload : Dict Json) : Json :=
  (Dict.get payload "capability").getD (.text action)

/-- The check in front of a build: the deny rule, and `allow`. -/
def checkBuild (builder approver : String) : Except PolicyError Bool := do
  let isDenied ← evaluate run policyPath "data.vad.policy.deny_builder_self_approval"
    (buildInput builder approver)
  if truthyAnswer isDenied then
    pure false
  else
    let isAllowed ← evaluate run policyPath "data.vad.policy.allow" (buildInput builder approver)
    pure (truthyAnswer isAllowed)

end Guards

/-- A question to one of the gates. -/
inductive Gate where
  | tool (name : String)
  | memory (scope : String)
  | model (tier : String)
  | command (allowedExecutables : List String) (executable : String) (arguments : List String)
  | message (action : String) (payload : Dict Json) (sender receiver : String)
  | build (builder approver : String)

namespace Gate

/-- What the gate answers. -/
def passes (run : Subprocess) (policyPath : String) : Gate → Except PolicyError Bool
  | tool name => checkToolAccess run policyPath name
  | memory scope => checkMemoryAccess run policyPath scope
  | model tier => checkModelAccess run policyPath tier
  | command allowed executable arguments => do
    let decision ← checkCommand run policyPath allowed (executable :: arguments)
    pure decision.allow
  | message action payload sender receiver => do
    let decision ← evaluateDecision run policyPath
      (delegateInput (messageCapability action payload) sender receiver)
    pure decision.allow
  | build builder approver => checkBuild run policyPath builder approver

/-- What the policy is asked about. -/
def input : Gate → Json
  | tool name => actionInput "use_tool" "tool" (.text name)
  | memory scope => actionInput "memory_access" "scope" (.text scope)
  | model tier => actionInput "use_model" "model_tier" (.text tier)
  | command _ executable _ => actionInput "use_tool" "tool" (.text (policyTool executable))
  | message action payload sender receiver =>
    delegateInput (messageCapability action payload) sender receiver
  | build builder approver => buildInput builder approver

/-- The action that the policy is asked about. -/
def action : Gate → String
  | tool _ | command .. => "use_tool"
  | memory _ => "memory_access"
  | model _ => "use_model"
  | message .. => "delegate"
  | build .. => "build"

/-- What the gate checks by itself. -/
def admitted : Gate → Prop
  | command allowed executable arguments =>
    executable ∈ allowed ∧ ∀ part ∈ executable :: arguments, containsShellControl part = false
  | _ => True

/-- What the policy comes to. -/
def permitted : Gate → Prop
  | tool name => name ∉ ["shell", "network"]
  | memory scope => scope = "agent_local"
  | model tier => tier ∈ ["tier1", "tier2"]
  | command _ executable _ =>
    executable ∉ ["sh", "bash", "powershell", "cmd", "shell", "network"]
  | message action payload _ _ =>
    messageCapability action payload ∉ [.text "shell", .text "network"]
  | build builder approver => builder ≠ approver

end Gate

/-! ## Rules -/

section Rules

variable {input : Json}

/-- A rule without a default holds exactly where it is true. -/
theorem holds_value {name : String} (hdefault : Dict.get vadPolicy.defaults name = none) :
    Rego.holds (vadPolicy.value input name) = true ↔
      vadPolicy.value input name = some (.bool true) := by
  rw [Policy.value_eq]
  split
  · simp [Rego.holds]
  · simp [Rego.holds, hdefault]

/-- A rule without a default is truthy exactly where it is true. -/
theorem truthyAnswer_value {name : String} (hdefault : Dict.get vadPolicy.defaults name = none) :
    truthyAnswer (vadPolicy.value input name) = true ↔
      vadPolicy.value input name = some (.bool true) := by
  rw [Policy.value_eq]
  split
  · simp [truthyAnswer, truthy]
  · simp [truthyAnswer, hdefault]

theorem truthyAnswer_allow :
    truthyAnswer (vadPolicy.value input "allow") = true ↔
      vadPolicy.value input "allow" = some (.bool true) := by
  rcases allow_cases input with h | h
  · simp [h, truthyAnswer, truthy]
  · simp [h, truthyAnswer, truthy]

theorem holds_isOneOf {v : Rego.Valuation} {key : String} {texts : List String} :
    Rego.holds ((isOneOf key texts).eval v input) = true ↔
      ∃ x, field input key = some x ∧ x ∈ texts.map Json.text := by
  simp [isOneOf, Rego.Term.eval, Rego.compareValues_eq]

/-- What is not forbidden for a tool or a delegation. -/
theorem not_forbidden_iff {action : String} (haction : field input "action" = some (.text action)) :
    Rego.holds (vadPolicy.value input "forbidden_capability") = false ↔
      (action = "use_tool" → ∀ x, field input "tool" = some x →
        x ∉ [Json.text "shell", .text "network"]) ∧
      (action = "delegate" → ∀ x, field input "capability" = some x →
        x ∉ [Json.text "shell", .text "network"]) := by
  have hbodies : vadPolicy.bodies "forbidden_capability" = forbiddenRules.map Rule.body := rfl
  rw [← Bool.not_eq_true, holds_value (by decide), Policy.value_true_iff (by decide), hbodies]
  simp [forbiddenRules, haction, holds_isOneOf]

/-- A shell counts as the tool that is denied. -/
theorem policyTool_iff (executable : String) : policyTool executable ∉ ["shell", "network"] ↔
    executable ∉ ["sh", "bash", "powershell", "cmd", "shell", "network"] := by
  by_cases hshell : executable ∈ ["sh", "bash", "powershell", "cmd"]
  · have htool : policyTool executable = "shell" := if_pos hshell
    have hlisted : executable ∈ ["sh", "bash", "powershell", "cmd", "shell", "network"] :=
      List.mem_append_left ["shell", "network"] hshell
    exact ⟨fun h => absurd (by rw [htool]; decide) h, fun h => absurd hlisted h⟩
  · have htool : policyTool executable = executable := if_neg hshell
    rw [htool]
    exact not_congr ⟨fun h => List.mem_append_right ["sh", "bash", "powershell", "cmd"] h,
      fun h => (List.mem_append.mp h).resolve_left hshell⟩

/-- What `allow` says of the inputs of the gates. -/
theorem allow_gate (g : Gate) :
    vadPolicy.value g.input "allow" = some (.bool true) ↔ g.permitted := by
  have haction : field g.input "action" = some (.text (g.action)) := by cases g <;> rfl
  have hfree := not_forbidden_iff haction
  rw [allow_iff]
  cases g with
  | tool name =>
    have htool : field (Gate.tool name).input "tool" = some (.text name) := rfl
    simp [allowRules, haction, Gate.action, Gate.permitted, hfree, htool]
  | memory scope =>
    have hscope : field (Gate.memory scope).input "scope" = some (.text scope) := rfl
    simp [allowRules, haction, Gate.action, Gate.permitted, hscope]
  | model tier =>
    have htier : field (Gate.model tier).input "model_tier" = some (.text tier) := rfl
    simp [allowRules, haction, Gate.action, Gate.permitted, holds_isOneOf, htier]
  | command allowed executable arguments =>
    have htool : field (Gate.command allowed executable arguments).input "tool" =
        some (.text (policyTool executable)) := rfl
    have htools := policyTool_iff executable
    simp [allowRules, haction, Gate.action, Gate.permitted, hfree, htool]
    simpa using htools
  | message action payload sender receiver =>
    have hcapability : field (Gate.message action payload sender receiver).input "capability" =
        some (messageCapability action payload) := rfl
    simp [allowRules, haction, Gate.action, Gate.permitted, hfree, hcapability]
  | build builder approver =>
    have hbuilder : field (Gate.build builder approver).input "builder" = some (.text builder) :=
      rfl
    have happrover : field (Gate.build builder approver).input "approver" = some (.text approver) :=
      rfl
    simp [allowRules, haction, Gate.action, Gate.permitted, hfree, hbuilder, happrover,
      Rego.Term.eval, Rego.Comparison.test, Rego.compareValues_eq]

end Rules

/-! ## One policy -/

section Policy

variable {run : Subprocess} {policyPath : String}

/-- A decision in terms of the rules: the reasons of those that deny, or what `allow` is. -/
theorem evaluateDecision_eq (hopa : OpaEvaluates run policyPath vadPolicy) (input : Json) :
    ∃ decision, evaluateDecision run policyPath input = .ok decision ∧
      (decision.allow = true ↔ vadPolicy.value input "allow" = some (.bool true)) ∧
      (decision.allow = true ↔ decision.denials = []) := by
  have hdenials := @denialsOf_eq run policyPath input hopa queriedRules
  rw [← denyQueries_eq] at hdenials
  have hallow := @evaluate_eq run policyPath input hopa "allow"
  unfold evaluateDecision
  rw [hdenials]
  generalize hfound :
    queriedRules.filter (fun r => vadPolicy.value input r.1 = some (.bool true)) = found
  cases found with
  | nil =>
    refine ⟨decisionOf (vadPolicy.value input "allow"), ?_, decide_eq_true_iff, ?_⟩
    · show (evaluate run policyPath ("data.vad.policy." ++ "allow") input >>= _) = _
      rw [hallow]
      rfl
    · unfold decisionOf
      by_cases hyes : vadPolicy.value input "allow" = some (.bool true) <;> simp [hyes]
  | cons r rest =>
    refine ⟨{ allow := false, denials := r.2 :: rest.map Prod.snd }, rfl, ?_, by simp⟩
    have hr : r ∈ queriedRules.filter fun r => vadPolicy.value input r.1 = some (.bool true) := by
      rw [hfound]
      exact List.mem_cons_self ..
    obtain ⟨hqueried, htrue⟩ := List.mem_filter.mp hr
    have hnames : ∀ r ∈ queriedRules, r.1 ∈ denyNames := by decide
    rw [allow_of_denied (hnames r hqueried) (of_decide_eq_true htrue)]
    simp

/-- A deny rule that was asked first takes nothing from `allow`. -/
theorem denied_first {name : String} (hname : name ∈ denyNames) {input : Json} :
    (truthyAnswer (vadPolicy.value input name) = false ∧
      vadPolicy.value input "allow" = some (.bool true)) ↔
      vadPolicy.value input "allow" = some (.bool true) := by
  refine and_iff_right_of_imp fun hallow => ?_
  rw [← Bool.not_eq_true, truthyAnswer_value (default_deny hname)]
  intro hdenied
  rw [allow_of_denied hname hdenied] at hallow
  cases hallow

theorem checkBoth_eq (hopa : OpaEvaluates run policyPath vadPolicy) {name : String}
    (hname : name ∈ denyNames) (input : Json) :
    ∃ b, checkBoth run policyPath ("data.vad.policy." ++ name) input = .ok b ∧
      (b = true ↔ vadPolicy.value input "allow" = some (.bool true)) := by
  have hallow := @evaluate_eq run policyPath input hopa "allow"
  rw [← denied_first hname]
  unfold checkBoth
  rw [evaluate_eq hopa name]
  cases hdenied : truthyAnswer (vadPolicy.value input name) with
  | true =>
    refine ⟨false, ?_, by simp⟩
    show (if truthyAnswer (vadPolicy.value input name) = true then _ else _) = _
    rw [if_pos hdenied]
    rfl
  | false =>
    refine ⟨decide (vadPolicy.value input "allow" = some (.bool true)), ?_, by simp⟩
    show (if truthyAnswer (vadPolicy.value input name) = true then _ else
      evaluate run policyPath ("data.vad.policy." ++ "allow") input >>= _) = _
    rw [if_neg (by rw [hdenied]; decide), hallow]
    rfl

/-- The guard of tools asks the deny rule only, which says the opposite of `allow`. -/
theorem checkToolAccess_eq (hopa : OpaEvaluates run policyPath vadPolicy) (name : String) :
    ∃ b, checkToolAccess run policyPath name = .ok b ∧
      (b = true ↔ vadPolicy.value (Gate.tool name).input "allow" = some (.bool true)) := by
  have hdeny : vadPolicy.value (Gate.tool name).input "deny_unauthorized_tool" =
      some (.bool true) ↔ ¬ (Gate.tool name).permitted := by
    have haction : field (Gate.tool name).input "action" = some (.text "use_tool") := rfl
    have htool : field (Gate.tool name).input "tool" = some (.text name) := rfl
    rw [Policy.value_true (by decide)]
    simp [vadPolicy, allowRules, forbiddenRules, denyRules, haction, htool, holds_isOneOf,
      Gate.permitted]
    exact or_iff_not_imp_left
  refine ⟨!truthyAnswer (vadPolicy.value (Gate.tool name).input "deny_unauthorized_tool"), ?_, ?_⟩
  · unfold checkToolAccess
    show (evaluate run policyPath ("data.vad.policy." ++ "deny_unauthorized_tool") _ >>= _) = _
    rw [evaluate_eq hopa]
    rfl
  · rw [allow_gate, Bool.not_eq_true', ← Bool.not_eq_true, truthyAnswer_value (by decide), hdeny,
      not_not]

theorem checkBuild_eq (hopa : OpaEvaluates run policyPath vadPolicy) (builder approver : String) :
    ∃ b, checkBuild run policyPath builder approver = .ok b ∧
      (b = true ↔ vadPolicy.value (buildInput builder approver) "allow" = some (.bool true)) := by
  have hdeny := @evaluate_eq run policyPath (buildInput builder approver) hopa
    "deny_builder_self_approval"
  have hallow := @evaluate_eq run policyPath (buildInput builder approver) hopa "allow"
  have hname : "deny_builder_self_approval" ∈ denyNames := by decide
  rw [← denied_first hname, ← truthyAnswer_allow]
  unfold checkBuild
  cases hdenied : truthyAnswer
      (vadPolicy.value (buildInput builder approver) "deny_builder_self_approval") with
  | true =>
    refine ⟨false, ?_, by simp⟩
    show (evaluate run policyPath ("data.vad.policy." ++ "deny_builder_self_approval") _ >>= _) = _
    rw [hdeny]
    exact if_pos hdenied
  | false =>
    refine ⟨truthyAnswer (vadPolicy.value (buildInput builder approver) "allow"), ?_, by simp⟩
    show (evaluate run policyPath ("data.vad.policy." ++ "deny_builder_self_approval") _ >>= _) = _
    rw [hdeny]
    refine (if_neg (by rw [hdenied]; decide)).trans ?_
    show (evaluate run policyPath ("data.vad.policy." ++ "allow") _ >>= _) = _
    rw [hallow]
    rfl

/-- The guard of commands allows what it admits and the policy allows for the tool. -/
theorem checkCommand_eq (hopa : OpaEvaluates run policyPath vadPolicy) (allowed : List String)
    (executable : String) (arguments : List String) :
    ∃ d, checkCommand run policyPath allowed (executable :: arguments) = .ok d ∧
      (d.allow = true ↔ (Gate.command allowed executable arguments).admitted ∧
        vadPolicy.value (Gate.command allowed executable arguments).input "allow" =
          some (.bool true)) := by
  dsimp only [checkCommand, Gate.admitted]
  by_cases hexecutable : executable ∈ allowed
  · rw [if_neg (not_not.mpr hexecutable)]
    by_cases hcontrol : (executable :: arguments).any containsShellControl = true
    · rw [if_pos hcontrol]
      refine ⟨_, rfl, ?_⟩
      obtain ⟨part, hpart, hyes⟩ := List.any_eq_true.mp hcontrol
      simp only [Bool.false_eq_true, false_iff]
      rintro ⟨⟨-, hnone⟩, -⟩
      rw [hnone part hpart] at hyes
      cases hyes
    · rw [if_neg hcontrol]
      have hnone : ∀ part ∈ executable :: arguments, containsShellControl part = false := by
        simpa using hcontrol
      obtain ⟨decision, hdecision, hallow, hdenials⟩ := evaluateDecision_eq hopa
        (Gate.command allowed executable arguments).input
      rw [and_iff_right ⟨hexecutable, hnone⟩, ← hallow, hdenials]
      change evaluateDecision run policyPath
        (actionInput "use_tool" "tool" (.text (policyTool executable))) = _ at hdecision
      rw [hdecision]
      by_cases hempty : decision.denials = []
      · refine ⟨{ allow := true, reasons := [s!"executable allowed: {executable}"] }, ?_, ?_⟩
        · exact if_neg (not_not.mpr hempty)
        · simp [hempty]
      · exact ⟨decision, if_pos hempty, hdenials⟩
  · rw [if_pos hexecutable]
    exact ⟨_, rfl, by simp [hexecutable]⟩

end Policy

end Vad
