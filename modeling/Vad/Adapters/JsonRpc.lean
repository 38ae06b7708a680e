/-
  Requests and responses of the MCP server (`handle_json_rpc_request`, `serve`).

  The server writes at most one response, under the id it found (`served_cases`): one when the
  method comes to an answer (`Answers`), none when it is a notification, when an exception is
  swallowed by the loop, or when an unknown method comes without an id.  Whether the request has an
  id plays a part in the last case only, so the server answers those requests that ask for it
  exactly where the two agree (`served_disciplined_iff`).
-/
import Vad.Adapters.ToolCalls

namespace Vad

open Atomic (Program)
open Atomic.Program (bind_bind isOk_run_bind run_bind)

section Served

variable (env : McpEnv) (handle : String → Handler) (nameText : Json → String)
  (request : Dict Json) (now : DateTime) (s : Store)

/-- When a method comes to an answer: `initialize` if its params are an object, `tools/list` if they
    are an object with valid fields for the visibility request, or count as none, `tools/call` if
    they are an object with the name of a tool and an object of arguments for a call that returns,
    `ping` always, and an unknown method if the id is not null. -/
def Answers : Prop :=
  match argument request "method" with
  | .text "initialize" => ∃ entries, requestParams request = .object entries
  | .text "notifications/initialized" => False
  | .text "tools/list" => ∃ args, jsonOr (requestParams request) (.object []) = .object args ∧
      (visibilityRequestFromArgs args).isOk = true
  | .text "tools/call" => ∃ entries toolName args, requestParams request = .object entries ∧
      (Dict.get entries "name").getD .null = .text toolName ∧
      (Dict.get entries "arguments").getD (.object []) = .object args ∧
      CallReturns env handle toolName args now s
  | .text "ping" => True
  | _ => argument request "id" ≠ .null

/-- The server's part in JSON-RPC, for a request and what is written for it: one response with the
    same id, and a result or an error in it, if the request has an id, and nothing if it has none;
    where the handling raises, the response is an error. -/
structure Disciplined (request : Dict Json) (raised : Prop) (written : List (Dict Json)) :
    Prop where
  answered : ∀ id, Dict.get request "id" = some id → ∃ response, written = [response] ∧
    Dict.get response "id" = some id ∧
    ((Dict.get response "result").isSome = !(Dict.get response "error").isSome)
  refused : ∀ id, Dict.get request "id" = some id → raised → ∃ response, written = [response] ∧
    (Dict.get response "error").isSome = true
  silent : Dict.get request "id" = none → written = []

/-- Did the handling of the request raise? -/
def Raised : Prop :=
  ((handleJsonRpcRequest env handle nameText request now).run s).1.isOk = false

theorem sendResponse_mcpResponse (responseId : Json) (body : Except Json Json) :
    sendResponse (mcpResponse responseId body) = mcpResponse responseId body := by
  cases body <;> rfl

/-- A tool call with values of any type returns only for a name and an object. -/
theorem callAnyTool_isOk_iff (hs : s.ledgerLists) (name args : Json) :
    ((callAnyTool env handle nameText name args now).run s).1.isOk = true ↔
      ∃ toolName entries, name = .text toolName ∧ args = .object entries ∧
        CallReturns env handle toolName entries now s := by
  -- a name that is no text fails in the audit record at the latest
  have hlate : ∀ entries, ¬ ((do
      let recorder ← Program.done (recorderFromArgs entries)
      recording recorder fun r => do
        let _ ← recordStarted r (nameText name) (argsSummary env entries) now
        pure ()
      let _ ← Program.done (visibilityRequestFromArgs entries)
      Program.raise (.validationError "GatewayToolAuditRecord" ["tool_name"]) :
        Db (Dict Json)).run s).1.isOk = true := by
    intro entries h
    obtain ⟨_, _, -, h⟩ := isOk_run_bind.mp h
    obtain ⟨_, _, -, h⟩ := isOk_run_bind.mp h
    obtain ⟨_, _, -, h⟩ := isOk_run_bind.mp h
    cases h
  cases name with
  | text toolName =>
    cases args with
    | object entries =>
      refine (handleToolCall_isOk_iff env handle toolName now hs).trans ⟨fun h => ?_, ?_⟩
      · exact ⟨toolName, entries, rfl, rfl, h⟩
      · rintro ⟨_, _, ⟨⟩, ⟨⟩, h⟩
        exact h
    | null => exact ⟨fun h => (by cases h), fun ⟨_, _, _, h, _⟩ => (by cases h)⟩
    | bool _ => exact ⟨fun h => (by cases h), fun ⟨_, _, _, h, _⟩ => (by cases h)⟩
    | number _ => exact ⟨fun h => (by cases h), fun ⟨_, _, _, h, _⟩ => (by cases h)⟩
    | text _ => exact ⟨fun h => (by cases h), fun ⟨_, _, _, h, _⟩ => (by cases h)⟩
    | array _ => exact ⟨fun h => (by cases h), fun ⟨_, _, _, h, _⟩ => (by cases h)⟩
  | _ =>
    refine ⟨fun h => ?_, fun ⟨_, _, h, _⟩ => (by cases h)⟩
    cases args with
    | object entries =>
      first
        | exact absurd h (hlate entries)
        | cases h
    | _ => cases h

variable {request s}

/-- A method that ends in a response: the response is written unless something raises before. -/
theorem served_of_response {α : Type} {p : Db α} {body : α → Except Json Json}
    (h : handleJsonRpcRequest env handle nameText request now =
      (do let a ← p; pure (some (mcpResponse (argument request "id") (body a))))) :
    ((p.run s).1.isOk = true ∧ ¬ Raised env handle nameText request now s ∧
      ∃ b, served env handle nameText request now s = [mcpResponse (argument request "id") b]) ∨
    ((p.run s).1.isOk = false ∧ served env handle nameText request now s = []) := by
  unfold Raised served
  rw [h, run_bind]
  generalize p.run s = outcome
  obtain ⟨result, s'⟩ := outcome
  cases result with
  | ok a =>
    refine Or.inl ⟨rfl, fun hraised => (by cases hraised), body a, ?_⟩
    simp only [Program.run_pure, sendResponse_mcpResponse]
  | error e => exact Or.inr ⟨rfl, rfl⟩

theorem served_of_none
    (h : handleJsonRpcRequest env handle nameText request now = pure none) :
    served env handle nameText request now s = [] := by
  unfold served
  rw [h]
  rfl

theorem listToolsForClient_isOk_iff (params : Json) :
    (listToolsForClient params).isOk = true ↔ ∃ args, jsonOr params (.object []) = .object args ∧
      (visibilityRequestFromArgs args).isOk = true := by
  unfold listToolsForClient
  cases jsonOr params (.object []) with
  | object args =>
    dsimp only
    cases hrequest : visibilityRequestFromArgs args with
    | ok request => exact ⟨fun _ => ⟨args, rfl, by rw [hrequest]; rfl⟩, fun _ => rfl⟩
    | error e =>
      refine ⟨fun h => (by cases h), ?_⟩
      rintro ⟨_, ⟨⟩, h⟩
      rw [hrequest] at h
      cases h
  | _ => exact ⟨fun h => (by cases h), fun ⟨_, h, _⟩ => (by cases h)⟩

/-- A response is written under the id of the request, or nothing is, as the method comes to an
    answer or not. -/
theorem served_cases (hversion : Dict.get request "jsonrpc" = some (.text "2.0"))
    (hs : s.ledgerLists) :
    (Answers env handle request now s ∧ ¬ Raised env handle nameText request now s ∧
      ∃ body, served env handle nameText request now s =
        [mcpResponse (argument request "id") body]) ∨
    (¬ Answers env handle request now s ∧
      served env handle nameText request now s = []) := by
  have hmethod : handleJsonRpcRequest env handle nameText request now =
      answerMethod env handle nameText (argument request "id") (argument request "method")
        (requestParams request) now := by
    have hrequest : argument request "jsonrpc" = .text "2.0" := by
      unfold argument
      rw [hversion]
      rfl
    unfold handleJsonRpcRequest
    rw [hrequest]
    rfl
  -- what a method answers is written exactly if the program before the response returns
  have hresponds : ∀ {α : Type} (p : Db α) (body : α → Except Json Json) {answers : Prop},
      handleJsonRpcRequest env handle nameText request now =
        (do let a ← p; pure (some (mcpResponse (argument request "id") (body a)))) →
      ((p.run s).1.isOk = true ↔ answers) →
      (answers ∧ ¬ Raised env handle nameText request now s ∧
        ∃ body, served env handle nameText request now s =
          [mcpResponse (argument request "id") body]) ∨
      (¬ answers ∧ served env handle nameText request now s = []) := by
    intro α p body answers h hiff
    rcases served_of_response env handle nameText now h with ⟨hok, hrest⟩ | ⟨hno, hrest⟩
    · exact Or.inl ⟨hiff.mp hok, hrest⟩
    · refine Or.inr ⟨fun hanswers => ?_, hrest⟩
      rw [hiff.mpr hanswers] at hno
      cases hno
  unfold Answers
  generalize argument request "method" = method at hmethod
  split
  · -- initialize
    refine hresponds _ (fun version => .ok (initializeResult version)) hmethod ?_
    cases requestParams request with
    | object entries => exact ⟨fun _ => ⟨entries, rfl⟩, fun _ => rfl⟩
    | _ => exact ⟨fun h => (by cases h), fun ⟨_, h⟩ => (by cases h)⟩
  · -- notifications/initialized
    exact Or.inr ⟨id, served_of_none env handle nameText now hmethod⟩
  · -- tools/list
    exact hresponds _ Except.ok hmethod (listToolsForClient_isOk_iff _)
  · -- tools/call
    refine hresponds (do
      let name ← Program.done (paramsGet (requestParams request) "name" .null)
      let args ← Program.done (paramsGet (requestParams request) "arguments" (.object []))
      callAnyTool env handle nameText name args now) (fun result => .ok (.object result)) ?_ ?_
    · rw [hmethod]
      simp only [bind_bind]
      rfl
    cases requestParams request with
    | object entries =>
      refine (callAnyTool_isOk_iff env handle nameText now s hs _ _).trans ⟨?_, ?_⟩
      · rintro ⟨toolName, args, hname, hargs, h⟩
        exact ⟨entries, toolName, args, rfl, hname, hargs, h⟩
      · rintro ⟨_, toolName, args, ⟨⟩, hname, hargs, h⟩
        exact ⟨toolName, args, hname, hargs, h⟩
    | _ => exact ⟨fun h => (by cases h), fun ⟨_, _, _, h, _⟩ => (by cases h)⟩
  · -- ping
    exact hresponds (pure ()) (fun _ => .ok (.object [])) hmethod
      ⟨fun _ => trivial, fun _ => rfl⟩
  · -- any other method, which looks at the id
    rename_i h1 h2 h3 h4 h5
    by_cases hid : argument request "id" = .null
    · refine Or.inr ⟨not_not.mpr hid, served_of_none env handle nameText now ?_⟩
      rw [hmethod, hid]
      unfold answerMethod
      split
      all_goals first | contradiction | rfl
    · refine hresponds (pure ()) (fun _ => .error (.object [("code", .number (-32601)),
        ("message", .text ("Method not found: " ++ nameText method))])) ?_
        ⟨fun _ => hid, fun _ => rfl⟩
      rw [hmethod]
      unfold answerMethod
      split
      all_goals first | contradiction | skip
      split
      · contradiction
      · rfl

/-- The server answers a request exactly as JSON-RPC asks if and only if the method comes to an
    answer when the request has an id, and comes to none when it has no id. -/
theorem served_disciplined_iff (hversion : Dict.get request "jsonrpc" = some (.text "2.0"))
    (hs : s.ledgerLists) :
    Disciplined request (Raised env handle nameText request now s)
        (served env handle nameText request now s) ↔
      (Answers env handle request now s ↔ ∃ id, Dict.get request "id" = some id) := by
  have hid : ∀ {id}, Dict.get request "id" = some id → argument request "id" = id := by
    intro id h
    unfold argument
    rw [h]
    rfl
  rcases served_cases env handle nameText now hversion hs with
    ⟨hanswers, hreturned, body, hserved⟩ | ⟨hno, hserved⟩
  · rw [hserved]
    constructor
    · intro h
      refine ⟨fun _ => ?_, fun _ => hanswers⟩
      by_contra hnone
      have hsilent := h.silent (Option.eq_none_iff_forall_ne_some.mpr fun id hid => hnone ⟨id, hid⟩)
      cases hsilent
    · intro h
      obtain ⟨id, hsome⟩ := h.mp hanswers
      refine ⟨fun id' hid' => ⟨_, rfl, ?_, ?_⟩, fun _ _ hraised => absurd hraised hreturned,
        fun hnone => ?_⟩
      · rw [hid hid']
        rfl
      · cases body <;> rfl
      · rw [hnone] at hsome
        cases hsome
  · rw [hserved]
    constructor
    · intro h
      refine ⟨fun hanswers => absurd hanswers hno, fun ⟨id, hsome⟩ => ?_⟩
      obtain ⟨response, hwritten, -⟩ := h.answered id hsome
      cases hwritten
    · intro h
      have hnone : ∀ id, Dict.get request "id" ≠ some id := fun id hsome => hno (h.mpr ⟨id, hsome⟩)
      exact ⟨fun id hsome => absurd hsome (hnone id), fun id hsome _ => absurd hsome (hnone id),
        fun _ => rfl⟩

end Served

/-! ### A call that is not answered -/

/-- A call of `validate_eip` that names no file. -/
def requestWithoutFile : Dict Json :=
  [("jsonrpc", .text "2.0"), ("id", .number 1), ("method", .text "tools/call"),
    ("params", .object [("name", .text "validate_eip"), ("arguments", .object [])])]

theorem served_disciplined_iff_withoutFile :
    Disciplined requestWithoutFile
        (Raised mcpEnv validateWithoutFile textOf requestWithoutFile ⟨0, some 0⟩ Store.empty)
        (served mcpEnv validateWithoutFile textOf requestWithoutFile ⟨0, some 0⟩ Store.empty) ↔
      (Answers mcpEnv validateWithoutFile requestWithoutFile ⟨0, some 0⟩ Store.empty ↔
        ∃ id, Dict.get requestWithoutFile "id" = some id) :=
  served_disciplined_iff mcpEnv validateWithoutFile textOf ⟨0, some 0⟩ rfl
    fun _ hr => absurd hr List.not_mem_nil

/-- The exception of the handler is answered with silence. -/
theorem requestWithoutFile_unanswered :
    ¬ Disciplined requestWithoutFile
      (Raised mcpEnv validateWithoutFile textOf requestWithoutFile ⟨0, some 0⟩ Store.empty)
      (served mcpEnv validateWithoutFile textOf requestWithoutFile ⟨0, some 0⟩ Store.empty) := by
  intro h
  obtain ⟨response, hwritten, -⟩ := h.answered (.number 1) rfl
  have hsilent : (served mcpEnv validateWithoutFile textOf requestWithoutFile ⟨0, some 0⟩
      Store.empty).length = 0 := by decide
  rw [hwritten] at hsilent
  cases hsilent

end Vad
