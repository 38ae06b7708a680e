/-
  The MCP adapter (`vad/adapters/mcp.py`): the two dispatchers of tool calls, the JSON-RPC requests
  and the loop that serves them.

  The handlers of the tools are parameters: what one of them does to the files it works on is its
  own affair, here it gives a result or raises.  A request is the JSON object that was read; its
  fields may be of any type, and Python finds out as it goes.
-/
import Vad.ControlPlane.McpGateway
import Vad.Server.Records

namespace Vad

open Atomic (Program)

/-! ## Values whose type is not known -/

/-- `value or default`. -/
def jsonOr (value default : Json) : Json := if truthy value then value else default

/-- `args.get(key)`. -/
def argument (args : Dict Json) (key : String) : Json := (Dict.get args key).getD .null

/-- The check of a field of type `str | None`. -/
def optionalField (check : String → Bool) : Json → Bool
  | .null => true
  | value => textField check value

def textOf : Json → String
  | .text s => s
  | _ => ""

def optionalTextOf : Json → Option String
  | .text s => some s
  | _ => none

/-- `tuple(value)`. -/
def pyTuple : Json → Except PyError (List Json)
  | .array values => .ok values
  | .text s => .ok (s.toList.map fun c => .text (String.singleton c))
  | .object entries => .ok (entries.map fun e => .text e.1)
  | _ => .error .typeError

/-! ## Recorder and visibility of a call -/

/-- `value` has no separator; its length is not looked at. -/
def noSeparators (value : String) : Bool := !containsAny separators value

/-- `args.get("role") or args.get("client_role") or "observer"`. -/
def roleArgument (args : Dict Json) : Json :=
  jsonOr (jsonOr (argument args "role") (argument args "client_role")) (.text "observer")

/-- `_recorder_from_args`; the path of the database names the store the recorder writes to. -/
def recorderFromArgs (args : Dict Json) : Except PyError (Option McpToolCallRecorder) :=
  let dbPath := argument args "control_plane_db"
  let clientId := argument args "client_id"
  let actorId := jsonOr (jsonOr (argument args "actor_id") (argument args "actor")) clientId
  let role := roleArgument args
  let runId := argument args "run_id"
  let taskId := argument args "task_id"
  let failed := failedFields [
    ("client_id", textField noSeparators clientId),
    ("actor_id", textField noSeparators actorId),
    ("role", textField noSeparators role),
    ("run_id", optionalField noSeparators runId),
    ("task_id", optionalField noSeparators taskId)]
  if !truthy dbPath || !truthy clientId || !truthy actorId then .ok none
  else if textField (fun _ => true) dbPath = false then .error .typeError
  else if failed ≠ [] then .error (.validationError "McpToolCallRecorder" failed)
  else .ok (some {
    clientId := textOf clientId
    actorId := textOf actorId
    role := textOf role
    runId := optionalTextOf runId
    taskId := optionalTextOf taskId })

/-- `_visibility_request_from_args`; a field of the wrong type fails beside those whose check
    fails. -/
def visibilityRequestFromArgs (args : Dict Json) :
    Except PyError (Checked GatewayToolVisibilityRequest) :=
  match pyTuple (jsonOr (argument args "approved_high_risk_tools") (.array [])) with
  | .error e => .error e
  | .ok approved =>
    let clientId := argument args "client_id"
    let runId := argument args "run_id"
    let role := roleArgument args
    let request : GatewayToolVisibilityRequest := {
      clientId := optionalTextOf clientId
      runId := optionalTextOf runId
      role := optionalTextOf role
      approvedHighRiskTools := approved.map textOf }
    let typed := [
      optionalField (fun _ => true) clientId,
      optionalField (fun _ => true) runId,
      optionalField (fun _ => true) role,
      approved.all (textField fun _ => true)]
    if typed.all id then Model.build request
    else
      let checks := Model.checks (Model.normalize request)
      .error (.validationError "GatewayToolVisibilityRequest"
        (failedFields (List.zipWith (fun ok check => (check.1, ok && check.2)) typed checks)))

/-! ## Results of tools -/

/-- What a tool handler does with the arguments: it gives a result or raises. -/
abbrev Handler : Type := Dict Json → Except PyError (Dict Json)

/-- The functions of Python that the adapter uses: `str.lower`, `json.dumps` with sorted keys,
    plain and indented, and `json.loads` (`none` where it raises). -/
structure McpEnv where
  lower : String → String
  dumps : Json → String
  dumpsIndented : Json → String
  loads : String → Option Json

/-- `result.get("isError", False)`, as a truth value. -/
def isErrorResult (result : Dict Json) : Bool := truthy ((Dict.get result "isError").getD (.bool false))

def textContent (text : String) : Json :=
  .array [.object [("type", .text "text"), ("text", .text text)]]

def errorResult (text : String) : Dict Json :=
  [("content", textContent text), ("isError", .bool true)]

/-- `_policy_denied_result`. -/
def policyDeniedResult (env : McpEnv) (toolName reason : String) : Dict Json :=
  errorResult ("MCP tool policy denied: " ++ toolName ++ "\n" ++
    env.dumpsIndented (.object [("reason", .text reason)]))

/-- `_extract_evidence_digest`: every exception on the way gives `None`. -/
def extractEvidenceDigest (env : McpEnv) (result : Dict Json) : Json :=
  match argument result "content" with
  | .array (.object first :: _) =>
    match argument first "text" with
    | .text text =>
      match env.loads text with
      | some (.object payload) =>
        jsonOr (argument payload "evidence_hash") (argument payload "payload_digest")
      | _ => .null
    | _ => .null
  | _ => .null

/-- The digest of `_with_mcp_attribution`: the caller's, or the one in the result. -/
def attributedDigest (env : McpEnv) (result args : Dict Json) : Json :=
  match argument args "evidence_digest" with
  | .null => extractEvidenceDigest env result
  | digest => digest

/-- `_with_mcp_attribution`. -/
def withMcpAttribution (env : McpEnv) (result : Dict Json) (toolName : String) (args : Dict Json) :
    Dict Json :=
  let failed := isErrorResult result
  let attribution : List (String × Json) := [
    ("event", .text "mcp_tool_call"),
    ("tool", .text toolName),
    ("client_id", argument args "client_id"),
    ("actor_id", argument args "actor_id"),
    ("run_id", argument args "run_id"),
    ("evidence_digest", attributedDigest env result args),
    ("policy_decision", .object [
      ("allow", .bool (!failed)),
      ("reasons", .array (if failed then [] else [.text "MCP tool call completed"])),
      ("denials", .array
        (if failed then [.text ("MCP tool call denied or failed: " ++ toolName)] else [])),
      ("requires_human", .bool false)])]
  Dict.set result "mcp_attribution" (.object attribution)

/-! ## Recording -/

/-- The summary of the arguments in the event of `record_started`. -/
def argsSummary (env : McpEnv) (args : Dict Json) : String :=
  boundedSummary (env.dumps (.object (redactToolArguments env.lower args))) 360

/-- The digest that `record_finished` finds in an attributed result. -/
def resultDigest (result : Dict Json) : Json :=
  match argument result "mcp_attribution" with
  | .object attribution => argument attribution "evidence_digest"
  | _ => .null

/-- `record_finished`, whose event takes no digest but a text. -/
def recordResult (r : McpToolCallRecorder) (toolName : String) (result : Dict Json)
    (now : DateTime) : Db Unit := do
  match resultDigest result with
  | .null => do
    let _ ← recordFinished r toolName (isErrorResult result) none now
    pure ()
  | .text digest => do
    let _ ← recordFinished r toolName (isErrorResult result) (some digest) now
    pure ()
  | _ => do
    let _ ← listControlPlaneEvents
    Program.raise (.validationError "ControlPlaneEvent" ["evidence_digest"])

/-- `if recorder is not None`. -/
def recording (recorder : Option McpToolCallRecorder) (record : McpToolCallRecorder → Db Unit) :
    Db Unit :=
  match recorder with
  | none => pure ()
  | some r => record r

/-! ## The two dispatchers -/

/-- The names in `TOOL_HANDLERS`, and in the table that `MCPAdapter.connect` builds. -/
def handledTools : List String :=
  ["validate_eip", "run_proofs", "retro_analyze", "query_retrospective", "submit_retrospective",
    "repo_assess", "repo_patch", "repo_run", "sign_verify", "evidence_inspect",
    "provider_inventory", "provider_test", "swarm_status"]

section Dispatch

variable (env : McpEnv) (handle : String → Handler)

/-- `TOOL_HANDLERS`, for the handlers of the tools. -/
def toolHandlers : Dict Handler := handledTools.map fun name => (name, handle name)

/-- `handle_tool_call`. -/
def handleToolCall (toolName : String) (args : Dict Json) (now : DateTime) : Db (Dict Json) := do
  let handler := Dict.get (toolHandlers handle) toolName
  let recorder ← Program.done (recorderFromArgs args)
  recording recorder fun r => do
    let _ ← recordStarted r toolName (argsSummary env args) now
    pure ()
  let visibility ← Program.done (visibilityRequestFromArgs args)
  let authorization := authorizeGatewayToolCall gatewayTools.1 toolName (some visibility)
  if authorization.visible = false then do
    let denied := policyDeniedResult env toolName authorization.reason
    let result := withMcpAttribution env denied toolName args
    recording recorder fun r => do
      let _ ← recordDenied r toolName authorization.reason now
      recordResult r toolName result now
    pure result
  else match handler with
    | none => do
      recording recorder fun r => do
        let _ ← recordDenied r toolName "unknown tool" now
        pure ()
      pure (withMcpAttribution env (errorResult ("Unknown tool: " ++ toolName)) toolName args)
    | some handler => do
      let outcome ← Program.done (handler args)
      let result := withMcpAttribution env outcome toolName args
      recording recorder fun r => do
        if isErrorResult result then do
          let _ ← recordDenied r toolName "tool returned error" now
          recordResult r toolName result now
        else recordResult r toolName result now
      pure result

/-- `MCPAdapter`: its table of tools is the whole one once it is connected. -/
structure MCPAdapter where
  connected : Bool := false
  tools : Dict Handler := []
  ready : connected = true → tools = toolHandlers handle

/-- `MCPAdapter.connect`. -/
def MCPAdapter.connect : MCPAdapter handle := ⟨true, toolHandlers handle, fun _ => rfl⟩

/-- `MCPAdapter.call_tool`. -/
def MCPAdapter.callTool (adapter : MCPAdapter handle) (toolName : String) (params : Dict Json)
    (now : DateTime) : Db (Dict Json) := do
  let adapter := if adapter.connected = false then MCPAdapter.connect handle else adapter
  let recorder ← Program.done (recorderFromArgs params)
  recording recorder fun r => do
    let _ ← recordStarted r toolName (argsSummary env params) now
    pure ()
  let visibility ← Program.done (visibilityRequestFromArgs params)
  let authorization := authorizeGatewayToolCall gatewayTools.1 toolName (some visibility)
  if authorization.visible = false then do
    let denied := policyDeniedResult env toolName authorization.reason
    let result := withMcpAttribution env denied toolName params
    recording recorder fun r => do
      let _ ← recordDenied r toolName authorization.reason now
      recordResult r toolName result now
    pure result
  else match Dict.get adapter.tools toolName with
    | none => do
      recording recorder fun r => do
        let _ ← recordDenied r toolName "unknown tool" now
        pure ()
      pure (withMcpAttribution env (errorResult ("Unknown tool: " ++ toolName)) toolName params)
    | some handler => do
      let outcome ← Program.done (handler params)
      let result := withMcpAttribution env outcome toolName params
      recording recorder fun r => do
        if isErrorResult result then do
          let _ ← recordDenied r toolName "tool returned error" now
          recordResult r toolName result now
        else recordResult r toolName result now
      pure result

/-- The two copies of the dispatcher run the same program. -/
theorem callTool_eq (adapter : MCPAdapter handle) (toolName : String) (args : Dict Json)
    (now : DateTime) :
    adapter.callTool env handle toolName args now = handleToolCall env handle toolName args now := by
  have htools : (if adapter.connected = false then MCPAdapter.connect handle else adapter).tools =
      toolHandlers handle := by
    by_cases h : adapter.connected = false
    · rw [if_pos h]
      rfl
    · rw [if_neg h]
      exact adapter.ready (by simpa using h)
  unfold MCPAdapter.callTool handleToolCall
  simp only [htools]

/-! ## JSON-RPC -/

/-- `mcp_response`. -/
def mcpResponse (responseId : Json) (body : Except Json Json) : Dict Json :=
  [("jsonrpc", .text "2.0"), ("id", responseId),
    match body with
    | .ok result => ("result", result)
    | .error error => ("error", error)]

/-- `GatewayToolDefinition.to_mcp_tool`. -/
def GatewayToolDefinition.toMcpTool (tool : GatewayToolDefinition) : Json :=
  .object [("name", .text tool.name), ("description", .text tool.description),
    ("inputSchema", .object tool.inputSchema)]

def optionalJson (value : Option String) : Json := (value.map Json.text).getD .null

/-- `model_dump(mode="json")` of an audit record. -/
def GatewayToolAuditRecord.dump (record : GatewayToolAuditRecord) : Json :=
  .object [("tool_name", .text record.toolName), ("client_id", optionalJson record.clientId),
    ("run_id", optionalJson record.runId), ("requested_role", optionalJson record.requestedRole),
    ("required_role", .text record.requiredRole), ("visible", .bool record.visible),
    ("reason", .text record.reason)]

/-- `list_tools_for_client`, which takes empty params of any type for none. -/
def listToolsForClient (params : Json) : Except PyError Json :=
  match jsonOr params (.object []) with
  | .object args =>
    match visibilityRequestFromArgs args with
    | .error e => .error e
    | .ok request =>
      let result := filterGatewayTools gatewayTools.1 (some request)
      .ok (.object [
        ("tools", .array (result.tools.map fun tool => tool.1.toMcpTool)),
        ("tool_visibility_audit", .array (result.audit.map GatewayToolAuditRecord.dump))])
  | _ => .error .attributeError

/-- `params.get(key, default)`; only an object has `get`. -/
def paramsGet (params : Json) (key : String) (default : Json) : Except PyError Json :=
  match params with
  | .object entries => .ok ((Dict.get entries key).getD default)
  | _ => .error .attributeError

/-- `handle_tool_call` on values of any type.  A name that is no text is either not hashable or
    fails as the name of the audit record, in both cases after at most the started event, which
    takes a text of the name (`nameText`). -/
def callAnyTool (nameText : Json → String) (name args : Json) (now : DateTime) :
    Db (Dict Json) :=
  match name, args with
  | .text toolName, .object args => handleToolCall env handle toolName args now
  | .array _, _ | .object _, _ => Program.raise .typeError
  | name, .object args => do
    let recorder ← Program.done (recorderFromArgs args)
    recording recorder fun r => do
      let _ ← recordStarted r (nameText name) (argsSummary env args) now
      pure ()
    let _ ← Program.done (visibilityRequestFromArgs args)
    Program.raise (.validationError "GatewayToolAuditRecord" ["tool_name"])
  | _, _ => Program.raise .attributeError

/-- The result of `initialize`. -/
def initializeResult (protocolVersion : Json) : Json :=
  .object [("protocolVersion", protocolVersion),
    ("capabilities", .object [("tools", .object [])]),
    ("serverInfo", .object [("name", .text "vad-mcp"), ("version", .text "0.1.0")])]

/-- The dispatch of `handle_json_rpc_request` on the method; `nameText` is Python's text of a
    value. -/
def answerMethod (nameText : Json → String) (reqId method params : Json) (now : DateTime) :
    Db (Option (Dict Json)) :=
  match method with
  | .text "initialize" => do
    let version ← Program.done (paramsGet params "protocolVersion" (.text "2024-11-05"))
    pure (some (mcpResponse reqId (.ok (initializeResult version))))
  | .text "notifications/initialized" => pure none
  | .text "tools/list" => do
    let result ← Program.done (listToolsForClient params)
    pure (some (mcpResponse reqId (.ok result)))
  | .text "tools/call" => do
    let name ← Program.done (paramsGet params "name" .null)
    let args ← Program.done (paramsGet params "arguments" (.object []))
    let result ← callAnyTool env handle nameText name args now
    pure (some (mcpResponse reqId (.ok (.object result))))
  | .text "ping" => pure (some (mcpResponse reqId (.ok (.object []))))
  | method =>
    match reqId with
    | .null => pure none
    | reqId => pure (some (mcpResponse reqId (.error (.object [
        ("code", .number (-32601)),
        ("message", .text ("Method not found: " ++ nameText method))]))))

/-- `request.get("params", {})`. -/
def requestParams (request : Dict Json) : Json := (Dict.get request "params").getD (.object [])

/-- `handle_json_rpc_request`. -/
def handleJsonRpcRequest (nameText : Json → String) (request : Dict Json) (now : DateTime) :
    Db (Option (Dict Json)) :=
  match argument request "jsonrpc" with
  | .text "2.0" => answerMethod env handle nameText (argument request "id")
      (argument request "method") (requestParams request) now
  | _ => pure none

/-- `send_response`: the object that is written. -/
def sendResponse (response : Dict Json) : Dict Json :=
  match Dict.get response "error" with
  | some error => mcpResponse (argument response "id") (.error error)
  | none => mcpResponse (argument response "id") (.ok (argument response "result"))

/-- What `serve` writes for one request; an exception goes to the error stream. -/
def served (nameText : Json → String) (request : Dict Json) (now : DateTime) (s : Store) :
    List (Dict Json) :=
  match (handleJsonRpcRequest env handle nameText request now).run s with
  | (.ok (some response), _) => [sendResponse response]
  | _ => []

end Dispatch

end Vad
