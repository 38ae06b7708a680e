/-
  The gateway in front of the MCP tools (`vad/control_plane/mcp_gateway.py`): the redaction of tool
  arguments, and the registry that says who may see and call which tool.

  1. Two argument objects that differ only under sensitive keys (`Alike`) are redacted to the same
     object when the redactor reaches every sensitive key (`Reached`), and only then
     (`redaction_hides_iff`): it passes a list over that is an element of a list.
  2. Listing and calling a tool give the same verdict on every registry that the validator accepts,
     and they keep the rule for high-risk tools exactly where no observer tool is high-risk
     (`gateway_authorises_iff`): the observer test comes first.

  A JSON object is listed by its keys in order, so that equal objects have equal lists; the source
  never looks at the order of insertion.
-/
import Vad.ControlPlane.Clients
import Vad.Lib.Dict
import Mathlib.Data.List.Infix

namespace Vad

/-! ## Redaction -/

/-- `SENSITIVE_ARGUMENT_MARKERS`. -/
def sensitiveArgumentMarkers : List String :=
  ["secret", "token", "password", "api_key", "private_key", "key"]

/-- `any(marker in key.lower() for marker in SENSITIVE_ARGUMENT_MARKERS)`. -/
def isSensitive (lower : String → String) (key : String) : Bool :=
  sensitiveArgumentMarkers.any fun marker => decide (marker.toList <:+: (lower key).toList)

section Redaction

variable (lower : String → String)

mutual

/-- What the redactor makes of a value under a key that is not sensitive. -/
def redactValue : Json → Json
  | .object entries => .object (redactToolArguments entries)
  | .array values => .array (redactItems values)
  | value => value

/-- `redact_tool_arguments`. -/
def redactToolArguments : List (String × Json) → List (String × Json)
  | [] => []
  | (key, value) :: rest =>
    (key, if isSensitive lower key then .text "[REDACTED]" else redactValue value) ::
      redactToolArguments rest

/-- The elements of a list: only objects are redacted. -/
def redactItems : List Json → List Json
  | [] => []
  | .object entries :: rest => .object (redactToolArguments entries) :: redactItems rest
  | value :: rest => value :: redactItems rest

end

/-- `_bounded_summary`. -/
def boundedSummary (value : String) (limit : Nat) : String :=
  if value.length ≤ limit then value
  else String.ofList (value.toList.take (limit - 14)) ++ "...[truncated]"

/-- The summary of the event of `record_started`; `dumps` is `json.dumps(…, sort_keys=True)`. -/
def startedSummary (dumps : Json → String) (toolName : String) (args : List (String × Json)) :
    String :=
  "MCP tool " ++ toolName ++ " started with args " ++
    boundedSummary (dumps (.object (redactToolArguments lower args))) 360 ++ "."

mutual

/-- Equal except for what is stored under sensitive keys. -/
def Alike : Json → Json → Prop
  | .object entries, .object others => AlikeEntries entries others
  | .array values, .array others => AlikeItems values others
  | value, other => value = other

def AlikeEntries : List (String × Json) → List (String × Json) → Prop
  | [], [] => True
  | (key, value) :: rest, (key', value') :: others =>
    key = key' ∧ (isSensitive lower key = true ∨ Alike value value') ∧ AlikeEntries rest others
  | _, _ => False

def AlikeItems : List Json → List Json → Prop
  | [], [] => True
  | value :: rest, value' :: others => Alike value value' ∧ AlikeItems rest others
  | _, _ => False

end

mutual

/-- No sensitive key anywhere in a value. -/
def plainValue : Json → Bool
  | .object entries => plainEntries entries
  | .array values => plainItems values
  | _ => true

def plainEntries : List (String × Json) → Bool
  | [] => true
  | (key, value) :: rest => !isSensitive lower key && plainValue value && plainEntries rest

def plainItems : List Json → Bool
  | [] => true
  | value :: rest => plainValue value && plainItems rest

end

mutual

/-- Every sensitive key is under a sensitive key, or in an object that one comes to through objects
    and through lists of objects: no list that is an element of a list has one inside. -/
def reachedValue : Json → Bool
  | .object entries => reachedEntries entries
  | .array values => reachedItems values
  | _ => true

def reachedEntries : List (String × Json) → Bool
  | [] => true
  | (key, value) :: rest => (isSensitive lower key || reachedValue value) && reachedEntries rest

def reachedItems : List Json → Bool
  | [] => true
  | .object entries :: rest => reachedEntries entries && reachedItems rest
  | value :: rest => plainValue lower value && reachedItems rest

end

/-! ### What is reached is hidden -/

mutual

theorem Alike.eq_of_plain : ∀ {v w : Json}, Alike lower v w → plainValue lower v = true → v = w
  | .object es, .object fs, h, hp => by
    unfold Alike at h
    unfold plainValue at hp
    exact congrArg Json.object (AlikeEntries.eq_of_plain h hp)
  | .array vs, .array ws, h, hp => by
    unfold Alike at h
    unfold plainValue at hp
    exact congrArg Json.array (AlikeItems.eq_of_plain h hp)
  | .null, _, h, _ => by simpa [Alike] using h
  | .bool _, _, h, _ => by simpa [Alike] using h
  | .number _, _, h, _ => by simpa [Alike] using h
  | .text _, _, h, _ => by simpa [Alike] using h

theorem AlikeEntries.eq_of_plain : ∀ {es fs : List (String × Json)}, AlikeEntries lower es fs →
    plainEntries lower es = true → es = fs
  | [], [], _, _ => rfl
  | (key, value) :: es, (key', value') :: fs, h, hp => by
    unfold AlikeEntries at h
    obtain ⟨rfl, hvalue, hrest⟩ := h
    simp only [plainEntries, Bool.and_eq_true, Bool.not_eq_true'] at hp
    obtain ⟨⟨hkey, hpv⟩, hpr⟩ := hp
    have hv : Alike lower value value' := by
      rcases hvalue with hs | hv
      · rw [hkey] at hs
        cases hs
      · exact hv
    rw [Alike.eq_of_plain hv hpv, AlikeEntries.eq_of_plain hrest hpr]

theorem AlikeItems.eq_of_plain : ∀ {vs ws : List Json}, AlikeItems lower vs ws →
    plainItems lower vs = true → vs = ws
  | [], [], _, _ => rfl
  | v :: vs, w :: ws, h, hp => by
    unfold AlikeItems at h
    simp only [plainItems, Bool.and_eq_true] at hp
    rw [Alike.eq_of_plain h.1 hp.1, AlikeItems.eq_of_plain h.2 hp.2]

end

mutual

/-- Alike values are redacted to the same value if the redactor reaches their sensitive keys. -/
theorem redactValue_alike : ∀ {v w : Json}, Alike lower v w → reachedValue lower v = true →
    redactValue lower v = redactValue lower w
  | .object es, .object fs, h, hr => by
    unfold Alike at h
    unfold reachedValue at hr
    exact congrArg Json.object (redactToolArguments_alike h hr)
  | .array vs, .array ws, h, hr => by
    unfold Alike at h
    unfold reachedValue at hr
    exact congrArg Json.array (redactItems_alike h hr)
  | .null, _, h, _ => by rw [show Json.null = _ by simpa [Alike] using h]
  | .bool b, _, h, _ => by rw [show Json.bool b = _ by simpa [Alike] using h]
  | .number x, _, h, _ => by rw [show Json.number x = _ by simpa [Alike] using h]
  | .text t, _, h, _ => by rw [show Json.text t = _ by simpa [Alike] using h]

theorem redactToolArguments_alike : ∀ {es fs : List (String × Json)}, AlikeEntries lower es fs →
    reachedEntries lower es = true →
    redactToolArguments lower es = redactToolArguments lower fs
  | [], [], _, _ => rfl
  | (key, value) :: es, (key', value') :: fs, h, hr => by
    unfold AlikeEntries at h
    obtain ⟨rfl, hvalue, hrest⟩ := h
    simp only [reachedEntries, Bool.and_eq_true, Bool.or_eq_true] at hr
    unfold redactToolArguments
    rw [redactToolArguments_alike hrest hr.2]
    by_cases hkey : isSensitive lower key = true
    · rw [if_pos hkey, if_pos hkey]
    · have hv := redactValue_alike (hvalue.resolve_left hkey) (hr.1.resolve_left hkey)
      rw [if_neg hkey, if_neg hkey, hv]

theorem redactItems_alike : ∀ {vs ws : List Json}, AlikeItems lower vs ws →
    reachedItems lower vs = true → redactItems lower vs = redactItems lower ws
  | [], [], _, _ => rfl
  | .object es :: vs, .object fs :: ws, h, hr => by
    simp only [AlikeItems, Alike] at h
    simp only [reachedItems, Bool.and_eq_true] at hr
    unfold redactItems
    rw [redactToolArguments_alike h.1 hr.1, redactItems_alike h.2 hr.2]
  | .array vs' :: vs, w :: ws, h, hr => by
    -- a list in a list is passed over, but there is nothing to hide in it
    simp only [AlikeItems] at h
    simp only [reachedItems, Bool.and_eq_true] at hr
    obtain rfl := Alike.eq_of_plain lower h.1 hr.1
    unfold redactItems
    rw [redactItems_alike h.2 hr.2]
  | .null :: vs, w :: ws, h, hr => by
    simp only [AlikeItems] at h
    simp only [reachedItems, Bool.and_eq_true] at hr
    obtain rfl : Json.null = w := by simpa [Alike] using h.1
    exact congrArg (Json.null :: ·) (redactItems_alike h.2 hr.2)
  | .bool b :: vs, w :: ws, h, hr => by
    simp only [AlikeItems] at h
    simp only [reachedItems, Bool.and_eq_true] at hr
    obtain rfl : Json.bool b = w := by simpa [Alike] using h.1
    exact congrArg (Json.bool b :: ·) (redactItems_alike h.2 hr.2)
  | .number x :: vs, w :: ws, h, hr => by
    simp only [AlikeItems] at h
    simp only [reachedItems, Bool.and_eq_true] at hr
    obtain rfl : Json.number x = w := by simpa [Alike] using h.1
    exact congrArg (Json.number x :: ·) (redactItems_alike h.2 hr.2)
  | .text t :: vs, w :: ws, h, hr => by
    simp only [AlikeItems] at h
    simp only [reachedItems, Bool.and_eq_true] at hr
    obtain rfl : Json.text t = w := by simpa [Alike] using h.1
    exact congrArg (Json.text t :: ·) (redactItems_alike h.2 hr.2)

end

/-! ### What is not reached is told apart -/

mutual

/-- Other arguments that are alike: what is under a sensitive key is put into a list. -/
def disguiseValue : Json → Json
  | .object entries => .object (disguiseEntries entries)
  | .array values => .array (disguiseItems values)
  | value => value

def disguiseEntries : List (String × Json) → List (String × Json)
  | [] => []
  | (key, value) :: rest =>
    (key, if isSensitive lower key then .array [value] else disguiseValue value) ::
      disguiseEntries rest

def disguiseItems : List Json → List Json
  | [] => []
  | value :: rest => disguiseValue value :: disguiseItems rest

end

mutual

theorem alike_disguiseValue : ∀ v : Json, Alike lower v (disguiseValue lower v)
  | .object es => alike_disguiseEntries es
  | .array vs => alike_disguiseItems vs
  | .null => rfl
  | .bool _ => rfl
  | .number _ => rfl
  | .text _ => rfl

theorem alike_disguiseEntries : ∀ es : List (String × Json),
    AlikeEntries lower es (disguiseEntries lower es)
  | [] => trivial
  | (key, value) :: es => by
    refine ⟨rfl, ?_, alike_disguiseEntries es⟩
    by_cases hkey : isSensitive lower key = true
    · exact Or.inl hkey
    · rw [if_neg hkey]
      exact Or.inr (alike_disguiseValue value)

theorem alike_disguiseItems : ∀ vs : List Json, AlikeItems lower vs (disguiseItems lower vs)
  | [] => trivial
  | v :: vs => ⟨alike_disguiseValue v, alike_disguiseItems vs⟩

end

theorem array_singleton_ne (v : Json) : Json.array [v] ≠ v := by
  intro h
  have hsize := congrArg sizeOf h
  simp only [Json.array.sizeOf_spec, List.cons.sizeOf_spec, List.nil.sizeOf_spec] at hsize
  omega

mutual

/-- What the disguise leaves as it is has no sensitive key inside. -/
theorem plain_of_disguiseValue : ∀ {v : Json}, disguiseValue lower v = v →
    plainValue lower v = true
  | .object _, h => plain_of_disguiseEntries (Json.object.inj h)
  | .array _, h => plain_of_disguiseItems (Json.array.inj h)
  | .null, _ => rfl
  | .bool _, _ => rfl
  | .number _, _ => rfl
  | .text _, _ => rfl

theorem plain_of_disguiseEntries : ∀ {es : List (String × Json)},
    disguiseEntries lower es = es → plainEntries lower es = true
  | [], _ => rfl
  | (key, value) :: es, h => by
    obtain ⟨hhead, hrest⟩ := List.cons.inj h
    have hvalue := congrArg Prod.snd hhead
    have hkey : ¬ isSensitive lower key = true := by
      intro hs
      rw [if_pos hs] at hvalue
      exact array_singleton_ne value hvalue
    rw [if_neg hkey] at hvalue
    simp only [plainEntries, Bool.and_eq_true, Bool.not_eq_true']
    exact ⟨⟨by simpa using hkey, plain_of_disguiseValue hvalue⟩, plain_of_disguiseEntries hrest⟩

theorem plain_of_disguiseItems : ∀ {vs : List Json}, disguiseItems lower vs = vs →
    plainItems lower vs = true
  | [], _ => rfl
  | v :: vs, h => by
    obtain ⟨hhead, hrest⟩ := List.cons.inj h
    simp only [plainItems, Bool.and_eq_true]
    exact ⟨plain_of_disguiseValue hhead, plain_of_disguiseItems hrest⟩

end

mutual

/-- If the redactor does not tell arguments from their disguise, it reached every sensitive key. -/
theorem reached_of_redactValue : ∀ {v : Json},
    redactValue lower v = redactValue lower (disguiseValue lower v) → reachedValue lower v = true
  | .object _, h => reached_of_redactToolArguments (Json.object.inj h)
  | .array _, h => reached_of_redactItems (Json.array.inj h)
  | .null, _ => rfl
  | .bool _, _ => rfl
  | .number _, _ => rfl
  | .text _, _ => rfl

theorem reached_of_redactToolArguments : ∀ {es : List (String × Json)},
    redactToolArguments lower es = redactToolArguments lower (disguiseEntries lower es) →
      reachedEntries lower es = true
  | [], _ => rfl
  | (key, value) :: es, h => by
    obtain ⟨hhead, hrest⟩ := List.cons.inj h
    simp only [reachedEntries, Bool.and_eq_true, Bool.or_eq_true]
    refine ⟨?_, reached_of_redactToolArguments hrest⟩
    by_cases hkey : isSensitive lower key = true
    · exact Or.inl hkey
    · have hvalue := congrArg Prod.snd hhead
      simp only [if_neg hkey] at hvalue
      exact Or.inr (reached_of_redactValue hvalue)

theorem reached_of_redactItems : ∀ {vs : List Json},
    redactItems lower vs = redactItems lower (disguiseItems lower vs) →
      reachedItems lower vs = true
  | [], _ => rfl
  | .object es :: vs, h => by
    obtain ⟨hhead, hrest⟩ := List.cons.inj h
    simp only [reachedItems, Bool.and_eq_true]
    exact ⟨reached_of_redactToolArguments (Json.object.inj hhead), reached_of_redactItems hrest⟩
  | .array vs' :: vs, h => by
    obtain ⟨hhead, hrest⟩ := List.cons.inj h
    simp only [reachedItems, Bool.and_eq_true]
    exact ⟨plain_of_disguiseValue lower hhead.symm, reached_of_redactItems hrest⟩
  | .null :: vs, h => by
    simpa [reachedItems, plainValue] using reached_of_redactItems (List.cons.inj h).2
  | .bool _ :: vs, h => by
    simpa [reachedItems, plainValue] using reached_of_redactItems (List.cons.inj h).2
  | .number _ :: vs, h => by
    simpa [reachedItems, plainValue] using reached_of_redactItems (List.cons.inj h).2
  | .text _ :: vs, h => by
    simpa [reachedItems, plainValue] using reached_of_redactItems (List.cons.inj h).2

end

/-- Whatever is stored under sensitive keys, the redacted arguments and the summary of the started
    event are the same, exactly if every sensitive key is reached. -/
theorem redaction_hides_iff (dumps : Json → String) (toolName : String)
    (args : List (String × Json)) :
    (∀ other, AlikeEntries lower args other →
      redactToolArguments lower args = redactToolArguments lower other ∧
        startedSummary lower dumps toolName args = startedSummary lower dumps toolName other) ↔
      reachedEntries lower args = true := by
  constructor
  · intro h
    have hdisguise := h (disguiseEntries lower args) (alike_disguiseEntries lower args)
    exact reached_of_redactToolArguments lower hdisguise.1
  · intro hreached other hother
    have hredacted := redactToolArguments_alike lower hother hreached
    refine ⟨hredacted, ?_⟩
    unfold startedSummary
    rw [hredacted]

end Redaction

/-- A token in an object in a list of lists. -/
def tokenInLists (token : String) : List (String × Json) :=
  [("a", .array [.array [.object [("token", .text token)]]])]

/-- Two calls that differ only in a token are told apart by what is recorded of them. -/
theorem redaction_shows_token :
    AlikeEntries String.toLower (tokenInLists "x") (tokenInLists "y") ∧
      redactToolArguments String.toLower (tokenInLists "x") ≠
        redactToolArguments String.toLower (tokenInLists "y") := by
  have htoken : isSensitive String.toLower "token" = true := by decide +kernel
  have ha : isSensitive String.toLower "a" = false := by decide +kernel
  constructor
  · simp [tokenInLists, AlikeEntries, AlikeItems, Alike, htoken]
  · simp [tokenInLists, redactToolArguments, redactValue, redactItems, ha]

/-! ## The tool registry -/

inductive GatewayToolRisk where
  | low | medium | high
deriving DecidableEq, Repr

structure GatewayToolDefinition where
  name : String
  description : String
  inputSchema : Dict Json
  risk : GatewayToolRisk
  requiredRole : String
  highRisk : Bool := false

instance : Model GatewayToolDefinition where
  name := "GatewayToolDefinition"
  normalize := id
  checks t := [
    ("name", safeIdentifier 1 120 t.name),
    ("description", decide (1 ≤ t.description.length)),
    ("required_role", !containsAny separators t.requiredRole)]
  normalize_idem _ := rfl

structure GatewayToolVisibilityRequest where
  clientId : Option String := none
  runId : Option String := none
  role : Option String := none
  approvedHighRiskTools : List String := []
deriving DecidableEq, Repr

/-- `tuple(sorted(set(value.strip() for value in values if value.strip())))`. -/
def normalizeApproved (values : List String) : List String :=
  normalizeCapabilities (values.filter fun value => stripped value ≠ "")

theorem normalizeApproved_idem (values : List String) :
    normalizeApproved (normalizeApproved values) = normalizeApproved values := by
  have hkeep : (normalizeApproved values).filter (fun value => stripped value ≠ "") =
      normalizeApproved values := by
    refine List.filter_eq_self.mpr fun value hvalue => ?_
    obtain ⟨w, hw, rfl⟩ := mem_normalizeCapabilities.mp hvalue
    rw [stripped_stripped]
    exact (List.mem_filter.mp hw).2
  calc normalizeApproved (normalizeApproved values)
      = normalizeCapabilities (normalizeApproved values) := by
        conv_lhs => rw [normalizeApproved, hkeep]
    _ = normalizeApproved values := normalizeCapabilities_idem _

instance : Model GatewayToolVisibilityRequest where
  name := "GatewayToolVisibilityRequest"
  normalize r := { r with approvedHighRiskTools := normalizeApproved r.approvedHighRiskTools }
  checks r := [
    ("client_id", optionally (safeIdentifier 0 160) r.clientId),
    ("run_id", optionally (safeIdentifier 0 160) r.runId),
    ("role", optionally (safeIdentifier 0 80) r.role),
    ("approved_high_risk_tools", r.approvedHighRiskTools.all (!containsAny separators ·))]
  normalize_idem r := by simp [normalizeApproved_idem]

structure GatewayToolAuditRecord where
  toolName : String
  clientId : Option String
  runId : Option String
  requestedRole : Option String
  requiredRole : String
  visible : Bool
  reason : String
deriving DecidableEq, Repr

structure GatewayToolVisibilityResult where
  tools : List (Checked GatewayToolDefinition)
  audit : List GatewayToolAuditRecord

/-- `GatewayToolVisibilityRequest(role="observer")`. -/
def observerRequest : Checked GatewayToolVisibilityRequest :=
  ⟨{ role := some "observer" }, rfl, by decide⟩

/-- `request or GatewayToolVisibilityRequest(role="observer")`. -/
def visibilityOf (request : Option (Checked GatewayToolVisibilityRequest)) :
    Checked GatewayToolVisibilityRequest :=
  request.getD observerRequest

/-- `visibility.role or "observer"`. -/
def requestedRole (visibility : GatewayToolVisibilityRequest) : String :=
  orDefault visibility.role "observer"

/-- `_tool_visible`. -/
def toolVisible (tool : GatewayToolDefinition) (role : String)
    (request : GatewayToolVisibilityRequest) : Bool × String :=
  if tool.requiredRole = "observer" then (true, "observer tool visible")
  else if role ≠ tool.requiredRole then (false, "requires role " ++ tool.requiredRole)
  else if tool.highRisk ∧ tool.name ∉ request.approvedHighRiskTools then
    (false, "high-risk tool requires explicit approval")
  else (true, "role " ++ role ++ " allowed")

/-- The audit record of a tool of the registry, built alike by listing and by calling. -/
def auditRecord (visibility : GatewayToolVisibilityRequest) (tool : GatewayToolDefinition) :
    GatewayToolAuditRecord :=
  let role := requestedRole visibility
  { toolName := tool.name
    clientId := visibility.clientId
    runId := visibility.runId
    requestedRole := some role
    requiredRole := tool.requiredRole
    visible := (toolVisible tool role visibility).1
    reason := (toolVisible tool role visibility).2 }

section Registry

-- the registry, `_GATEWAY_TOOLS`
variable (gatewayTools : List (Checked GatewayToolDefinition))

/-- `gateway_tool_registry`. -/
def gatewayToolRegistry : Dict (Checked GatewayToolDefinition) :=
  Dict.ofValues (fun tool => tool.1.name) gatewayTools

/-- `filter_gateway_tools`. -/
def filterGatewayTools (request : Option (Checked GatewayToolVisibilityRequest)) :
    GatewayToolVisibilityResult :=
  let visibility := (visibilityOf request).1
  let role := requestedRole visibility
  { tools := gatewayTools.filter fun tool => (toolVisible tool.1 role visibility).1
    audit := gatewayTools.map fun tool => auditRecord visibility tool.1 }

/-- `authorize_gateway_tool_call`. -/
def authorizeGatewayToolCall (toolName : String)
    (request : Option (Checked GatewayToolVisibilityRequest)) : GatewayToolAuditRecord :=
  let visibility := (visibilityOf request).1
  match Dict.get (gatewayToolRegistry gatewayTools) toolName with
  | none =>
    { toolName := toolName
      clientId := visibility.clientId
      runId := visibility.runId
      requestedRole := some (requestedRole visibility)
      requiredRole := "unknown"
      visible := false
      reason := "unknown tool" }
  | some tool => auditRecord visibility tool.1

/-- `schema.get("type") == "object"`. -/
def isObjectSchema (schema : Dict Json) : Bool :=
  match Dict.get schema "type" with
  | some (.text kind) => decide (kind = "object")
  | _ => false

/-- The loop of `validate_gateway_tool_registry`. -/
def validateTools : List (Checked GatewayToolDefinition) → Except PyError Unit
  | [] => .ok ()
  | tool :: rest =>
    if tool.1.risk = .high ∧ tool.1.highRisk = false then
      .error (.valueError ("high-risk tool " ++ tool.1.name ++ " must be marked explicitly"))
    else if isObjectSchema tool.1.inputSchema = false then
      .error (.valueError ("tool " ++ tool.1.name ++ " must use an object input schema"))
    else validateTools rest

/-- `validate_gateway_tool_registry`. -/
def validateGatewayToolRegistry : Except PyError Unit :=
  if (gatewayTools.map fun tool => tool.1.name).Nodup then validateTools gatewayTools
  else .error (.valueError "gateway tool registry contains duplicate tool names")

end Registry

/-- A registry that `validate_gateway_tool_registry` lets through. -/
abbrev GatewayTools : Type :=
  { tools : List (Checked GatewayToolDefinition) // validateGatewayToolRegistry tools = .ok () }

/-! ### Listing and calling -/

namespace GatewayTools

variable (registry : GatewayTools) (request : Option (Checked GatewayToolVisibilityRequest))

theorem nodup : (registry.1.map fun tool => tool.1.name).Nodup := by
  by_contra hdup
  have haccepted := registry.2
  rw [validateGatewayToolRegistry, if_neg hdup] at haccepted
  cases haccepted

/-- A tool of an accepted registry is told from the others by its name. -/
theorem eq_of_name {tool other : Checked GatewayToolDefinition} (h : tool ∈ registry.1)
    (h' : other ∈ registry.1) (hname : tool.1.name = other.1.name) : tool = other :=
  List.inj_on_of_nodup_map registry.nodup h h' hname

/-- A call of a registry tool is judged by that tool. -/
theorem authorize_of_mem {tool : Checked GatewayToolDefinition} (h : tool ∈ registry.1) :
    authorizeGatewayToolCall registry.1 tool.1.name request =
      auditRecord (visibilityOf request).1 tool.1 := by
  have hfound : registry.1.find? (fun other => other.1.name = tool.1.name) = some tool := by
    have hsome : (registry.1.find? fun other => other.1.name = tool.1.name).isSome :=
      List.find?_isSome.mpr ⟨tool, h, by simp⟩
    obtain ⟨other, hother⟩ := Option.isSome_iff_exists.mp hsome
    have hname : other.1.name = tool.1.name := by simpa using List.find?_some hother
    rw [hother, registry.eq_of_name (List.mem_of_find?_eq_some hother) h hname]
  unfold authorizeGatewayToolCall gatewayToolRegistry
  rw [Dict.get_ofValues registry.nodup, hfound]

/-- No call of a tool outside the registry is allowed. -/
theorem authorize_of_not_mem (name : String)
    (h : ∀ tool ∈ registry.1, tool.1.name ≠ name) :
    (authorizeGatewayToolCall registry.1 name request).visible = false := by
  have hnone : registry.1.find? (fun other => other.1.name = name) = none := by
    simpa [List.find?_eq_none] using h
  unfold authorizeGatewayToolCall gatewayToolRegistry
  rw [Dict.get_ofValues registry.nodup, hnone]

/-- A name is listed exactly if a call of it is allowed. -/
theorem listed_iff_authorized (name : String) :
    name ∈ ((filterGatewayTools registry.1 request).tools.map fun tool => tool.1.name) ↔
      (authorizeGatewayToolCall registry.1 name request).visible = true := by
  rw [List.mem_map]
  constructor
  · rintro ⟨tool, htool, rfl⟩
    obtain ⟨hmem, hvisible⟩ := List.mem_filter.mp htool
    rw [registry.authorize_of_mem request hmem]
    exact hvisible
  · intro hvisible
    by_contra hunlisted
    by_cases hknown : ∃ tool ∈ registry.1, tool.1.name = name
    · obtain ⟨tool, hmem, rfl⟩ := hknown
      rw [registry.authorize_of_mem request hmem] at hvisible
      exact hunlisted ⟨tool, List.mem_filter.mpr ⟨hmem, hvisible⟩, rfl⟩
    · have hdenied := registry.authorize_of_not_mem request name
        (by intro tool hmem heq; exact hknown ⟨tool, hmem, heq⟩)
      rw [hdenied] at hvisible
      cases hvisible

/-- The listing has one audit record of each tool, the one a call would give. -/
theorem audited_once {tool : Checked GatewayToolDefinition} (h : tool ∈ registry.1) :
    (filterGatewayTools registry.1 request).audit.filter
        (fun record => record.toolName = tool.1.name) =
      [authorizeGatewayToolCall registry.1 tool.1.name request] := by
  rw [registry.authorize_of_mem request h]
  have honly : registry.1.filter (fun other => decide (other.1.name = tool.1.name)) = [tool] := by
    have hnodup : registry.1.Nodup := List.Nodup.of_map _ registry.nodup
    refine List.perm_singleton.mp ((List.perm_ext_iff_of_nodup (hnodup.filter _)
      (List.nodup_singleton tool)).mpr fun other => ?_)
    rw [List.mem_filter, List.mem_singleton]
    constructor
    · rintro ⟨hother, hname⟩
      exact registry.eq_of_name hother h (by simpa using hname)
    · rintro rfl
      exact ⟨h, by simp⟩
  show (registry.1.map _).filter _ = _
  rw [List.filter_map]
  show (registry.1.filter fun other => decide (other.1.name = tool.1.name)).map _ = _
  rw [honly]
  rfl

end GatewayTools

/-- When a tool of the registry is allowed: the observer test first, then role and approval. -/
theorem auditRecord_visible_iff (visibility : GatewayToolVisibilityRequest)
    (tool : GatewayToolDefinition) :
    (auditRecord visibility tool).visible = true ↔ tool.requiredRole = "observer" ∨
      (requestedRole visibility = tool.requiredRole ∧
        (tool.highRisk = true → tool.name ∈ visibility.approvedHighRiskTools)) := by
  show (toolVisible tool (requestedRole visibility) visibility).1 = true ↔ _
  unfold toolVisible
  by_cases hobserver : tool.requiredRole = "observer"
  · rw [if_pos hobserver]
    exact ⟨fun _ => Or.inl hobserver, fun _ => rfl⟩
  · rw [if_neg hobserver]
    by_cases hrole : requestedRole visibility = tool.requiredRole
    · rw [if_neg (not_not.mpr hrole)]
      by_cases happroved : tool.highRisk = true ∧ tool.name ∉ visibility.approvedHighRiskTools
      · rw [if_pos happroved]
        exact ⟨fun h => (by cases h), fun h => h.elim (fun h => absurd h hobserver)
          (fun h => absurd (h.2 happroved.1) happroved.2)⟩
      · rw [if_neg happroved]
        refine ⟨fun _ => Or.inr ⟨hrole, fun hrisk => ?_⟩, fun _ => rfl⟩
        by_contra hmissing
        exact happroved ⟨hrisk, hmissing⟩
    · rw [if_pos hrole]
      exact ⟨fun h => (by cases h), fun h => h.elim (fun h => absurd h hobserver)
        (fun h => absurd h.1 hrole)⟩

/-- What the gateway promises about a registry and a request. -/
structure Authorises (registry : GatewayTools)
    (request : Option (Checked GatewayToolVisibilityRequest)) : Prop where
  listed : ∀ name,
    name ∈ ((filterGatewayTools registry.1 request).tools.map fun tool => tool.1.name) ↔
      (authorizeGatewayToolCall registry.1 name request).visible = true
  audited : ∀ tool ∈ registry.1,
    (filterGatewayTools registry.1 request).audit.filter
        (fun record => record.toolName = tool.1.name) =
      [authorizeGatewayToolCall registry.1 tool.1.name request]
  approved : ∀ tool ∈ registry.1, tool.1.highRisk = true →
    (authorizeGatewayToolCall registry.1 tool.1.name request).visible = true →
      requestedRole (visibilityOf request).1 = tool.1.requiredRole ∧
        tool.1.name ∈ (visibilityOf request).1.approvedHighRiskTools

/-- The gateway keeps its promise exactly if every high-risk tool that asks for no more than the
    role observer is approved, and asked for by an observer. -/
theorem gateway_authorises_iff (registry : GatewayTools)
    (request : Option (Checked GatewayToolVisibilityRequest)) :
    Authorises registry request ↔
      ∀ tool ∈ registry.1, tool.1.highRisk = true → tool.1.requiredRole = "observer" →
        requestedRole (visibilityOf request).1 = "observer" ∧
          tool.1.name ∈ (visibilityOf request).1.approvedHighRiskTools := by
  constructor
  · intro h tool hmem hrisk hobserver
    have hvisible : (authorizeGatewayToolCall registry.1 tool.1.name request).visible = true := by
      rw [registry.authorize_of_mem request hmem, auditRecord_visible_iff]
      exact Or.inl hobserver
    have happroved := h.approved tool hmem hrisk hvisible
    rwa [hobserver] at happroved
  · intro h
    refine ⟨registry.listed_iff_authorized request,
      fun tool hmem => registry.audited_once request hmem, ?_⟩
    intro tool hmem hrisk hvisible
    rw [registry.authorize_of_mem request hmem, auditRecord_visible_iff] at hvisible
    rcases hvisible with hobserver | ⟨hrole, happroved⟩
    · rw [hobserver]
      exact h tool hmem hrisk hobserver
    · exact ⟨hrole, happroved hrisk⟩

/-- A registry with one tool, high-risk and yet for observers. -/
def riskyObserverTool : Checked GatewayToolDefinition :=
  ⟨{ name := "repo_patch"
     description := "Apply a patch."
     inputSchema := [("type", .text "object")]
     risk := .high
     requiredRole := "observer"
     highRisk := true }, rfl, by decide⟩

def riskyObserverTools : GatewayTools := ⟨[riskyObserverTool], by rfl⟩

/-- The validator accepts the registry, and whoever asks for nothing may call the tool. -/
theorem riskyObserverTool_unapproved : ¬ Authorises riskyObserverTools none := by
  intro h
  have happroved := h.approved riskyObserverTool List.mem_cons_self rfl (by decide)
  exact absurd happroved.2 (by decide)

/-! ### The tools of the gateway -/

/-- A property of a schema: its type, and what else is said of it. -/
def property (type : String) (more : List (String × Json) := []) : Json :=
  .object (("type", .text type) :: more)

/-- `_tool`. -/
def gatewayTool (name description : String) (properties : List (String × Json))
    (required : List String := []) (risk : GatewayToolRisk := .low)
    (requiredRole : String := "observer") (highRisk : Bool := false) : GatewayToolDefinition where
  name := name
  description := description
  inputSchema := [("type", .text "object"), ("properties", .object properties)] ++
    if required = [] then [] else [("required", .array (required.map .text))]
  risk := risk
  requiredRole := requiredRole
  highRisk := highRisk

/-- The arguments of the two tools that patch a repository. -/
def patchProperties : List (String × Json) := [
  ("path", property "string"),
  ("eip_file", property "string"),
  ("proof_plan_file", property "string"),
  ("patch_file", property "string"),
  ("allow_dirty", property "boolean"),
  ("approve_dependencies", property "boolean")]

/-- The definitions in `_GATEWAY_TOOLS`. -/
def gatewayToolData : List GatewayToolDefinition := [
  gatewayTool "validate_eip"
    "Validates a VAD EIP (Intent Document) against the schema and validation constraints."
    [("file", property "string"
      [("description", .text "Path to the EIP file (YAML or JSON)")])] ["file"],
  gatewayTool "run_proofs"
    "Executes the defined proof obligations (e.g. running pytest) to verify requirements."
    [("target", property "string"
      [("description", .text "Optional pytest target (e.g. tests/test_models.py)")])]
    [] .medium "verifier",
  gatewayTool "retro_analyze"
    ("Runs retrospective analysis on an evidence bundle, generating learnings and persisting " ++
      "them to MemoryScope.RETROSPECTIVE.")
    [("file", property "string"
      [("description", .text "Path to the evidence bundle JSON or YAML file")])]
    ["file"] .medium "auditor",
  gatewayTool "query_retrospective"
    "Queries historical retrospective learnings from the VAD memory store." [],
  gatewayTool "submit_retrospective"
    "Manually records a learning back into the retrospective memory scope."
    [("learning", property "string"
      [("description", .text "A clear, actionable learning or rule to record")])]
    ["learning"] .medium "auditor",
  gatewayTool "repo_assess" "Assess a local repository without mutation."
    [("path", property "string")] ["path"],
  gatewayTool "repo_patch"
    "Apply an explicit unified diff to a repo, run proofs, and roll back on denial/failure."
    patchProperties ["path", "eip_file", "proof_plan_file", "patch_file"] .high "builder" true,
  gatewayTool "repo_run" "Run bounded repository automation using an explicit patch file."
    patchProperties ["path", "eip_file", "proof_plan_file", "patch_file"] .high "builder" true,
  gatewayTool "sign_verify"
    "Verify a signed evidence artifact with a local development secret file."
    [("signed_file", property "string"), ("secret_file", property "string")]
    ["signed_file", "secret_file"] .high "release_guardian" true,
  gatewayTool "evidence_inspect" "Inspect evidence and return its deterministic hash."
    [("file", property "string")] ["file"],
  gatewayTool "provider_inventory"
    "Return provider inventory for fake or OpenAI adapters without live calls."
    [("provider", property "string" [("enum", .array [.text "fake", .text "openai"])])]
    ["provider"],
  gatewayTool "provider_test" "Run an offline provider completion contract test."
    [("prompt", property "string"), ("model", property "string")] ["prompt"] .medium "verifier",
  gatewayTool "swarm_status" "Read persisted swarm state and reconstruct status."
    [("state", property "string")] ["state"]]

theorem gatewayToolData_valid : ∀ tool ∈ gatewayToolData, Model.Valid tool := by
  have hchecks : ∀ tool ∈ gatewayToolData, failedFields (Model.checks tool) = [] := by
    decide +kernel
  exact fun tool htool => ⟨rfl, hchecks tool htool⟩

/-- `_GATEWAY_TOOLS`, validated as the module is loaded. -/
def gatewayTools : GatewayTools :=
  ⟨gatewayToolData.pmap (fun tool h => ⟨tool, h⟩) gatewayToolData_valid, by rfl⟩

end Vad
