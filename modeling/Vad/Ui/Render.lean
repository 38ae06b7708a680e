/-
  The pages that the server renders (`vad/ui/render.py`).

  A page is put together from pieces of markup and escaped values.  `str` is what Python makes of a
  value; nothing is assumed about it, so that a value may be any text, markup included.

  1. **Pages** (`renderRunList` … `summaryCards`) — as the source puts them together.
  2. **Trees** (`runListNodes` …) — the elements that each page is meant to be, with the values as
     texts and attribute values in them.
  3. **Reading back** (`page_reads_back`) — a reader of the page finds the tree; whatever
     the values are shown as, it finds the same elements with the same attributes.
-/
import Vad.Lib.Html
import Vad.Lib.CanonicalJson
import Vad.Lib.Dict
import Vad.ControlPlane.Model

namespace Vad.Ui

open PyText (Text)
open Html (Node escape render Stands)
open CanonicalJson (Value)

/-! ## Values -/

/-- A `dict[str, Any]` of the payload. -/
abbrev Row (φ : Type) := Dict (Value φ)

section Values

variable {φ : Type}

/-- `row.get(key)`. -/
def Row.get (row : Row φ) (key : String) : Value φ := (Dict.get row key).getD .null

/-- `row.get(key, default)`. -/
def Row.getOr (row : Row φ) (key default : String) : Value φ :=
  (Dict.get row key).getD (.text default)

/-- `bool(value)`. -/
def holds (isZero : φ → Bool) : Value φ → Bool
  | .null => false
  | .bool b => b
  | .int n => n != 0
  | .float x => !isZero x
  | .text s => s != ""
  | .array values => !values.isEmpty
  | .object entries => !entries.isEmpty

/-- `a or b`. -/
def orElse (isZero : φ → Bool) (a b : Value φ) : Value φ := if holds isZero a then a else b

/-- `value == text`. -/
def isText (value : Value φ) (text : String) : Bool :=
  match value with
  | .text s => s == text
  | _ => false

/-- `value in {…}`: a list or a dict has no hash. -/
def inSet (names : List String) : Value φ → Except PyError Bool
  | .text s => .ok (names.contains s)
  | .array _ => .error .typeError
  | .object _ => .error .typeError
  | _ => .ok false

/-- `for x in value`. -/
def iterate : Value φ → Except PyError (List (Value φ))
  | .array values => .ok values
  | .object entries => .ok (entries.map fun e => .text e.1)
  | .text s => .ok (s.toList.map fun c => .text (String.singleton c))
  | _ => .error .typeError

/-- `value.get`. -/
def asDict : Value φ → Except PyError (Row φ)
  | .object entries => .ok entries
  | _ => .error .attributeError

end Values

/-! ## Pages -/

section Pages

variable {φ : Type} (isZero : φ → Bool) (str : Value φ → Text)

/-- `html.escape(str(value))`. -/
def shown (value : Value φ) : Text := escape (str value)

/-- `"\n".join(rows)`. -/
def joinLines (rows : List Text) : Text := ['\n'].intercalate rows

def runRow (run : Row φ) : Text :=
  let runId := shown str (run.getOr "run_id" "")
  let decision := shown str (run.getOr "final_decision" "unknown")
  let digest := escape ((str (run.getOr "evidence_digest" "")).take 12)
  "<button class=\"run-row\" data-run-id=\"".toList ++ runId ++ "\">".toList ++
    "<span>".toList ++ runId ++ "</span><strong>".toList ++ decision ++ "</strong><code>".toList ++
    digest ++ "</code></button>".toList

def renderRunList (runs : List (Row φ)) : Text :=
  if runs.isEmpty then "<p class=\"empty\">No runs recorded.</p>".toList
  else joinLines (runs.map (runRow str))

def renderEvidenceDetail (payload : Row φ) : Except PyError Text := do
  let evidence ← asDict ((Dict.get payload "evidence").getD (.object []))
  let runId := shown str ((Dict.get payload "run_id").getD (evidence.getOr "run_id" ""))
  let decision := shown str (evidence.getOr "final_decision" "unknown")
  let agents ← asDict ((Dict.get evidence "agents").getD (.object []))
  let builder := shown str (agents.getOr "builder" "")
  let verifier := shown str (agents.getOr "verifier" "")
  let digest := shown str (payload.getOr "evidence_digest" "")
  pure ("<h2>".toList ++ runId ++ "</h2>".toList ++
    "<dl class=\"evidence-grid\">".toList ++
    "<dt>Decision</dt><dd>".toList ++ decision ++ "</dd>".toList ++
    "<dt>Builder</dt><dd>".toList ++ builder ++ "</dd>".toList ++
    "<dt>Verifier</dt><dd>".toList ++ verifier ++ "</dd>".toList ++
    "<dt>Digest</dt><dd><code>".toList ++ digest ++ "</code></dd>".toList ++
    "</dl>".toList)

def renderApprovalResult (payload : Row φ) : Except PyError Text := do
  let approval ← asDict ((Dict.get payload "approval").getD (.object []))
  let decision ← asDict ((Dict.get approval "decision").getD
    ((Dict.get payload "decision").getD (.object [])))
  let allowed := holds isZero ((Dict.get decision "allow").getD (.bool false))
  let label := if allowed then "Approved".toList else "Denied".toList
  let reasons ← iterate (orElse isZero (orElse isZero (Row.get decision "reasons")
    (Row.get decision "denials")) (.array []))
  let items := reasons.flatMap fun reason => "<li>".toList ++ shown str reason ++ "</li>".toList
  let statusClass := if allowed then "allowed".toList else "denied".toList
  pure ("<section class=\"approval-result ".toList ++ statusClass ++ "\"><h3>".toList ++ label ++
    "</h3><ul>".toList ++ items ++ "</ul></section>".toList)

/-- An `<article>` of the task board. -/
def taskCard (status : Text) (statusName : String) (task : Row φ) : Text :=
  let owner := orElse isZero (orElse isZero (orElse isZero (task.get "lease_owner")
    (task.get "client")) (task.get "client_id")) (.text "unassigned")
  let expiry := orElse isZero (task.get "lease_expires_at") (.text "no expiry")
  "<article class=\"task-card ".toList ++ escape status ++ "\" data-task-status=\"".toList ++
    escape status ++ "\">".toList ++
    "<strong>".toList ++ shown str (task.getOr "task_id" "task") ++ "</strong>".toList ++
    "<span>".toList ++ shown str (task.getOr "summary" "") ++ "</span>".toList ++
    "<code>".toList ++ shown str (task.getOr "kind" "task") ++ " / ".toList ++
    shown str (task.getOr "status" statusName) ++ "</code>".toList ++
    "<small>Owner ".toList ++ shown str owner ++ " / Expires ".toList ++ shown str expiry ++
    "</small>".toList ++
    "</article>".toList

def taskColumn (columns : Dict (List (Row φ))) (statusName : String) : Text :=
  let status := statusName.toList
  let tasks := (Dict.get columns statusName).getD []
  let body :=
    if tasks.isEmpty then "<p class=\"empty\">No tasks.</p>".toList
    else tasks.flatMap (taskCard isZero str status statusName)
  "<section class=\"task-column ".toList ++ escape status ++ "\"><h3>".toList ++ escape status ++
    "</h3>".toList ++ body ++ "</section>".toList

def boardStatuses : List String := ["active", "blocked", "passed", "failed", "needs_human"]

def renderTaskBoard (columns : Dict (List (Row φ))) : Text :=
  "<div class=\"task-board-grid\">".toList ++
    boardStatuses.flatMap (taskColumn isZero str columns) ++ "</div>".toList

def proofRow (proof : Row φ) : Text :=
  let status := shown str (proof.getOr "status" "")
  let recovery := proof.get "recovery_evidence_url"
  let recoveryLink :=
    if holds isZero recovery then
      "<a href=\"".toList ++ shown str recovery ++ "\">Recovery evidence</a>".toList
    else []
  "<article class=\"proof-row ".toList ++ status ++ "\" data-proof-status=\"".toList ++ status ++
    "\">".toList ++
    "<strong>".toList ++ shown str (proof.getOr "task_id" "proof") ++ "</strong>".toList ++
    "<span>".toList ++ shown str (proof.getOr "summary" "") ++ "</span>".toList ++
    "<code>".toList ++ status ++ " / ".toList ++ shown str (proof.getOr "client" "") ++
    "</code>".toList ++
    "<small>Started ".toList ++
    shown str (orElse isZero (proof.get "started_at") (.text "unknown")) ++
    " / Finished ".toList ++
    shown str (orElse isZero (proof.get "finished_at") (.text "pending")) ++ "</small>".toList ++
    recoveryLink ++
    "</article>".toList

def renderProofStatus (proofs : List (Row φ)) : Text :=
  if proofs.isEmpty then "<p class=\"empty\">No proof events recorded.</p>".toList
  else
    "<div class=\"proof-status-list\">".toList ++ proofs.flatMap (proofRow isZero str) ++
      "</div>".toList

def terminalRow (row : Row φ) : Text :=
  let status := shown str (row.getOr "status" "")
  let kind := shown str (row.getOr "kind" "")
  "<article class=\"terminal-row ".toList ++ status ++ "\" data-terminal-kind=\"".toList ++ kind ++
    "\">".toList ++
    "<code>".toList ++ kind ++ " / ".toList ++ status ++ "</code>".toList ++
    "<span>".toList ++ shown str (row.getOr "summary" "") ++ "</span>".toList ++
    "<small>".toList ++ shown str (orElse isZero (row.get "created_at") (.text "")) ++
    " / ".toList ++ shown str (orElse isZero (row.get "client") (.text "")) ++
    " / ".toList ++ shown str (orElse isZero (row.get "role") (.text "")) ++ "</small>".toList ++
    "</article>".toList

def renderTerminalStatus (rows : List (Row φ)) : Text :=
  if rows.isEmpty then "<p class=\"empty\">No terminal status recorded.</p>".toList
  else
    "<div class=\"terminal-list\">".toList ++ rows.flatMap (terminalRow isZero str) ++
      "</div>".toList

/-- The keyword arguments of `render_event_timeline`. -/
structure TimelineFilter where
  runId : Option String := none
  client : Option String := none
  status : Option String := none
  kind : Option String := none
  role : Option String := none
deriving DecidableEq, Repr

def TimelineFilter.admits (f : TimelineFilter) (event : Row φ) : Bool :=
  f.runId.all (isText (event.get "run_id")) &&
    f.client.all (fun client =>
      isText (event.get "client") client || isText (event.get "client_id") client) &&
    f.status.all (isText (event.get "status")) &&
    f.kind.all (isText (event.get "kind")) &&
    f.role.all (isText (event.get "role"))

def timelineRow (event : Row φ) : Text :=
  let eventKind := shown str (event.getOr "kind" "")
  let eventStatus := shown str (event.getOr "status" "")
  "<article class=\"timeline-row ".toList ++ eventKind ++ " ".toList ++ eventStatus ++
    "\" data-event-kind=\"".toList ++ eventKind ++ "\" data-event-status=\"".toList ++
    eventStatus ++ "\">".toList ++
    "<div>".toList ++
    "<strong>".toList ++ shown str (event.getOr "summary" "") ++ "</strong>".toList ++
    "<span>".toList ++ shown str (orElse isZero (orElse isZero (event.get "created_at")
      (event.get "updated_at")) (.text "")) ++ "</span>".toList ++
    "</div>".toList ++
    "<code>".toList ++ eventKind ++ " / ".toList ++ eventStatus ++ "</code>".toList ++
    "<small>".toList ++ shown str (orElse isZero (event.get "run_id") (.text "no-run")) ++
    " / ".toList ++ shown str (orElse isZero (orElse isZero (event.get "client")
      (event.get "client_id")) (.text "")) ++
    " / ".toList ++ shown str (orElse isZero (event.get "role") (.text "")) ++
    "</small>".toList ++
    "</article>".toList

def renderEventTimeline (f : TimelineFilter) (events : List (Row φ)) : Text :=
  let filtered := events.filter f.admits
  if filtered.isEmpty then "<p class=\"empty\">No events match the current filters.</p>".toList
  else
    "<div class=\"timeline-list\">".toList ++ filtered.flatMap (timelineRow isZero str) ++
      "</div>".toList

/-- `", ".join(…) or "no capabilities"`. -/
def capabilityText (values : List (Value φ)) : Text :=
  let joined := ", ".toList.intercalate (values.map str)
  if joined.isEmpty then "no capabilities".toList else joined

def heartbeatLabel (age : Value φ) : Text :=
  match age with
  | .null => "no heartbeat".toList
  | age => str age ++ "s ago".toList

def clientRow (client : Row φ) : Except PyError Text := do
  let status := shown str (client.getOr "status" "disconnected")
  let values ← iterate ((Dict.get client "supported_capabilities").getD (.array []))
  let capabilities := capabilityText str values
  let heartbeat := heartbeatLabel str (client.get "heartbeat_age_seconds")
  pure ("<article class=\"client-row ".toList ++ status ++ "\" data-client-status=\"".toList ++
    status ++ "\">".toList ++
    "<div>".toList ++
    "<strong>".toList ++ shown str (orElse isZero (client.get "display_name")
      (client.getOr "client_id" "")) ++ "</strong>".toList ++
    "<span>".toList ++ shown str (client.getOr "client_type" "") ++ " / ".toList ++
    shown str (client.getOr "connection_mode" "") ++ "</span>".toList ++
    "</div>".toList ++
    "<code>".toList ++ status ++ "</code>".toList ++
    "<span>".toList ++ escape heartbeat ++ "</span>".toList ++
    "<small>".toList ++ escape capabilities ++ "</small>".toList ++
    "</article>".toList)

def renderActiveClients (clients : List (Row φ)) : Except PyError Text :=
  if clients.isEmpty then .ok "<p class=\"empty\">No clients registered.</p>".toList
  else ((clients.mapM (clientRow isZero str)).map List.flatten).map fun rows =>
    "<div class=\"client-grid\">".toList ++ rows ++ "</div>".toList

def activityRow (item : Row φ) : Text :=
  "<article class=\"activity-row\">".toList ++
    "<strong>".toList ++ shown str (item.getOr "summary" "") ++ "</strong>".toList ++
    "<span>".toList ++ shown str (item.getOr "client" "") ++ " · ".toList ++
    shown str (item.getOr "actor" "") ++ " · ".toList ++ shown str (item.getOr "role" "") ++
    "</span>".toList ++
    "<code>".toList ++ shown str (item.getOr "kind" "") ++ " / ".toList ++
    shown str (item.getOr "status" "") ++ "</code>".toList ++
    "</article>".toList

def renderActivityStream (activity : List (Row φ)) : Text :=
  if activity.isEmpty then "<p class=\"empty\">No activity recorded.</p>".toList
  else joinLines (activity.map (activityRow str))

def workRow (item : Row φ) : Text :=
  let task := shown str (orElse isZero (item.get "task_id") (item.getOr "activity_id" ""))
  let summary := shown str (item.getOr "summary" "")
  let status := shown str (item.getOr "status" "")
  "<li><strong>".toList ++ task ++ "</strong><span>".toList ++ summary ++ "</span><code>".toList ++
    status ++ "</code></li>".toList

/-- The items that are open; `none` of them if a status is a list or a dict. -/
def openItems (activity : List (Row φ)) : Except PyError (List (Row φ)) :=
  activity.filterM fun item => inSet ["active", "blocked", "needs_human"] (item.get "status")

def renderWorkItems (activity : List (Row φ)) : Except PyError Text := do
  let work ← openItems activity
  if work.isEmpty then pure "<p class=\"empty\">No open work items.</p>".toList
  else
    pure ("<ul class=\"work-items\">".toList ++ work.flatMap (workRow isZero str) ++
      "</ul>".toList)

def renderKindView (activity : List (Row φ)) (kind : String) : Text :=
  renderActivityStream str (activity.filter fun item => isText (item.get "kind") kind)

def pluginRow (plugin : Row φ) : Text :=
  let status := shown str (plugin.getOr "status" "")
  let action := plugin.get "action_required"
  let actionMarkup :=
    if holds isZero action then "<small>".toList ++ shown str action ++ "</small>".toList else []
  "<article class=\"plugin-status-row ".toList ++ status ++ "\">".toList ++
    "<strong>".toList ++ shown str (plugin.getOr "plugin_id" "") ++ "</strong>".toList ++
    "<span>".toList ++ shown str (plugin.getOr "target_client" "") ++ " / local ".toList ++
    shown str (orElse isZero (plugin.get "local_version") (plugin.getOr "version" "")) ++
    "</span>".toList ++
    "<code>".toList ++ status ++ "</code>".toList ++
    "<small>Publication ".toList ++
    shown str (plugin.getOr "publication_readiness" "needs_review") ++ "</small>".toList ++
    "<p>".toList ++ shown str (plugin.getOr "summary" "") ++ "</p>".toList ++
    actionMarkup ++
    "</article>".toList

def renderPluginStatus (plugins : List (Row φ)) : Text :=
  if plugins.isEmpty then "<p class=\"empty\">No plugin status reported.</p>".toList
  else
    "<div class=\"plugin-status-grid\">".toList ++ plugins.flatMap (pluginRow isZero str) ++
      "</div>".toList

def countCell (entry : String × Value φ) : Text :=
  "<span><strong>".toList ++ shown str entry.2 ++ "</strong>".toList ++
    shown str (.text entry.1) ++ "</span>".toList

def summaryCards (title : String) (counts : Row φ) : Text :=
  let cells := (sortedItems counts).flatMap (countCell str)
  let cells := if cells.isEmpty then "<span><strong>0</strong>none</span>".toList else cells
  "<div class=\"summary-card\"><h2>".toList ++ escape title.toList ++ "</h2>".toList ++ cells ++
    "</div>".toList

/-- The payload of the dashboard; what is missing is empty. -/
structure DashboardView (φ : Type) where
  statusCounts : Row φ := []
  clientCounts : Row φ := []
  activeClients : List (Row φ) := []
  taskBoardColumns : Dict (List (Row φ)) := []
  proofStatus : List (Row φ) := []
  terminalStatus : List (Row φ) := []
  eventTimeline : Option (List (Row φ)) := none
  activity : List (Row φ) := []
  pluginStatus : List (Row φ) := []

def renderDashboard (payload : DashboardView φ) : Except PyError Text := do
  let status := summaryCards str "Status" payload.statusCounts
  let clients := summaryCards str "Clients" payload.clientCounts
  let activeClients ← renderActiveClients isZero str payload.activeClients
  let taskBoard := renderTaskBoard isZero str payload.taskBoardColumns
  let proofStatus := renderProofStatus isZero str payload.proofStatus
  let terminalStatus := renderTerminalStatus isZero str payload.terminalStatus
  let eventTimeline := renderEventTimeline isZero str {}
    (payload.eventTimeline.getD payload.activity)
  let activity := renderActivityStream str payload.activity
  let workItems ← renderWorkItems isZero str payload.activity
  let plugins := renderPluginStatus isZero str payload.pluginStatus
  pure ("<section class=\"dashboard-summary\">".toList ++ status ++ clients ++
      "</section>".toList ++
    "<section><h2>Active Clients</h2>".toList ++ activeClients ++ "</section>".toList ++
    "<section><h2>Task Board</h2>".toList ++ taskBoard ++ "</section>".toList ++
    "<section class=\"dashboard-grid\"><div><h2>Proofs</h2>".toList ++ proofStatus ++
      "</div><div><h2>Terminal</h2>".toList ++ terminalStatus ++ "</div></section>".toList ++
    "<section><h2>Event Timeline</h2>".toList ++ eventTimeline ++ "</section>".toList ++
    "<section class=\"dashboard-grid\">".toList ++
    "<div><h2>Activity</h2>".toList ++ activity ++ "</div>".toList ++
    "<div><h2>Work Items</h2>".toList ++ workItems ++ "</div>".toList ++
    "</section>".toList ++
    "<section><h2>Plugins</h2>".toList ++ plugins ++ "</section>".toList)

end Pages

/-! ## Trees -/

def el (tag : String) (attrs : List (String × Text)) (children : List Node) : Node :=
  .element tag.toList (attrs.map fun a => (a.1.toList, a.2)) children

def words (s : String) : Node := .text s.toList

section Trees

variable {φ : Type} (isZero : φ → Bool) (str : Value φ → Text)

/-- A page that says that there is nothing to show. -/
def emptyNodes (message : String) : List Node :=
  [el "p" [("class", "empty".toList)] [words message]]

def runRowNodes (run : Row φ) : List Node :=
  let runId := str (run.getOr "run_id" "")
  [el "button" [("class", "run-row".toList), ("data-run-id", runId)]
    [el "span" [] [.text runId],
      el "strong" [] [.text (str (run.getOr "final_decision" "unknown"))],
      el "code" [] [.text ((str (run.getOr "evidence_digest" "")).take 12)]]]

def joinNodes (rows : List (List Node)) : List Node := [Node.text ['\n']].intercalate rows

def runListNodes (runs : List (Row φ)) : List Node :=
  if runs.isEmpty then emptyNodes "No runs recorded."
  else joinNodes (runs.map (runRowNodes str))

def evidenceDetailNodes (payload : Row φ) : Except PyError (List Node) := do
  let evidence ← asDict ((Dict.get payload "evidence").getD (.object []))
  let runId := str ((Dict.get payload "run_id").getD (evidence.getOr "run_id" ""))
  let agents ← asDict ((Dict.get evidence "agents").getD (.object []))
  pure [el "h2" [] [.text runId],
    el "dl" [("class", "evidence-grid".toList)]
      [el "dt" [] [words "Decision"],
        el "dd" [] [.text (str (evidence.getOr "final_decision" "unknown"))],
        el "dt" [] [words "Builder"], el "dd" [] [.text (str (agents.getOr "builder" ""))],
        el "dt" [] [words "Verifier"], el "dd" [] [.text (str (agents.getOr "verifier" ""))],
        el "dt" [] [words "Digest"],
        el "dd" [] [el "code" [] [.text (str (payload.getOr "evidence_digest" ""))]]]]

def approvalResultNodes (payload : Row φ) : Except PyError (List Node) := do
  let approval ← asDict ((Dict.get payload "approval").getD (.object []))
  let decision ← asDict ((Dict.get approval "decision").getD
    ((Dict.get payload "decision").getD (.object [])))
  let allowed := holds isZero ((Dict.get decision "allow").getD (.bool false))
  let reasons ← iterate (orElse isZero (orElse isZero (Row.get decision "reasons")
    (Row.get decision "denials")) (.array []))
  pure [el "section"
    [("class", if allowed then "approval-result allowed".toList
      else "approval-result denied".toList)]
    [el "h3" [] [words (if allowed then "Approved" else "Denied")],
      el "ul" [] (reasons.flatMap fun reason => [el "li" [] [.text (str reason)]])]]

def taskCardNodes (statusName : String) (task : Row φ) : List Node :=
  let owner := orElse isZero (orElse isZero (orElse isZero (task.get "lease_owner")
    (task.get "client")) (task.get "client_id")) (.text "unassigned")
  let expiry := orElse isZero (task.get "lease_expires_at") (.text "no expiry")
  [el "article" [("class", "task-card ".toList ++ statusName.toList),
      ("data-task-status", statusName.toList)]
    [el "strong" [] [.text (str (task.getOr "task_id" "task"))],
      el "span" [] [.text (str (task.getOr "summary" ""))],
      el "code" [] [.text (str (task.getOr "kind" "task") ++ " / ".toList ++
        str (task.getOr "status" statusName))],
      el "small" [] [.text ("Owner ".toList ++ str owner ++ " / Expires ".toList ++ str expiry)]]]

def taskColumnNodes (columns : Dict (List (Row φ))) (statusName : String) : List Node :=
  let tasks := (Dict.get columns statusName).getD []
  [el "section" [("class", "task-column ".toList ++ statusName.toList)]
    (el "h3" [] [.text statusName.toList] ::
      if tasks.isEmpty then emptyNodes "No tasks."
      else tasks.flatMap (taskCardNodes isZero str statusName))]

def taskBoardNodes (columns : Dict (List (Row φ))) : List Node :=
  [el "div" [("class", "task-board-grid".toList)]
    (boardStatuses.flatMap (taskColumnNodes isZero str columns))]

def proofRowNodes (proof : Row φ) : List Node :=
  let status := str (proof.getOr "status" "")
  let recovery := proof.get "recovery_evidence_url"
  [el "article" [("class", "proof-row ".toList ++ status), ("data-proof-status", status)]
    ([el "strong" [] [.text (str (proof.getOr "task_id" "proof"))],
      el "span" [] [.text (str (proof.getOr "summary" ""))],
      el "code" [] [.text (status ++ " / ".toList ++ str (proof.getOr "client" ""))],
      el "small" [] [.text ("Started ".toList ++
        str (orElse isZero (proof.get "started_at") (.text "unknown")) ++ " / Finished ".toList ++
        str (orElse isZero (proof.get "finished_at") (.text "pending")))]] ++
      if holds isZero recovery then [el "a" [("href", str recovery)] [words "Recovery evidence"]]
      else [])]

def terminalRowNodes (row : Row φ) : List Node :=
  let status := str (row.getOr "status" "")
  let kind := str (row.getOr "kind" "")
  [el "article" [("class", "terminal-row ".toList ++ status), ("data-terminal-kind", kind)]
    [el "code" [] [.text (kind ++ " / ".toList ++ status)],
      el "span" [] [.text (str (row.getOr "summary" ""))],
      el "small" [] [.text (str (orElse isZero (row.get "created_at") (.text "")) ++
        " / ".toList ++ str (orElse isZero (row.get "client") (.text "")) ++
        " / ".toList ++ str (orElse isZero (row.get "role") (.text "")))]]]

def timelineRowNodes (event : Row φ) : List Node :=
  let eventKind := str (event.getOr "kind" "")
  let eventStatus := str (event.getOr "status" "")
  [el "article"
    [("class", "timeline-row ".toList ++ eventKind ++ " ".toList ++ eventStatus),
      ("data-event-kind", eventKind), ("data-event-status", eventStatus)]
    [el "div" []
        [el "strong" [] [.text (str (event.getOr "summary" ""))],
          el "span" [] [.text (str (orElse isZero (orElse isZero (event.get "created_at")
            (event.get "updated_at")) (.text "")))]],
      el "code" [] [.text (eventKind ++ " / ".toList ++ eventStatus)],
      el "small" [] [.text (str (orElse isZero (event.get "run_id") (.text "no-run")) ++
        " / ".toList ++ str (orElse isZero (orElse isZero (event.get "client")
          (event.get "client_id")) (.text "")) ++
        " / ".toList ++ str (orElse isZero (event.get "role") (.text "")))]]]

/-- A list with what stands around it, or the message that it is empty. -/
def listNodes {α : Type} (items : List α) (message style : String) (row : α → List Node) :
    List Node :=
  if items.isEmpty then emptyNodes message
  else [el "div" [("class", style.toList)] (items.flatMap row)]

def clientRowNodes (client : Row φ) : Except PyError (List Node) := do
  let status := str (client.getOr "status" "disconnected")
  let values ← iterate ((Dict.get client "supported_capabilities").getD (.array []))
  pure [el "article" [("class", "client-row ".toList ++ status), ("data-client-status", status)]
    [el "div" []
        [el "strong" [] [.text (str (orElse isZero (client.get "display_name")
            (client.getOr "client_id" "")))],
          el "span" [] [.text (str (client.getOr "client_type" "") ++ " / ".toList ++
            str (client.getOr "connection_mode" ""))]],
      el "code" [] [.text status],
      el "span" [] [.text (heartbeatLabel str (client.get "heartbeat_age_seconds"))],
      el "small" [] [.text (capabilityText str values)]]]

def activeClientsNodes (clients : List (Row φ)) : Except PyError (List Node) :=
  if clients.isEmpty then .ok (emptyNodes "No clients registered.")
  else ((clients.mapM (clientRowNodes isZero str)).map List.flatten).map fun rows =>
    [el "div" [("class", "client-grid".toList)] rows]

def activityRowNodes (item : Row φ) : List Node :=
  [el "article" [("class", "activity-row".toList)]
    [el "strong" [] [.text (str (item.getOr "summary" ""))],
      el "span" [] [.text (str (item.getOr "client" "") ++ " · ".toList ++
        str (item.getOr "actor" "") ++ " · ".toList ++ str (item.getOr "role" ""))],
      el "code" [] [.text (str (item.getOr "kind" "") ++ " / ".toList ++
        str (item.getOr "status" ""))]]]

def activityNodes (activity : List (Row φ)) : List Node :=
  if activity.isEmpty then emptyNodes "No activity recorded."
  else joinNodes (activity.map (activityRowNodes str))

def workRowNodes (item : Row φ) : List Node :=
  [el "li" []
    [el "strong" [] [.text (str (orElse isZero (item.get "task_id")
        (item.getOr "activity_id" "")))],
      el "span" [] [.text (str (item.getOr "summary" ""))],
      el "code" [] [.text (str (item.getOr "status" ""))]]]

def workItemsNodes (activity : List (Row φ)) : Except PyError (List Node) := do
  let work ← openItems activity
  pure (if work.isEmpty then emptyNodes "No open work items."
    else [el "ul" [("class", "work-items".toList)] (work.flatMap (workRowNodes isZero str))])

def pluginRowNodes (plugin : Row φ) : List Node :=
  let status := str (plugin.getOr "status" "")
  let action := plugin.get "action_required"
  [el "article" [("class", "plugin-status-row ".toList ++ status)]
    ([el "strong" [] [.text (str (plugin.getOr "plugin_id" ""))],
      el "span" [] [.text (str (plugin.getOr "target_client" "") ++ " / local ".toList ++
        str (orElse isZero (plugin.get "local_version") (plugin.getOr "version" "")))],
      el "code" [] [.text status],
      el "small" [] [.text ("Publication ".toList ++
        str (plugin.getOr "publication_readiness" "needs_review"))],
      el "p" [] [.text (str (plugin.getOr "summary" ""))]] ++
      if holds isZero action then [el "small" [] [.text (str action)]] else [])]

def countCellNodes (entry : String × Value φ) : List Node :=
  [el "span" [] [el "strong" [] [.text (str entry.2)], .text (str (.text entry.1))]]

def summaryCardsNodes (title : String) (counts : Row φ) : List Node :=
  [el "div" [("class", "summary-card".toList)]
    (el "h2" [] [.text title.toList] ::
      if counts.isEmpty then [el "span" [] [el "strong" [] [words "0"], words "none"]]
      else (sortedItems counts).flatMap (countCellNodes str))]

def section_ (title : String) (body : List Node) : Node :=
  el "section" [] (el "h2" [] [words title] :: body)

def dashboardNodes (payload : DashboardView φ) : Except PyError (List Node) := do
  let activeClients ← activeClientsNodes isZero str payload.activeClients
  let workItems ← workItemsNodes isZero str payload.activity
  pure [
    el "section" [("class", "dashboard-summary".toList)]
      (summaryCardsNodes str "Status" payload.statusCounts ++
        summaryCardsNodes str "Clients" payload.clientCounts),
    section_ "Active Clients" activeClients,
    section_ "Task Board" (taskBoardNodes isZero str payload.taskBoardColumns),
    el "section" [("class", "dashboard-grid".toList)]
      [el "div" [] (el "h2" [] [words "Proofs"] ::
          listNodes payload.proofStatus "No proof events recorded." "proof-status-list"
            (proofRowNodes isZero str)),
        el "div" [] (el "h2" [] [words "Terminal"] ::
          listNodes payload.terminalStatus "No terminal status recorded." "terminal-list"
            (terminalRowNodes isZero str))],
    section_ "Event Timeline"
      (listNodes ((payload.eventTimeline.getD payload.activity).filter
        (TimelineFilter.admits {})) "No events match the current filters." "timeline-list"
        (timelineRowNodes isZero str)),
    el "section" [("class", "dashboard-grid".toList)]
      [el "div" [] (el "h2" [] [words "Activity"] :: activityNodes str payload.activity),
        el "div" [] (el "h2" [] [words "Work Items"] :: workItems)],
    section_ "Plugins"
      (listNodes payload.pluginStatus "No plugin status reported." "plugin-status-grid"
        (pluginRowNodes isZero str))]

end Trees

/-! ## Pieces -/

@[simp] theorem named_el (tag : String) (attrs : List (String × Text)) (children nodes : List Node) :
    Html.named (el tag attrs children :: nodes) =
      (Html.isName tag.toList && attrs.all (fun a => Html.isName a.1.toList) &&
        Html.named children && Html.named nodes) := by
  rw [Html.named, el, Node.named, List.all_map]
  rfl

@[simp] theorem named_text (t : Text) (nodes : List Node) :
    Html.named (.text t :: nodes) = Html.named nodes := by
  rw [Html.named, Node.named, Bool.true_and]

@[simp] theorem named_nil : Html.named [] = true := rfl

theorem outline_el (tag : String) (attrs : List (String × Text)) (children nodes : List Node) :
    Html.outline (el tag attrs children :: nodes) =
      .element tag.toList (attrs.map fun a => a.1.toList) (Html.outline children) ::
        Html.outline nodes := by
  rw [Html.outline, el, Node.outline, List.map_map]
  rfl

theorem outline_text (t : Text) (nodes : List Node) :
    Html.outline (.text t :: nodes) = Html.outline nodes := by
  rw [Html.outline, Node.outline, List.nil_append]

section Pieces

variable {φ : Type} (isZero : φ → Bool)

/-- `page` is always written. -/
abbrev Shows (page : (Value φ → Text) → Text) (doc : (Value φ → Text) → List Node) : Prop :=
  Stands (fun str => (.ok (page str) : Except PyError Text)) (fun str => .ok (doc str))

theorem runRow_shows (run : Row φ) : Shows (runRow · run) (runRowNodes · run) := by
  refine Stands.ok (fun str => ?_) (fun str => ?_) fun str str' => ?_
  · unfold runRow runRowNodes el shown
    simp [Html.render, Node.render, Html.renderAttrs, Html.escape_cons, Html.escapeChar]
  · simp [runRowNodes, Html.isName, Html.isNameChar]
  · simp only [runRowNodes, outline_el, outline_text, List.map]

theorem taskCard_shows (statusName : String) (task : Row φ) :
    Shows (taskCard isZero · statusName.toList statusName task)
      (taskCardNodes isZero · statusName task) := by
  refine Stands.ok (fun str => ?_) (fun str => ?_) fun str str' => ?_
  · unfold taskCard taskCardNodes el shown
    simp [Html.render, Node.render, Html.renderAttrs, Html.escape_cons, Html.escapeChar]
  · simp [taskCardNodes, Html.isName, Html.isNameChar]
  · simp only [taskCardNodes, outline_el, outline_text, List.map]

set_option maxRecDepth 1000 in
theorem proofRow_shows (proof : Row φ) :
    Shows (proofRow isZero · proof) (proofRowNodes isZero · proof) := by
  refine Stands.ok (fun str => ?_) (fun str => ?_) fun str str' => ?_
  · unfold proofRow proofRowNodes el words shown
    cases h : holds isZero (proof.get "recovery_evidence_url") <;>
      simp [h, Html.render, Node.render, Html.renderAttrs, Html.escape_cons, Html.escapeChar]
  · simp only [proofRowNodes, words, List.cons_append, List.nil_append]
    split <;> simp [Html.isName, Html.isNameChar]
  · simp only [proofRowNodes, words, List.cons_append, List.nil_append, outline_el, outline_text,
      List.map]
    split <;> simp only [outline_el, outline_text, List.map]

theorem terminalRow_shows (row : Row φ) :
    Shows (terminalRow isZero · row) (terminalRowNodes isZero · row) := by
  refine Stands.ok (fun str => ?_) (fun str => ?_) fun str str' => ?_
  · unfold terminalRow terminalRowNodes el shown
    simp [Html.render, Node.render, Html.renderAttrs, Html.escape_cons, Html.escapeChar]
  · simp [terminalRowNodes, Html.isName, Html.isNameChar]
  · simp only [terminalRowNodes, outline_el, outline_text, List.map]

theorem timelineRow_shows (event : Row φ) :
    Shows (timelineRow isZero · event) (timelineRowNodes isZero · event) := by
  refine Stands.ok (fun str => ?_) (fun str => ?_) fun str str' => ?_
  · unfold timelineRow timelineRowNodes el shown
    simp [Html.render, Node.render, Html.renderAttrs, Html.escape_cons, Html.escapeChar]
  · simp [timelineRowNodes, Html.isName, Html.isNameChar]
  · simp only [timelineRowNodes, outline_el, outline_text, List.map]

theorem activityRow_shows (item : Row φ) :
    Shows (activityRow · item) (activityRowNodes · item) := by
  refine Stands.ok (fun str => ?_) (fun str => ?_) fun str str' => ?_
  · unfold activityRow activityRowNodes el shown
    simp [Html.render, Node.render, Html.renderAttrs, Html.escape_cons, Html.escapeChar]
  · simp [activityRowNodes, Html.isName, Html.isNameChar]
  · simp only [activityRowNodes, outline_el, outline_text, List.map]

theorem workRow_shows (item : Row φ) :
    Shows (workRow isZero · item) (workRowNodes isZero · item) := by
  refine Stands.ok (fun str => ?_) (fun str => ?_) fun str str' => ?_
  · unfold workRow workRowNodes el shown
    simp [Html.render, Node.render, Html.renderAttrs]
  · simp [workRowNodes, Html.isName, Html.isNameChar]
  · simp only [workRowNodes, outline_el, outline_text, List.map]

theorem pluginRow_shows (plugin : Row φ) :
    Shows (pluginRow isZero · plugin) (pluginRowNodes isZero · plugin) := by
  refine Stands.ok (fun str => ?_) (fun str => ?_) fun str str' => ?_
  · unfold pluginRow pluginRowNodes el shown
    cases h : holds isZero (plugin.get "action_required") <;>
      simp [h, Html.render, Node.render, Html.renderAttrs, Html.escape_cons, Html.escapeChar]
  · simp only [pluginRowNodes, List.cons_append, List.nil_append]
    split <;> simp [Html.isName, Html.isNameChar]
  · simp only [pluginRowNodes, List.cons_append, List.nil_append, outline_el, outline_text,
      List.map]
    split <;> simp only [outline_el, outline_text, List.map]

theorem countCell_shows (entry : String × Value φ) :
    Shows (countCell · entry) (countCellNodes · entry) := by
  refine Stands.ok (fun str => ?_) (fun str => ?_) fun str str' => ?_
  · unfold countCell countCellNodes el shown
    simp [Html.render, Node.render, Html.renderAttrs]
  · simp [countCellNodes, Html.isName, Html.isNameChar]
  · simp only [countCellNodes, outline_el, outline_text, List.map]

/-! ## Lists of pieces -/

theorem render_el (tag : String) (attrs : List (String × Text)) (children : List Node) :
    render [el tag attrs children] =
      '<' :: (tag.toList ++ (Html.renderAttrs (attrs.map fun a => (a.1.toList, a.2)) ++
        '>' :: (render children ++ '<' :: '/' :: (tag.toList ++ ['>'])))) := by
  rw [el, Html.render, Node.render, Html.render, List.append_nil]

theorem named_emptyNodes (message : String) : Html.named (emptyNodes message) = true := by
  simp [emptyNodes, words, Html.isName, Html.isNameChar]

/-- A list between two tags, or the message that it is empty. -/
theorem list_shows {α : Type} {page : (Value φ → Text) → α → Text}
    {doc : (Value φ → Text) → α → List Node} (hrow : ∀ a, Shows (page · a) (doc · a))
    (items : List α) {empty opening : Text} {message style : String}
    (hempty : empty = render (emptyNodes message))
    (hopening : opening = "<div class=\"".toList ++ escape style.toList ++ "\">".toList) :
    Shows (fun str => if items.isEmpty then empty
        else opening ++ items.flatMap (page str) ++ "</div>".toList)
      (fun str => listNodes items message style (doc str)) := by
  obtain ⟨hwritten, hnamed, houtlined⟩ := (Stands.okRows hrow items).of_ok
  refine Stands.ok (fun str => ?_) (fun str => ?_) fun str str' => ?_
  · unfold listNodes
    split
    · exact hempty
    · rw [hwritten, render_el, hopening]
      simp [Html.renderAttrs]
  · unfold listNodes
    split
    · exact named_emptyNodes message
    · simp [hnamed str, Html.isName, Html.isNameChar]
  · unfold listNodes
    split
    · rfl
    · simp only [outline_el, houtlined str str']

theorem joinNodes_cons (a : List Node) {rows : List (List Node)} (h : rows ≠ []) :
    joinNodes (a :: rows) = a ++ .text ['\n'] :: joinNodes rows := by
  obtain ⟨b, rest, rfl⟩ := List.exists_cons_of_ne_nil h
  simp [joinNodes, List.intercalate]

theorem joinLines_cons (a : Text) {rows : List Text} (h : rows ≠ []) :
    joinLines (a :: rows) = a ++ '\n' :: joinLines rows := by
  obtain ⟨b, rest, rfl⟩ := List.exists_cons_of_ne_nil h
  simp [joinLines, List.intercalate]

/-- Pieces on lines of their own. -/
theorem lines_shows {α : Type} {page : (Value φ → Text) → α → Text}
    {doc : (Value φ → Text) → α → List Node} (hrow : ∀ a, Shows (page · a) (doc · a))
    (items : List α) :
    Shows (fun str => joinLines (items.map (page str)))
      (fun str => joinNodes (items.map (doc str))) := by
  induction items with
  | nil => exact Stands.ok (fun _ => rfl) (fun _ => rfl) fun _ _ => rfl
  | cons a items ih =>
    obtain ⟨hwritten, hnamed, houtlined⟩ := (hrow a).of_ok
    obtain ⟨hwritten', hnamed', houtlined'⟩ := ih.of_ok
    by_cases hitems : items = []
    · subst hitems
      refine Stands.ok (fun str => ?_) (fun str => ?_) fun str str' => ?_
      · simpa [joinLines, joinNodes, List.intercalate] using hwritten str
      · simpa [joinNodes, List.intercalate] using hnamed str
      · simpa [joinNodes, List.intercalate] using houtlined str str'
    · have hne {β : Type} (f : α → β) : items.map f ≠ [] :=
        fun h => hitems (List.map_eq_nil_iff.mp h)
      refine Stands.ok (fun str => ?_) (fun str => ?_) fun str str' => ?_
      · rw [List.map_cons, List.map_cons, joinLines_cons _ (hne _), joinNodes_cons _ (hne _),
          hwritten str, hwritten' str, Html.render_append]
        rfl
      · rw [List.map_cons, joinNodes_cons _ (hne _), Html.named_append, hnamed str, named_text,
          hnamed' str]
        rfl
      · rw [List.map_cons, List.map_cons, joinNodes_cons _ (hne _), joinNodes_cons _ (hne _),
          Html.outline_append, Html.outline_append, outline_text, outline_text,
          houtlined str str', houtlined' str str']

/-- The page says that there is nothing, or it is another page. -/
theorem orEmpty_shows {page : (Value φ → Text) → Text} {doc : (Value φ → Text) → List Node}
    (h : Shows page doc) (b : Bool) {empty : Text} {message : String}
    (hempty : empty = render (emptyNodes message)) :
    Shows (fun str => if b then empty else page str)
      (fun str => if b then emptyNodes message else doc str) := by
  cases b with
  | false => exact h
  | true => exact Stands.ok (fun _ => hempty) (fun _ => named_emptyNodes message) fun _ _ => rfl

theorem render_emptyNodes (message : String) :
    render (emptyNodes message) =
      "<p class=\"empty\">".toList ++ escape message.toList ++ "</p>".toList := by
  rw [emptyNodes, render_el]
  simp [words, Html.render, Node.render, Html.renderAttrs, Html.escape_cons, Html.escapeChar]

theorem runList_shows (runs : List (Row φ)) :
    Shows (renderRunList · runs) (runListNodes · runs) := by
  refine orEmpty_shows (lines_shows runRow_shows runs) runs.isEmpty ?_
  rw [render_emptyNodes]
  decide

theorem activity_shows (activity : List (Row φ)) :
    Shows (renderActivityStream · activity) (activityNodes · activity) := by
  refine orEmpty_shows (lines_shows activityRow_shows activity) activity.isEmpty ?_
  rw [render_emptyNodes]
  decide

theorem proofStatus_shows (proofs : List (Row φ)) :
    Shows (renderProofStatus isZero · proofs) (fun str =>
      listNodes proofs "No proof events recorded." "proof-status-list"
        (proofRowNodes isZero str)) := by
  refine list_shows (proofRow_shows isZero) proofs ?_ (by decide)
  rw [render_emptyNodes]
  decide

theorem terminalStatus_shows (rows : List (Row φ)) :
    Shows (renderTerminalStatus isZero · rows) (fun str =>
      listNodes rows "No terminal status recorded." "terminal-list"
        (terminalRowNodes isZero str)) := by
  refine list_shows (terminalRow_shows isZero) rows ?_ (by decide)
  rw [render_emptyNodes]
  decide

theorem pluginStatus_shows (plugins : List (Row φ)) :
    Shows (renderPluginStatus isZero · plugins) (fun str =>
      listNodes plugins "No plugin status reported." "plugin-status-grid"
        (pluginRowNodes isZero str)) := by
  refine list_shows (pluginRow_shows isZero) plugins ?_ (by decide)
  rw [render_emptyNodes]
  decide

theorem eventTimeline_shows (f : TimelineFilter) (events : List (Row φ)) :
    Shows (renderEventTimeline isZero · f events) (fun str =>
      listNodes (events.filter f.admits) "No events match the current filters." "timeline-list"
        (timelineRowNodes isZero str)) := by
  refine list_shows (timelineRow_shows isZero) (events.filter f.admits) ?_ (by decide)
  rw [render_emptyNodes]
  decide

theorem taskColumn_shows (columns : Dict (List (Row φ))) (statusName : String) :
    Shows (taskColumn isZero · columns statusName)
      (taskColumnNodes isZero · columns statusName) := by
  have hempty : "<p class=\"empty\">No tasks.</p>".toList = render (emptyNodes "No tasks.") := by
    rw [render_emptyNodes]
    decide
  have hbody := orEmpty_shows
    (Stands.okRows (ε := PyError) (taskCard_shows isZero statusName)
      ((Dict.get columns statusName).getD []))
    ((Dict.get columns statusName).getD []).isEmpty hempty
  obtain ⟨hwritten, hnamed, houtlined⟩ := hbody.of_ok
  have hpage (str : Value φ → Text) : taskColumn isZero str columns statusName =
      "<section class=\"task-column ".toList ++ escape statusName.toList ++ "\"><h3>".toList ++
        escape statusName.toList ++ "</h3>".toList ++ render _ ++ "</section>".toList :=
    congrArg (fun body => "<section class=\"task-column ".toList ++ escape statusName.toList ++
      "\"><h3>".toList ++ escape statusName.toList ++ "</h3>".toList ++ body ++
      "</section>".toList) (hwritten str)
  refine Stands.ok (fun str => ?_) (fun str => ?_) fun str str' => ?_
  · rw [hpage, taskColumnNodes, render_el, Html.render_cons]
    simp [el, Node.render, Html.render, Html.renderAttrs, Html.escape_cons, Html.escapeChar]
  · rw [taskColumnNodes, named_el, named_el, hnamed str]
    simp [Html.isName, Html.isNameChar]
  · rw [taskColumnNodes, taskColumnNodes, outline_el, outline_el, outline_el, outline_el,
      houtlined str str', outline_text]

theorem taskBoard_shows (columns : Dict (List (Row φ))) :
    Shows (renderTaskBoard isZero · columns) (taskBoardNodes isZero · columns) := by
  obtain ⟨hwritten, hnamed, houtlined⟩ := (Stands.okRows (ε := PyError)
    (taskColumn_shows isZero columns) boardStatuses).of_ok
  refine Stands.ok (fun str => ?_) (fun str => ?_) fun str str' => ?_
  · unfold renderTaskBoard taskBoardNodes
    rw [hwritten str, render_el]
    simp [Html.renderAttrs, Html.escape_cons, Html.escapeChar]
  · rw [taskBoardNodes, named_el, hnamed str]
    simp [Html.isName, Html.isNameChar]
  · rw [taskBoardNodes, taskBoardNodes, outline_el, outline_el, houtlined str str']

/-- Each entry is written as something, so that nothing is written for no entries only. -/
theorem cells_isEmpty (str : Value φ → Text) (counts : Row φ) :
    ((sortedItems counts).flatMap (countCell str)).isEmpty = counts.isEmpty := by
  have hlength : (sortedItems counts).length = counts.length := List.length_insertionSort _ _
  cases hsorted : sortedItems counts with
  | nil =>
    have hcounts : counts = [] := List.length_eq_zero_iff.mp (by rw [← hlength, hsorted]; rfl)
    rw [hcounts]
    rfl
  | cons e rest =>
    have hcounts : counts ≠ [] := by
      rintro rfl
      rw [hsorted] at hlength
      cases hlength
    have hcell : countCell str e ≠ [] := by
      unfold countCell
      simp
    obtain ⟨c, t, hct⟩ := List.exists_cons_of_ne_nil hcell
    rw [List.flatMap_cons, hct, List.isEmpty_eq_false_iff.mpr hcounts]
    rfl

theorem summaryCards_shows (title : String) (counts : Row φ) :
    Shows (summaryCards · title counts) (summaryCardsNodes · title counts) := by
  obtain ⟨hwritten, hnamed, houtlined⟩ := (Stands.okRows (ε := PyError) countCell_shows
    (sortedItems counts)).of_ok
  refine Stands.ok (fun str => ?_) (fun str => ?_) fun str str' => ?_
  · show "<div class=\"summary-card\"><h2>".toList ++ escape title.toList ++ "</h2>".toList ++
      (if ((sortedItems counts).flatMap (countCell str)).isEmpty then
        "<span><strong>0</strong>none</span>".toList
      else (sortedItems counts).flatMap (countCell str)) ++ "</div>".toList = _
    rw [cells_isEmpty, hwritten str, summaryCardsNodes, render_el]
    cases counts.isEmpty <;>
      simp [el, words, Html.render, Node.render, Html.renderAttrs, Html.escape_cons,
        Html.escapeChar]
  · rw [summaryCardsNodes, named_el, named_el]
    cases counts.isEmpty <;> simp [hnamed str, words, Html.isName, Html.isNameChar]
  · rw [summaryCardsNodes, summaryCardsNodes, outline_el, outline_el, outline_el, outline_el]
    cases counts.isEmpty with
    | true => rfl
    | false =>
      rw [if_neg (by decide), if_neg (by decide), houtlined str str']

/-! ## Pages that may not be written -/

theorem clientRow_stands (client : Row φ) :
    Stands (clientRow isZero · client) (clientRowNodes isZero · client) := by
  unfold clientRow clientRowNodes
  cases iterate ((Dict.get client "supported_capabilities").getD (.array [])) with
  | error e => exact Stands.raised e
  | ok values =>
    refine Stands.ok (fun str => ?_) (fun str => ?_) fun str str' => ?_
    · unfold el shown
      simp [Html.render, Node.render, Html.renderAttrs, Html.escape_cons, Html.escapeChar]
    · simp [Html.isName, Html.isNameChar]
    · simp only [outline_el, outline_text, List.map]

theorem activeClients_stands (clients : List (Row φ)) :
    Stands (renderActiveClients isZero · clients) (activeClientsNodes isZero · clients) := by
  unfold renderActiveClients activeClientsNodes
  cases clients.isEmpty with
  | true =>
    refine Stands.ok (fun _ => ?_) (fun _ => named_emptyNodes _) fun _ _ => rfl
    rw [render_emptyNodes]
    decide
  | false =>
    refine (Stands.rows (clientRow_stands isZero) clients).wrap
      (fun _ rows => "<div class=\"client-grid\">".toList ++ rows ++ "</div>".toList)
      (fun _ rows => [el "div" [("class", "client-grid".toList)] rows])
      (fun _ rows => ?_) (fun _ rows hrows => ?_) fun _ _ rows rows' hrows => ?_
    · rw [render_el]
      simp [Html.renderAttrs, Html.escape_cons, Html.escapeChar]
    · rw [named_el, hrows]
      simp [Html.isName, Html.isNameChar]
    · rw [outline_el, outline_el, hrows]

theorem workItems_stands (activity : List (Row φ)) :
    Stands (renderWorkItems isZero · activity) (workItemsNodes isZero · activity) := by
  unfold renderWorkItems workItemsNodes
  cases openItems activity with
  | error e => exact Stands.raised e
  | ok work =>
    obtain ⟨hwritten, hnamed, houtlined⟩ := (Stands.okRows (ε := PyError)
      (workRow_shows isZero) work).of_ok
    have hempty : "<p class=\"empty\">No open work items.</p>".toList =
        render (emptyNodes "No open work items.") := by
      rw [render_emptyNodes]
      decide
    have hlist : Shows (fun str => "<ul class=\"work-items\">".toList ++
          work.flatMap (workRow isZero str) ++ "</ul>".toList)
        (fun str => [el "ul" [("class", "work-items".toList)]
          (work.flatMap (workRowNodes isZero str))]) := by
      refine Stands.ok (fun str => ?_) (fun str => ?_) fun str str' => ?_
      · rw [hwritten str, render_el]
        simp [Html.renderAttrs, Html.escape_cons, Html.escapeChar]
      · rw [named_el, hnamed str]
        simp [Html.isName, Html.isNameChar]
      · rw [outline_el, outline_el, houtlined str str']
    show Stands (fun str => if work.isEmpty then pure _ else pure _)
      (fun str => pure (if work.isEmpty then _ else _))
    cases work.isEmpty with
    | true => exact orEmpty_shows hlist true hempty
    | false => exact orEmpty_shows hlist false hempty

theorem evidenceDetail_stands (payload : Row φ) :
    Stands (renderEvidenceDetail · payload) (evidenceDetailNodes · payload) := by
  unfold renderEvidenceDetail evidenceDetailNodes
  cases asDict ((Dict.get payload "evidence").getD (.object [])) with
  | error e => exact Stands.raised e
  | ok evidence =>
    show Stands (fun str => (asDict ((Dict.get evidence "agents").getD (.object []))).bind _)
      (fun str => (asDict ((Dict.get evidence "agents").getD (.object []))).bind _)
    cases asDict ((Dict.get evidence "agents").getD (.object [])) with
    | error e => exact Stands.raised e
    | ok agents =>
      refine Stands.ok (fun str => ?_) (fun str => ?_) fun str str' => ?_
      · unfold el words shown
        simp [Html.render, Node.render, Html.renderAttrs, Html.escape_cons, Html.escapeChar]
      · simp [words, Html.isName, Html.isNameChar]
      · simp only [words, outline_el, outline_text, List.map]

theorem reasons_shows (reason : Value φ) :
    Shows (fun str => "<li>".toList ++ shown str reason ++ "</li>".toList)
      (fun str => [el "li" [] [.text (str reason)]]) := by
  refine Stands.ok (fun str => ?_) (fun str => ?_) fun str str' => ?_
  · rw [render_el]
    simp [shown, Html.render, Node.render, Html.renderAttrs]
  · simp [Html.isName, Html.isNameChar]
  · simp only [outline_el, outline_text]

theorem verdict_shows (allowed : Bool) (reasons : List (Value φ)) :
    Shows (fun str => "<section class=\"approval-result ".toList ++
        (if allowed then "allowed".toList else "denied".toList) ++ "\"><h3>".toList ++
        (if allowed then "Approved".toList else "Denied".toList) ++ "</h3><ul>".toList ++
        reasons.flatMap (fun reason => "<li>".toList ++ shown str reason ++ "</li>".toList) ++
        "</ul></section>".toList)
      (fun str => [el "section"
        [("class", if allowed then "approval-result allowed".toList
          else "approval-result denied".toList)]
        [el "h3" [] [words (if allowed then "Approved" else "Denied")],
          el "ul" [] (reasons.flatMap fun reason => [el "li" [] [.text (str reason)]])]]) := by
  obtain ⟨hwritten, hnamed, houtlined⟩ := (Stands.okRows (ε := PyError) reasons_shows reasons).of_ok
  refine Stands.ok (fun str => ?_) (fun str => ?_) fun str str' => ?_
  · rw [hwritten str, render_el]
    cases allowed <;>
      simp [el, words, Html.render, Node.render, Html.renderAttrs, Html.escape_cons,
        Html.escapeChar]
  · rw [named_el, named_el, named_el, hnamed str]
    cases allowed <;> simp [words, Html.isName, Html.isNameChar]
  · simp only [words, outline_el, outline_text, List.map, houtlined str str']

theorem approvalResult_stands (payload : Row φ) :
    Stands (renderApprovalResult isZero · payload) (approvalResultNodes isZero · payload) := by
  unfold renderApprovalResult approvalResultNodes
  cases asDict ((Dict.get payload "approval").getD (.object [])) with
  | error e => exact Stands.raised e
  | ok approval =>
    show Stands (fun str => (asDict _).bind _) (fun str => (asDict _).bind _)
    cases asDict ((Dict.get approval "decision").getD
      ((Dict.get payload "decision").getD (.object []))) with
    | error e => exact Stands.raised e
    | ok decision =>
      show Stands (fun str => (iterate _).bind _) (fun str => (iterate _).bind _)
      cases iterate (orElse isZero (orElse isZero (Row.get decision "reasons")
        (Row.get decision "denials")) (.array [])) with
      | error e => exact Stands.raised e
      | ok reasons =>
        exact verdict_shows (holds isZero ((Dict.get decision "allow").getD (.bool false))) reasons

theorem node_render_el (tag : String) (attrs : List (String × Text)) (children : List Node) :
    (el tag attrs children).render =
      '<' :: (tag.toList ++ (Html.renderAttrs (attrs.map fun a => (a.1.toList, a.2)) ++
        '>' :: (render children ++ '<' :: '/' :: (tag.toList ++ ['>'])))) := by
  rw [el, Node.render]

theorem section_render (title opening : String) (body : List Node)
    (h : opening.toList = "<section><h2>".toList ++ escape title.toList ++ "</h2>".toList) :
    (section_ title body).render = opening.toList ++ render body ++ "</section>".toList := by
  rw [h, section_, node_render_el, Html.render_cons, node_render_el]
  simp [words, Html.render, Node.render, Html.renderAttrs]

theorem summary_render (status clients : List Node) :
    (el "section" [("class", "dashboard-summary".toList)] (status ++ clients)).render =
      "<section class=\"dashboard-summary\">".toList ++ render status ++ render clients ++
        "</section>".toList := by
  rw [node_render_el, Html.render_append]
  simp [Html.renderAttrs, Html.escape_cons, Html.escapeChar]

theorem proofGrid_render (proofs terminal : List Node) :
    (el "section" [("class", "dashboard-grid".toList)]
        [el "div" [] (el "h2" [] [words "Proofs"] :: proofs),
          el "div" [] (el "h2" [] [words "Terminal"] :: terminal)]).render =
      "<section class=\"dashboard-grid\"><div><h2>Proofs</h2>".toList ++ render proofs ++
        "</div><div><h2>Terminal</h2>".toList ++ render terminal ++ "</div></section>".toList := by
  simp only [node_render_el, Html.render_cons]
  simp [words, Html.render, Node.render, Html.renderAttrs, Html.escape_cons, Html.escapeChar]

theorem activityGrid_render (activity workItems : List Node) :
    (el "section" [("class", "dashboard-grid".toList)]
        [el "div" [] (el "h2" [] [words "Activity"] :: activity),
          el "div" [] (el "h2" [] [words "Work Items"] :: workItems)]).render =
      "<section class=\"dashboard-grid\">".toList ++
        "<div><h2>Activity</h2>".toList ++ render activity ++ "</div>".toList ++
        "<div><h2>Work Items</h2>".toList ++ render workItems ++ "</div>".toList ++
        "</section>".toList := by
  simp only [node_render_el, Html.render_cons]
  simp [words, Html.render, Node.render, Html.renderAttrs, Html.escape_cons, Html.escapeChar]

/-- The dashboard around the two parts of it that may not be written. -/
theorem dashboard_stands (payload : DashboardView φ) :
    Stands (renderDashboard isZero · payload) (dashboardNodes isZero · payload) := by
  obtain ⟨hstatus, hstatus', hstatus''⟩ :=
    (summaryCards_shows "Status" payload.statusCounts).of_ok
  obtain ⟨hclients, hclients', hclients''⟩ :=
    (summaryCards_shows "Clients" payload.clientCounts).of_ok
  obtain ⟨hboard, hboard', hboard''⟩ :=
    (taskBoard_shows isZero payload.taskBoardColumns).of_ok
  obtain ⟨hproofs, hproofs', hproofs''⟩ :=
    (proofStatus_shows isZero payload.proofStatus).of_ok
  obtain ⟨hterminal, hterminal', hterminal''⟩ :=
    (terminalStatus_shows isZero payload.terminalStatus).of_ok
  obtain ⟨htimeline, htimeline', htimeline''⟩ := (eventTimeline_shows isZero {}
    (payload.eventTimeline.getD payload.activity)).of_ok
  obtain ⟨hactivity, hactivity', hactivity''⟩ := (activity_shows payload.activity).of_ok
  obtain ⟨hplugins, hplugins', hplugins''⟩ :=
    (pluginStatus_shows isZero payload.pluginStatus).of_ok
  have h := (activeClients_stands isZero payload.activeClients).around
    (workItems_stands isZero payload.activity)
    (fun str activeClients workItems =>
      "<section class=\"dashboard-summary\">".toList ++
          summaryCards str "Status" payload.statusCounts ++
          summaryCards str "Clients" payload.clientCounts ++ "</section>".toList ++
        "<section><h2>Active Clients</h2>".toList ++ activeClients ++ "</section>".toList ++
        "<section><h2>Task Board</h2>".toList ++
          renderTaskBoard isZero str payload.taskBoardColumns ++ "</section>".toList ++
        "<section class=\"dashboard-grid\"><div><h2>Proofs</h2>".toList ++
          renderProofStatus isZero str payload.proofStatus ++
          "</div><div><h2>Terminal</h2>".toList ++
          renderTerminalStatus isZero str payload.terminalStatus ++ "</div></section>".toList ++
        "<section><h2>Event Timeline</h2>".toList ++ renderEventTimeline isZero str {}
          (payload.eventTimeline.getD payload.activity) ++ "</section>".toList ++
        "<section class=\"dashboard-grid\">".toList ++
        "<div><h2>Activity</h2>".toList ++ renderActivityStream str payload.activity ++
          "</div>".toList ++
        "<div><h2>Work Items</h2>".toList ++ workItems ++ "</div>".toList ++
        "</section>".toList ++
        "<section><h2>Plugins</h2>".toList ++ renderPluginStatus isZero str payload.pluginStatus ++
          "</section>".toList)
    (fun str activeClients workItems => [
      el "section" [("class", "dashboard-summary".toList)]
        (summaryCardsNodes str "Status" payload.statusCounts ++
          summaryCardsNodes str "Clients" payload.clientCounts),
      section_ "Active Clients" activeClients,
      section_ "Task Board" (taskBoardNodes isZero str payload.taskBoardColumns),
      el "section" [("class", "dashboard-grid".toList)]
        [el "div" [] (el "h2" [] [words "Proofs"] ::
            listNodes payload.proofStatus "No proof events recorded." "proof-status-list"
              (proofRowNodes isZero str)),
          el "div" [] (el "h2" [] [words "Terminal"] ::
            listNodes payload.terminalStatus "No terminal status recorded." "terminal-list"
              (terminalRowNodes isZero str))],
      section_ "Event Timeline"
        (listNodes ((payload.eventTimeline.getD payload.activity).filter
          (TimelineFilter.admits {})) "No events match the current filters." "timeline-list"
          (timelineRowNodes isZero str)),
      el "section" [("class", "dashboard-grid".toList)]
        [el "div" [] (el "h2" [] [words "Activity"] :: activityNodes str payload.activity),
          el "div" [] (el "h2" [] [words "Work Items"] :: workItems)],
      section_ "Plugins"
        (listNodes payload.pluginStatus "No plugin status reported." "plugin-status-grid"
          (pluginRowNodes isZero str))])
    (fun str m n => ?_) (fun str m n hm hn => ?_) fun str str' m m' n n' hm hn => ?_
  · exact h
  · rw [hstatus, hclients, hboard, hproofs, hterminal, htimeline, hactivity, hplugins]
    simp only [Html.render_cons, summary_render, proofGrid_render, activityGrid_render,
      section_render "Active Clients" "<section><h2>Active Clients</h2>" _ (by decide),
      section_render "Task Board" "<section><h2>Task Board</h2>" _ (by decide),
      section_render "Event Timeline" "<section><h2>Event Timeline</h2>" _ (by decide),
      section_render "Plugins" "<section><h2>Plugins</h2>" _ (by decide), List.append_assoc,
      Html.render_nil, List.append_nil]
  · simp [section_, words, hm, hn, hstatus' str, hclients' str, hboard' str, hproofs' str,
      hterminal' str, htimeline' str, hactivity' str, hplugins' str, Html.isName, Html.isNameChar]
  · simp only [section_, words, outline_el, outline_text, Html.outline_append, List.map, hm, hn,
      hstatus'' str str', hclients'' str str', hboard'' str str', hproofs'' str str',
      hterminal'' str str', htimeline'' str str', hactivity'' str str', hplugins'' str str']

end Pieces

/-! ## Every page -/

/-- What can be rendered. -/
inductive Page (φ : Type) where
  | runList (runs : List (Row φ))
  | evidenceDetail (payload : Row φ)
  | approvalResult (payload : Row φ)
  | dashboard (payload : DashboardView φ)
  | taskBoard (columns : Dict (List (Row φ)))
  | proofStatus (proofs : List (Row φ))
  | terminalStatus (rows : List (Row φ))
  | eventTimeline (f : TimelineFilter) (events : List (Row φ))
  | activeClients (clients : List (Row φ))
  | activityStream (activity : List (Row φ))
  | workItems (activity : List (Row φ))
  | kindView (activity : List (Row φ)) (kind : String)
  | pluginStatus (plugins : List (Row φ))

section Every

variable {φ : Type} (isZero : φ → Bool) (str : Value φ → Text)

def Page.written : Page φ → Except PyError Text
  | runList runs => .ok (renderRunList str runs)
  | evidenceDetail payload => renderEvidenceDetail str payload
  | approvalResult payload => renderApprovalResult isZero str payload
  | dashboard payload => renderDashboard isZero str payload
  | taskBoard columns => .ok (renderTaskBoard isZero str columns)
  | proofStatus proofs => .ok (renderProofStatus isZero str proofs)
  | terminalStatus rows => .ok (renderTerminalStatus isZero str rows)
  | eventTimeline f events => .ok (renderEventTimeline isZero str f events)
  | activeClients clients => renderActiveClients isZero str clients
  | activityStream activity => .ok (renderActivityStream str activity)
  | workItems activity => renderWorkItems isZero str activity
  | kindView activity kind => .ok (renderKindView str activity kind)
  | pluginStatus plugins => .ok (renderPluginStatus isZero str plugins)

/-- The tree that a page is meant to be. -/
def Page.nodes : Page φ → Except PyError (List Node)
  | runList runs => .ok (runListNodes str runs)
  | evidenceDetail payload => evidenceDetailNodes str payload
  | approvalResult payload => approvalResultNodes isZero str payload
  | dashboard payload => dashboardNodes isZero str payload
  | taskBoard columns => .ok (taskBoardNodes isZero str columns)
  | proofStatus proofs => .ok (listNodes proofs "No proof events recorded." "proof-status-list"
      (proofRowNodes isZero str))
  | terminalStatus rows => .ok (listNodes rows "No terminal status recorded." "terminal-list"
      (terminalRowNodes isZero str))
  | eventTimeline f events => .ok (listNodes (events.filter f.admits)
      "No events match the current filters." "timeline-list" (timelineRowNodes isZero str))
  | activeClients clients => activeClientsNodes isZero str clients
  | activityStream activity => .ok (activityNodes str activity)
  | workItems activity => workItemsNodes isZero str activity
  | kindView activity kind =>
    .ok (activityNodes str (activity.filter fun item => isText (item.get "kind") kind))
  | pluginStatus plugins => .ok (listNodes plugins "No plugin status reported."
      "plugin-status-grid" (pluginRowNodes isZero str))

theorem Page.stands (page : Page φ) :
    Stands (page.written isZero ·) (page.nodes isZero ·) := by
  cases page with
  | runList runs => exact runList_shows runs
  | evidenceDetail payload => exact evidenceDetail_stands payload
  | approvalResult payload => exact approvalResult_stands isZero payload
  | dashboard payload => exact dashboard_stands isZero payload
  | taskBoard columns => exact taskBoard_shows isZero columns
  | proofStatus proofs => exact proofStatus_shows isZero proofs
  | terminalStatus rows => exact terminalStatus_shows isZero rows
  | eventTimeline f events => exact eventTimeline_shows isZero f events
  | activeClients clients => exact activeClients_stands isZero clients
  | activityStream activity => exact activity_shows activity
  | workItems activity => exact workItems_stands isZero activity
  | kindView activity kind => exact activity_shows _
  | pluginStatus plugins => exact pluginStatus_shows isZero plugins

/-- A reader of a page finds its tree, with each value as a text or as the value of an attribute of
    it; and however the values are shown, the elements that it finds are the same. -/
theorem page_reads_back (page : Page φ) (str' : Value φ → Text) :
    (page.written isZero str).map Html.parse =
        (page.nodes isZero str).map (fun nodes => some (Html.normal nodes)) ∧
      (page.written isZero str).map (fun t => (Html.parse t).map Html.outline) =
        (page.written isZero str').map fun t => (Html.parse t).map Html.outline :=
  (page.stands isZero).parse_eq str str'

end Every

end Vad.Ui
