/-
  The routes of the HTTP server and the guard of its local-only ones (`VADApi.handle` and
  `Handler.do_POST` of `vad/server/app.py`).

  The guard looks at the raw request target, the dispatcher at the path that `urlparse` finds in
  it; here `urlparse` splits as RFC 3986 does.  The two agree on targets in origin form: the
  dispatcher's path is then a beginning of the target (`dispatchPath_prefix`), so that a target
  routed to a local-only handler begins as the guard expects.  In the absolute form
  `http://host/events` they do not: nothing in front of the scheme is a slash, and the guard lets
  the request pass.  `localOnly_iff` says that there is no other way around it.

  What the handlers do is a parameter, `respond`.
-/
import Vad.Lib.Uri
import Vad.Server.ReadBack

namespace Vad

open PyText (Text)
open Atomic (Program)

/-! ## Dispatching -/

inductive HttpMethod where
  | get | post | delete
deriving DecidableEq, Repr

/-- The response methods of `VADApi`, and its answer when no route matches. -/
inductive Route where
  | health | ready | runs | dashboard | dashboardReplay | pluginStatus | run
  | approval | eventIngestion | events | mcp
  | leaseAcquire | leases | leaseAction
  | workItemCreate | workItems | workItemRead | workItemAction
  | diffProposalCreate | diffProposals | diffProposalRead | diffProposalApply
  | operatorIntentCreate | operatorIntents | operatorIntentRead
  | runTaskStates
  | clientRegister | clients | clientsStaleScan | clientHeartbeat | clientUnregister
  | notFound
deriving DecidableEq, Repr

/-- `value.startswith(text)`. -/
def startsWith (value : Text) (text : String) : Bool := text.toList.isPrefixOf value

/-- `value.endswith(text)`. -/
def endsWith (value : Text) (text : String) : Bool := text.toList.isSuffixOf value

/-- `parsed.path.rstrip("/") or "/"`. -/
def dispatchPath (rawPath : Text) : Text :=
  let path := (Uri.split rawPath).path.rdropWhile (· = '/')
  if path = [] then ['/'] else path

/-- A test of `VADApi.handle`: the method, and the path as a whole, or how it starts and ends. -/
structure RouteTest where
  method : HttpMethod
  exact : Bool := false
  start : String
  finish : String := ""
  route : Route

def RouteTest.holds (t : RouteTest) (method : HttpMethod) (path : Text) : Bool :=
  method = t.method &&
    if t.exact then decide (path = t.start.toList)
    else startsWith path t.start && endsWith path t.finish

/-- `path == text`. -/
def onPath (method : HttpMethod) (text : String) (route : Route) : RouteTest :=
  { method := method, exact := true, start := text, route := route }

/-- `path.startswith(start) and path.endswith(finish)`. -/
def below (method : HttpMethod) (start : String) (route : Route) (finish : String := "") :
    RouteTest := { method := method, start := start, finish := finish, route := route }

/-- The tests of `VADApi.handle`, in their order. -/
def routeTests : List RouteTest := [
  onPath .get "/health" .health,
  onPath .get "/ready" .ready,
  onPath .get "/runs" .runs,
  onPath .get "/dashboard" .dashboard,
  onPath .get "/dashboard/replay" .dashboardReplay,
  onPath .get "/plugins/status" .pluginStatus,
  below .get "/runs/" .run,
  onPath .post "/actions/approve" .approval,
  onPath .post "/events" .eventIngestion,
  onPath .get "/events" .events,
  onPath .post "/mcp" .mcp,
  onPath .post "/leases" .leaseAcquire,
  onPath .get "/leases" .leases,
  below .post "/leases/" .leaseAction,
  onPath .post "/work-items" .workItemCreate,
  onPath .get "/work-items" .workItems,
  below .get "/work-items/" .workItemRead,
  below .post "/work-items/" .workItemAction,
  onPath .post "/diff-proposals" .diffProposalCreate,
  onPath .get "/diff-proposals" .diffProposals,
  below .get "/diff-proposals/" .diffProposalRead,
  below .post "/diff-proposals/" .diffProposalApply "/apply",
  onPath .post "/operator-intents" .operatorIntentCreate,
  onPath .get "/operator-intents" .operatorIntents,
  below .get "/operator-intents/" .operatorIntentRead,
  onPath .get "/run-task-states" .runTaskStates,
  onPath .post "/clients/register" .clientRegister,
  onPath .get "/clients" .clients,
  onPath .post "/clients/stale-scan" .clientsStaleScan,
  below .post "/clients/" .clientHeartbeat "/heartbeat",
  below .delete "/clients/" .clientUnregister]

/-- The route of the first test that holds. -/
def routeOf (method : HttpMethod) (path : Text) : Route :=
  ((routeTests.find? fun t => t.holds method path).map RouteTest.route).getD .notFound

/-- The handlers of `/events`, `/mcp`, `/work-items`, `/diff-proposals` and `/operator-intents`
    that a POST can reach. -/
def Route.localOnly : Route → Bool
  | .eventIngestion | .mcp | .workItemCreate | .workItemAction | .diffProposalCreate
  | .diffProposalApply | .operatorIntentCreate => true
  | _ => false

/-! ## The HTTP handler -/

/-- What `BaseHTTPRequestHandler` makes of the target: several slashes in front become one. -/
def requestPath (target : Text) : Text :=
  match target with
  | '/' :: '/' :: rest => '/' :: rest.dropWhile (· = '/')
  | _ => target

/-- The prefixes that `do_POST` guards. -/
def guardedPrefixes : List String :=
  ["/events", "/mcp", "/work-items", "/diff-proposals", "/operator-intents"]

/-- `_is_local_request`. -/
def isLocalRequest (clientAddress : String) : Bool :=
  clientAddress = "127.0.0.1" || clientAddress = "::1" || clientAddress = "localhost"

/-- What `_read_json_body` comes to: a body, a `JSONDecodeError`, or another exception. -/
inductive ReadBody (β : Type) where
  | body (b : β)
  | invalidJson (detail : String)
  | raises (e : PyError)

/-- The three answers of `do_POST`. -/
inductive PostAnswer (α : Type) where
  | localOnlyRoute
  | invalidJson (detail : String)
  | response (a : α)

section Handler

variable {α β : Type}

/-- `VADApi.handle`: the response method that the path selects, whatever those do. -/
def handle (respond : Route → Text → β → Db α) (method : HttpMethod) (rawPath : Text) (body : β) :
    Db α := respond (routeOf method (dispatchPath rawPath)) rawPath body

/-- `Handler.do_POST`. -/
def doPost (respond : Route → Text → β → Db α) (clientAddress : String) (target : Text)
    (body : ReadBody β) : Db (PostAnswer α) :=
  let path := requestPath target
  if guardedPrefixes.any (startsWith path) && !isLocalRequest clientAddress then
    pure .localOnlyRoute
  else match body with
    | .body b => do pure (.response (← handle respond .post path b))
    | .invalidJson detail => pure (.invalidJson detail)
    | .raises e => Program.raise e

/-- The dispatcher would send the POST to a local-only handler. -/
def RoutesLocal (target : Text) : Prop :=
  (routeOf .post (dispatchPath (requestPath target))).localOnly = true

/-- A request from elsewhere that is routed to a local-only handler is refused, and the store stays
    as it was. -/
def LocalOnly (respond : Route → Text → β → Db α) (clientAddress : String) (target : Text)
    (body : ReadBody β) (s : Store) : Prop :=
  isLocalRequest clientAddress = false → RoutesLocal target →
    (doPost respond clientAddress target body).run s = (.ok .localOnlyRoute, s)

/-! ## Where guard and dispatcher agree -/

/-- The dispatcher's path, when it is longer than a slash, begins the path that `urlparse` found. -/
theorem dispatchPath_prefix {rawPath : Text} (h : Uri.OriginForm rawPath) {text : String}
    (hlong : 1 < text.toList.length) (hstarts : startsWith (dispatchPath rawPath) text = true) :
    startsWith rawPath text = true := by
  have htext : text.toList <+: dispatchPath rawPath := List.isPrefixOf_iff_prefix.mp hstarts
  refine List.isPrefixOf_iff_prefix.mpr ?_
  unfold dispatchPath at htext
  simp only at htext
  split at htext
  · have := htext.length_le
    simp at this
    omega
  · exact htext.trans ((List.rdropWhile_prefix _ _).trans (Uri.path_prefix h))

theorem originForm_requestPath {target : Text} (h : target.head? = some '/') :
    Uri.OriginForm (requestPath target) := by
  unfold requestPath
  split
  · rename_i rest
    refine ⟨_, rfl, fun hhead => ?_⟩
    have hnot := List.head?_dropWhile_not (· = '/') rest
    rw [hhead] at hnot
    simp at hnot
  · rename_i hone
    cases target with
    | nil => cases h
    | cons c rest =>
      cases h
      refine ⟨rest, rfl, fun hhead => ?_⟩
      cases rest with
      | nil => cases hhead
      | cons d rest => cases hhead; exact hone rest rfl

theorem requestPath_of_noSlash {target : Text} (h : target.head? ≠ some '/') :
    requestPath target = target := by
  unfold requestPath
  split
  · exact absurd rfl h
  · rfl

/-- The tests that lead to local-only handlers ask for guarded paths. -/
theorem routeTests_guarded : ∀ t ∈ routeTests, t.method = .post → t.route.localOnly = true →
    ∃ text ∈ guardedPrefixes, text.toList.isPrefixOf t.start.toList = true ∧
      1 < text.toList.length := by decide

theorem RouteTest.startsWith_of_holds {t : RouteTest} {method : HttpMethod} {path : Text}
    (h : t.holds method path = true) : t.method = method ∧ startsWith path t.start = true := by
  unfold RouteTest.holds at h
  rw [Bool.and_eq_true, decide_eq_true_eq] at h
  refine ⟨h.1.symm, ?_⟩
  have htest := h.2
  split at htest
  · rw [decide_eq_true_eq] at htest
    rw [htest]
    exact List.isPrefixOf_iff_prefix.mpr (List.prefix_refl _)
  · exact (Bool.and_eq_true _ _ ▸ htest).1

/-- Every path that is routed to a local-only handler begins with a guarded one. -/
theorem guarded_of_localOnly {path : Text} (h : (routeOf .post path).localOnly = true) :
    ∃ text ∈ guardedPrefixes, startsWith path text = true ∧ 1 < text.toList.length := by
  unfold routeOf at h
  cases hfind : routeTests.find? (fun t => t.holds .post path) with
  | none => rw [hfind] at h; cases h
  | some t =>
    rw [hfind] at h
    have hholds : t.holds .post path = true := by simpa using List.find?_some hfind
    obtain ⟨hmethod, hstarts⟩ := RouteTest.startsWith_of_holds hholds
    obtain ⟨text, htext, hpre, hlong⟩ :=
      routeTests_guarded t (List.mem_of_find?_eq_some hfind) hmethod h
    exact ⟨text, htext, List.isPrefixOf_iff_prefix.mpr ((List.isPrefixOf_iff_prefix.mp hpre).trans
      (List.isPrefixOf_iff_prefix.mp hstarts)), hlong⟩

/-- The guard looks for a slash first. -/
theorem not_guarded_of_noSlash {target : Text} (h : target.head? ≠ some '/') :
    guardedPrefixes.any (startsWith target) = false := by
  have hslash : ∀ text ∈ guardedPrefixes, text.toList.head? = some '/' := by decide
  rw [List.any_eq_false]
  intro text htext hstarts
  obtain ⟨rest, hrest⟩ := List.isPrefixOf_iff_prefix.mp hstarts
  have hhead := hslash text htext
  rw [← hrest, List.head?_append, hhead] at h
  exact h rfl

variable (respond : Route → Text → β → Db α)

theorem run_doPost_refused {clientAddress : String} {target : Text} {body : ReadBody β} {s : Store}
    (hremote : isLocalRequest clientAddress = false)
    (hguard : guardedPrefixes.any (startsWith (requestPath target)) = true) :
    (doPost respond clientAddress target body).run s = (.ok .localOnlyRoute, s) := by
  unfold doPost
  simp only [hguard, hremote, Bool.not_false, Bool.and_self, if_true]
  rfl

/-- A request that the guard lets pass is answered by something else. -/
theorem run_doPost_passed {clientAddress : String} {target : Text} {body : ReadBody β} {s : Store}
    (hguard : guardedPrefixes.any (startsWith (requestPath target)) = false) :
    ((doPost respond clientAddress target body).run s).1 ≠ .ok .localOnlyRoute := by
  unfold doPost
  simp only [hguard, Bool.false_and, Bool.false_eq_true, if_false]
  cases body with
  | body b =>
    intro h
    obtain ⟨a, s', hret⟩ : ∃ a s', Program.Returns (do
        let r ← handle respond .post (requestPath target) b
        pure (PostAnswer.response r)) s a s' ∧ a = .localOnlyRoute :=
      ⟨.localOnlyRoute, _, Prod.ext h rfl, rfl⟩
    obtain ⟨r, s₁, -, hpure⟩ := Program.returns_bind.mp hret.1
    obtain ⟨ha, -⟩ := Program.returns_pure.mp hpure
    cases ha.symm.trans hret.2
  | invalidJson detail => exact fun h => by cases h
  | raises e => exact fun h => by cases h

/-- A POST from elsewhere that is routed to a local-only handler is refused exactly when its target
    begins with a slash. -/
theorem localOnly_iff (clientAddress : String) (target : Text) (body : ReadBody β) (s : Store) :
    LocalOnly respond clientAddress target body s ↔
      isLocalRequest clientAddress = true ∨ ¬ RoutesLocal target ∨ target.head? = some '/' := by
  constructor
  · intro h
    by_cases hlocal : isLocalRequest clientAddress = true
    · exact Or.inl hlocal
    by_cases hroute : RoutesLocal target
    · refine Or.inr (Or.inr ?_)
      by_contra hslash
      have hrefused := h (by simpa using hlocal) hroute
      refine absurd (congrArg Prod.fst hrefused) (run_doPost_passed respond ?_)
      rw [requestPath_of_noSlash hslash]
      exact not_guarded_of_noSlash hslash
    · exact Or.inr (Or.inl hroute)
  · intro h hremote hroute
    rcases h with hlocal | hno | hslash
    · rw [hremote] at hlocal
      cases hlocal
    · exact absurd hroute hno
    · obtain ⟨text, htext, hstarts, hlong⟩ := guarded_of_localOnly hroute
      refine run_doPost_refused respond hremote (List.any_eq_true.mpr ⟨text, htext, ?_⟩)
      exact dispatchPath_prefix (originForm_requestPath hslash) hlong hstarts

end Handler

/-! ## A request that gets around the guard -/

/-- The event handler as it is, for requests that bring one event. -/
def respondEvents (now : DateTime) (route : Route) (_ : Text) (e : EventFields) :
    Db (Option EventIngestionResult) :=
  match route with
  | .eventIngestion => do pure (some (← ingest e none now))
  | _ => pure none

def sampleEvent : EventFields where
  sequence := 1
  createdAt := epoch
  clientId := "c1"
  kind := .message
  status := .active
  actor := "ann"
  role := "builder"
  summary := "hello"

/-- A POST from another machine reaches the event handler in the absolute form, and its event is
    stored. -/
theorem absoluteForm_stores_event :
    ¬ LocalOnly (respondEvents epoch) "10.0.0.7" "http://host/events".toList (.body sampleEvent)
        Store.empty ∧
    ((doPost (respondEvents epoch) "10.0.0.7" "http://host/events".toList
      (.body sampleEvent)).run Store.empty).2.eventCount = 1 := by
  have hstored : ((doPost (respondEvents epoch) "10.0.0.7" "http://host/events".toList
      (.body sampleEvent)).run Store.empty).2.eventCount = 1 := by decide
  refine ⟨fun h => ?_, hstored⟩
  rw [h rfl (by unfold RoutesLocal; decide)] at hstored
  cases hstored

end Vad
