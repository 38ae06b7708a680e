/-
  The files that the HTTP server reads to answer a GET (`EvidenceStore`, `_list_runs` and
  `_run_response` of `VADApi`, and `make_handler`, in `vad/server/app.py`).

  A file is looked for in three steps (`lookUp`): the path is resolved, the result is compared with
  the root, part by part, and it has to be a file.  Then it is opened, at the resolved path.

  1. **The program** — `doGet`, with the places that are read on the way to its answer.
  2. **The rule** — `servedFrom`: the root whose files a request may read, if there is one.
  3. **The result** — `files_served`: nothing else is read, unless the path that was looked for
     leads in a circle, and what exists below the root of the user interface is served.  The
     exception is real (`circle_escapes`): of a link that leads back to itself the library keeps
     the rest of the path as it is, and `..` then cancels the name of the link.

  How a URL is unquoted and what `load_run` makes of a file are parameters.
-/
import Vad.Guards.Filesystem
import Vad.Server.Routes

namespace Vad.FilesServed

open Files (Place)
open Links (Tree PathError resolve walk Straight)
open PyText (Text)

/-! ## Looking for a file -/

/-- `root / rest`, of the parts: an absolute rest replaces the root. -/
def below (root : Place) (rest : String) : List String :=
  if isAbsolutePath rest then partsOfPath rest else root ++ partsOfPath rest

/-- `Path.exists`, with the place. -/
def located (t : Tree) (maxLinks : Nat) (path : List String) : Option Place :=
  match walk t maxLinks [] path with
  | .ok (.found p) => some p
  | _ => none

/-- `Path.is_file`. -/
def isFile (t : Tree) (maxLinks : Nat) (path : List String) : Bool :=
  match located t maxLinks path with
  | some p => decide (t.entryAt p = some .file)
  | none => false

/-- What looking for a file comes to. -/
inductive Lookup where
  | found (path : List String)
  | missing
  | raises (e : PathError)
deriving DecidableEq, Repr

/-- `resolve()`, `relative_to(root)` and `is_file()`, as `_resolve_run_path` and
    `_send_static_if_available` both have them. -/
def lookUp (t : Tree) (maxLinks : Nat) (root : Place) (candidate : List String) : Lookup :=
  match resolve t maxLinks [] candidate with
  | .error e => .raises e
  | .ok path =>
    if isRelativeTo path root && isFile t maxLinks path then .found path else .missing

/-- An outcome, and the places that were read for it. -/
structure Traced (α : Type) where
  value : α
  reads : List Place

/-! ## The evidence folder -/

/-- The exceptions of `load_run`. -/
inductive LoadError where
  | fileNotFound
  | jsonDecodeError
  | validationError
  /-- Other value errors: a null character in the path, or a text that is not UTF-8. -/
  | valueError
  /-- `RuntimeError`: the path leads in a circle. -/
  | runtimeError
  /-- Any other, as of a text that denotes a list. -/
  | other
deriving DecidableEq, Repr

def LoadError.ofPathError : PathError → LoadError
  | .valueError => .valueError
  | .runtimeError => .runtimeError
  | .outOfFuel => .other

/-- `_list_runs` passes over the file. -/
def LoadError.skipped : LoadError → Bool
  | .jsonDecodeError | .validationError | .fileNotFound => true
  | _ => false

structure EvidenceStore where
  root : Place

section Program

variable {ρ : Type} (t : Tree) (maxLinks : Nat) (contents : Place → Except LoadError ρ)

/-- `EvidenceStore._resolve_run_path`; what is missing is a `FileNotFoundError`. -/
def EvidenceStore.resolveRunPath (store : EvidenceStore) (runId : Text) : Lookup :=
  if runId = [] ∨ '/' ∈ runId ∨ '\\' ∈ runId ∨ runId = ['.'] ∨ runId = ['.', '.'] then .missing
  else lookUp t maxLinks store.root (below store.root (String.ofList (runId ++ ".json".toList)))

/-- `EvidenceStore.load_run`. -/
def EvidenceStore.loadRun (store : EvidenceStore) (runId : Text) : Traced (Except LoadError ρ) :=
  match store.resolveRunPath t maxLinks runId with
  | .missing => ⟨.error .fileNotFound, []⟩
  | .raises e => ⟨.error (.ofPathError e), []⟩
  | .found path =>
    match Links.opens t maxLinks path with
    | none => ⟨.error .fileNotFound, []⟩
    | some place => ⟨contents place, [place]⟩

/-- `PurePath.stem`: the name before its last dot, unless that comes first or last. -/
def stem (name : Text) : Text :=
  let front := name.rdropWhile (· ≠ '.')
  if 1 < front.length ∧ front.length < name.length then front.dropLast else name

example : stem "run-1.json".toList = "run-1".toList ∧ stem ".json".toList = ".json".toList := by
  decide

/-- `sorted(root.glob("*.json"))`, of the names; a root that does not exist has none. -/
def globJson (root : Place) : List String :=
  match located t maxLinks root with
  | none => []
  | some p => ((t.entries.map Prod.fst).dedup.filterMap fun place =>
      if place ≠ [] ∧ place.dropLast = p ∧ endsWith (place.getLastD "").toList ".json"
      then some (place.getLastD "") else none).mergeSort fun a b => decide (a ≤ b)

/-- The loop of `_list_runs`: three exceptions pass over a file, any other ends the call. -/
def EvidenceStore.listRunsFrom (store : EvidenceStore) :
    List String → Traced (Except LoadError (List ρ))
  | [] => ⟨.ok [], []⟩
  | name :: names =>
    let loaded := store.loadRun t maxLinks contents (stem name.toList)
    match loaded.value with
    | .ok run =>
      let rest := store.listRunsFrom names
      ⟨rest.value.map (run :: ·), loaded.reads ++ rest.reads⟩
    | .error e =>
      if e.skipped then
        let rest := store.listRunsFrom names
        ⟨rest.value, loaded.reads ++ rest.reads⟩
      else ⟨.error e, loaded.reads⟩

/-! ## The handler -/

/-- The schemes whose paths have parameters. -/
def usesParams : Option Text → Bool
  | none => true
  | some scheme => ["ftp", "hdl", "prospero", "http", "https", "shttp", "rtsp", "sip", "sips",
      "mms", "sftp", "tel"].contains (String.ofList (scheme.map Char.toLower))

/-- A path without its parameters: they begin at the first `;` of the last segment. -/
def withoutParams (path : Text) : Text :=
  path.rdropWhile (· ≠ '/') ++ (path.rtakeWhile (· ≠ '/')).takeWhile (· ≠ ';')

/-- `urlparse(rawPath).path`. -/
def urlPath (rawPath : Text) : Text :=
  let parts := Uri.split rawPath
  if usesParams parts.scheme then withoutParams parts.path else parts.path

example : urlPath "/a;b/app.js;v=1?q".toList = "/a;b/app.js".toList := by decide

/-- `parsed.path.rstrip("/") or "/"`. -/
def getPath (rawPath : Text) : Text :=
  let path := (urlPath rawPath).rdropWhile (· = '/')
  if path = [] then ['/'] else path

/-- What a GET is answered, as far as files go. -/
inductive Answer (ρ : Type) where
  /-- The bytes of a file of the user interface. -/
  | static (place : Place)
  | runs (runs : List ρ)
  | run (run : ρ)
  | notFound
  | runNotFound (runId : Text)
  | invalidEvidence (e : LoadError)
  /-- The handler ends with an exception, and the client gets no answer. -/
  | raised (e : LoadError)
  /-- The answer is made from the database, or from no stored data at all. -/
  | fromElsewhere (route : Route)
deriving Repr, DecidableEq

/-- What `make_handler` and `VADApi` are set up with; the roots are resolved. -/
structure Server where
  uiRoot : Option Place := none
  store : EvidenceStore
  hasDatabase : Bool := false

variable (unquote : Text → Text) (server : Server)

/-- `VADApi._list_runs`. -/
def Server.listRuns : Traced (Answer ρ) :=
  if server.hasDatabase then ⟨.fromElsewhere .runs, []⟩
  else
    let listed := server.store.listRunsFrom t maxLinks contents
      (globJson t maxLinks server.store.root)
    match listed.value with
    | .ok runs => ⟨.runs runs, listed.reads⟩
    | .error e => ⟨.raised e, listed.reads⟩

/-- `[unquote(part) for part in path.split("/") if part]`. -/
def urlParts (path : Text) : List Text :=
  ((path.splitOn '/').filter (· ≠ [])).map unquote

/-- `VADApi._run_response`: the evidence is loaded before what follows the run is looked at. -/
def Server.runResponse (path : Text) : Traced (Answer ρ) :=
  match urlParts unquote path with
  | _ :: runId :: tail =>
    if 1 < tail.length then ⟨.notFound, []⟩
    else if server.hasDatabase then ⟨.fromElsewhere .run, []⟩
    else
      let loaded := server.store.loadRun t maxLinks contents runId
      match loaded.value with
      | .ok run =>
        if tail = [] ∨ tail = ["evidence".toList] then ⟨.run run, loaded.reads⟩
        else ⟨.notFound, loaded.reads⟩
      | .error .fileNotFound => ⟨.runNotFound runId, loaded.reads⟩
      | .error .jsonDecodeError => ⟨.invalidEvidence .jsonDecodeError, loaded.reads⟩
      | .error .validationError => ⟨.invalidEvidence .validationError, loaded.reads⟩
      | .error .valueError => ⟨.invalidEvidence .valueError, loaded.reads⟩
      | .error e => ⟨.raised e, loaded.reads⟩
  | _ => ⟨.notFound, []⟩

/-- The `GET` side of `VADApi.handle`. -/
def Server.handleGet (rawPath : Text) : Traced (Answer ρ) :=
  match routeOf .get (getPath rawPath) with
  | .runs => server.listRuns t maxLinks contents
  | .run => server.runResponse t maxLinks contents unquote (getPath rawPath)
  | route => ⟨.fromElsewhere route, []⟩

/-- The prefixes that `_send_static_if_available` leaves to the API. -/
def apiPrefixes : List String :=
  ["/runs", "/health", "/ready", "/actions", "/dashboard", "/plugins", "/events", "/clients",
    "/leases", "/work-items", "/diff-proposals", "/operator-intents", "/run-task-states", "/mcp"]

def isApiPath (path : Text) : Bool := apiPrefixes.any (startsWith path)

/-- The file of the user interface that a path asks for. -/
def relativePath (path : Text) : String :=
  if path = [] ∨ path = ['/'] then "index.html"
  else String.ofList (unquote (path.dropWhile (· = '/')))

/-- `_send_static_if_available`; `none` when it returns `False`. -/
def sendStaticIfAvailable (root : Place) (rawPath : Text) : Option (Traced (Answer ρ)) :=
  let path := urlPath rawPath
  if isApiPath path then none
  else
    match lookUp t maxLinks root (below root (relativePath unquote path)) with
    | .raises e => some ⟨.raised (.ofPathError e), []⟩
    | .missing => some ⟨.notFound, []⟩
    | .found candidate =>
      match Links.opens t maxLinks candidate with
      | none => some ⟨.raised .fileNotFound, []⟩
      | some place => some ⟨.static place, [place]⟩

/-- `Handler.do_GET`. -/
def Server.doGet (target : Text) : Traced (Answer ρ) :=
  let path := requestPath target
  match server.uiRoot.bind fun root => sendStaticIfAvailable t maxLinks unquote root path with
  | some answer => answer
  | none => server.handleGet t maxLinks contents unquote path

/-! ## The rule -/

/-- The root whose files a GET may read: that of the user interface for what is not the API's, and
    the evidence folder where runs are listed or loaded without a database. -/
def Server.servedFrom (target : Text) : Option Place :=
  if server.uiRoot.isSome && !isApiPath (urlPath (requestPath target)) then server.uiRoot
  else if server.hasDatabase then none
  else
    match routeOf .get (getPath (requestPath target)) with
    | .runs | .run => some server.store.root
    | _ => none

/-- The name of the file of a run. -/
def runFile (runId : Text) : String := String.ofList (runId ++ ".json".toList)

/-- The names that a GET looks for below that root. -/
def Server.asked (target : Text) : List String :=
  if server.uiRoot.isSome && !isApiPath (urlPath (requestPath target)) then
    [relativePath unquote (urlPath (requestPath target))]
  else
    match routeOf .get (getPath (requestPath target)) with
    | .runs => (globJson t maxLinks server.store.root).map fun name => runFile (stem name.toList)
    | .run => ((urlParts unquote (getPath (requestPath target)))[1]?).toList.map runFile
    | _ => []

/-- Below the root, unless one of the names leads in a circle. -/
def Contained (root : Place) (names : List String) (place : Place) : Prop :=
  root <+: place ∨ ∃ name ∈ names, ¬ Straight t (below root name)

/-! ## What is read -/

section Reads

variable {t maxLinks contents unquote server}

/-- What is found has been resolved, and lies below the root by its name. -/
theorem resolve_of_found {root : Place} {candidate path : List String}
    (h : lookUp t maxLinks root candidate = .found path) :
    resolve t maxLinks [] candidate = .ok path ∧ root <+: path := by
  unfold lookUp at h
  split at h
  · cases h
  · rename_i p hresolved
    split at h
    · rename_i hpasses
      cases h
      rw [Bool.and_eq_true] at hpasses
      exact ⟨hresolved, List.isPrefixOf_iff_prefix.mp hpasses.1⟩
    · cases h

theorem contained_of_found {root place : Place} {path : List String} {name : String}
    (h : lookUp t maxLinks root (below root name) = .found path)
    (hopens : Links.opens t maxLinks path = some place) : Contained t root [name] place := by
  obtain ⟨hresolved, hbelow⟩ := resolve_of_found h
  by_cases hstraight : Straight t (below root name)
  · have hclean := Links.clean_resolve hstraight hresolved
    rw [← hclean.opens_eq hopens] at hbelow
    exact Or.inl hbelow
  · exact Or.inr ⟨name, List.mem_singleton_self name, hstraight⟩

theorem Contained.mono {root place : Place} {names more : List String}
    (h : Contained t root names place) (hmore : ∀ name ∈ names, name ∈ more) :
    Contained t root more place := by
  rcases h with hbelow | ⟨name, hname, hcircle⟩
  · exact Or.inl hbelow
  · exact Or.inr ⟨name, hmore name hname, hcircle⟩

/-- What exists is looked up where the operating system finds it. -/
theorem lookUp_located {root q : Place} {candidate : List String}
    (h : located t maxLinks candidate = some q) :
    lookUp t maxLinks root candidate =
        (if root <+: q ∧ t.entryAt q = some .file then .found q else .missing) ∧
      Links.opens t maxLinks q = some q := by
  have hwalk : walk t maxLinks [] candidate = .ok (.found q) := by
    unfold located at h
    split at h
    · rename_i p hp
      cases h
      exact hp
    · cases h
  obtain ⟨hresolved, hopens⟩ := Links.resolve_of_walk hwalk
  refine ⟨?_, hopens⟩
  -- the test for a file looks at the place itself, since it is no link
  have hplace : isFile t maxLinks q = decide (t.entryAt q = some .file) := by
    unfold Links.opens at hopens
    unfold isFile located
    cases hq : walk t maxLinks [] q with
    | error e => rw [hq] at hopens; cases hopens
    | ok reached =>
      rw [hq] at hopens
      cases reached with
      | found p => cases hopens; rfl
      | fresh p =>
        refine (decide_eq_false fun hfile => ?_).symm
        have hfound := @Links.walk_place t maxLinks _ _ hfile fun target h => by cases h
        rw [hq] at hfound
        cases hfound
  unfold lookUp
  rw [hresolved]
  dsimp only
  rw [hplace]
  refine if_congr ?_ rfl rfl
  rw [Bool.and_eq_true, decide_eq_true_eq]
  exact and_congr List.isPrefixOf_iff_prefix Iff.rfl

theorem loadRun_reads {store : EvidenceStore} {runId : Text} :
    ∀ place ∈ (store.loadRun t maxLinks contents runId).reads,
      Contained t store.root [runFile runId] place := by
  intro place hplace
  unfold EvidenceStore.loadRun at hplace
  cases hfound : store.resolveRunPath t maxLinks runId with
  | missing => rw [hfound] at hplace; cases hplace
  | raises e => rw [hfound] at hplace; cases hplace
  | found path =>
    rw [hfound] at hplace
    dsimp only at hplace
    unfold EvidenceStore.resolveRunPath at hfound
    split at hfound
    · cases hfound
    cases hopens : Links.opens t maxLinks path with
    | none => rw [hopens] at hplace; cases hplace
    | some opened =>
      rw [hopens] at hplace
      rw [List.mem_singleton.mp hplace]
      exact contained_of_found hfound hopens

theorem listRunsFrom_reads {store : EvidenceStore} (names : List String) :
    ∀ place ∈ (store.listRunsFrom t maxLinks contents names).reads,
      Contained t store.root (names.map fun name => runFile (stem name.toList)) place := by
  induction names with
  | nil => exact fun place hplace => absurd hplace List.not_mem_nil
  | cons name names ih =>
    intro place hplace
    have hfirst : place ∈ (store.loadRun t maxLinks contents (stem name.toList)).reads ∨
        place ∈ (store.listRunsFrom t maxLinks contents names).reads := by
      unfold EvidenceStore.listRunsFrom at hplace
      dsimp only at hplace
      split at hplace
      · exact List.mem_append.mp hplace
      split at hplace
      · exact List.mem_append.mp hplace
      · exact Or.inl hplace
    rw [List.map_cons]
    rcases hfirst with hfirst | hrest
    · refine (loadRun_reads place hfirst).mono fun x hx => ?_
      rw [List.mem_singleton.mp hx]
      exact List.mem_cons_self ..
    · exact (ih place hrest).mono fun x hx => List.mem_cons_of_mem _ hx

theorem runResponse_reads {path : Text} :
    ∀ place ∈ (server.runResponse t maxLinks contents unquote path).reads,
      server.hasDatabase = false ∧
        Contained t server.store.root ((urlParts unquote path)[1]?.toList.map runFile) place := by
  intro place hplace
  unfold Server.runResponse at hplace
  split at hplace
  · rename_i first runId tail hparts
    split at hplace
    · cases hplace
    split at hplace
    · cases hplace
    rename_i hdatabase
    have hreads : place ∈ (server.store.loadRun t maxLinks contents runId).reads := by
      dsimp only at hplace
      split at hplace
      · split at hplace <;> exact hplace
      all_goals exact hplace
    rw [hparts]
    exact ⟨Bool.eq_false_iff.mpr hdatabase, loadRun_reads place hreads⟩
  · cases hplace

theorem sendStatic_reads {root : Place} {rawPath : Text} {answer : Traced (Answer ρ)}
    (h : sendStaticIfAvailable t maxLinks unquote root rawPath = some answer) :
    ∀ place ∈ answer.reads,
      Contained t root [relativePath unquote (urlPath rawPath)] place := by
  intro place hplace
  unfold sendStaticIfAvailable at h
  dsimp only at h
  split at h
  · cases h
  split at h
  · cases h; cases hplace
  · cases h; cases hplace
  · rename_i candidate hfound
    split at h
    · cases h; cases hplace
    · rename_i opened hopens
      cases h
      rw [List.mem_singleton.mp hplace]
      exact contained_of_found hfound hopens

/-- The user interface answers what is not the API's. -/
theorem doGet_static {root : Place} {target : Text} (hroot : server.uiRoot = some root)
    (hpath : isApiPath (urlPath (requestPath target)) = false) :
    sendStaticIfAvailable t maxLinks unquote root (requestPath target) =
      some (server.doGet t maxLinks contents unquote target) := by
  cases hanswer : sendStaticIfAvailable (ρ := ρ) t maxLinks unquote root (requestPath target) with
  | some answer =>
    unfold Server.doGet
    rw [hroot]
    dsimp only [Option.bind_some]
    rw [hanswer]
  | none =>
    exfalso
    unfold sendStaticIfAvailable at hanswer
    dsimp only at hanswer
    rw [if_neg (by rw [hpath]; decide)] at hanswer
    split at hanswer
    · cases hanswer
    · cases hanswer
    · split at hanswer <;> cases hanswer

/-- Everything else is the API's. -/
theorem doGet_api {target : Text} (h : (server.uiRoot.isSome &&
      !isApiPath (urlPath (requestPath target))) = false) :
    server.doGet t maxLinks contents unquote target =
      server.handleGet t maxLinks contents unquote (requestPath target) := by
  unfold Server.doGet
  cases hroot : server.uiRoot with
  | none => rfl
  | some root =>
    rw [hroot, Option.isSome_some, Bool.true_and, Bool.not_eq_false'] at h
    unfold sendStaticIfAvailable
    dsimp only [Option.bind_some]
    rw [if_pos h]

theorem handleGet_reads {rawPath : Text} :
    ∀ place ∈ (server.handleGet t maxLinks contents unquote rawPath).reads,
      server.hasDatabase = false ∧
        ((routeOf .get (getPath rawPath) = .runs ∧ Contained t server.store.root
            ((globJson t maxLinks server.store.root).map fun name => runFile (stem name.toList))
            place) ∨
          (routeOf .get (getPath rawPath) = .run ∧ Contained t server.store.root
            ((urlParts unquote (getPath rawPath))[1]?.toList.map runFile) place)) := by
  intro place hplace
  unfold Server.handleGet at hplace
  split at hplace
  · rename_i hroute
    unfold Server.listRuns at hplace
    split at hplace
    · cases hplace
    rename_i hdatabase
    have hreads : place ∈ (server.store.listRunsFrom t maxLinks contents
        (globJson t maxLinks server.store.root)).reads := by
      dsimp only at hplace
      split at hplace <;> exact hplace
    exact ⟨Bool.eq_false_iff.mpr hdatabase, Or.inl ⟨hroute, listRunsFrom_reads _ place hreads⟩⟩
  · rename_i hroute
    obtain ⟨hdatabase, hcontained⟩ := runResponse_reads place hplace
    exact ⟨hdatabase, Or.inr ⟨hroute, hcontained⟩⟩
  · cases hplace

/-- Whatever is read lies where the rule says. -/
theorem doGet_reads {target : Text} :
    ∀ place ∈ (server.doGet t maxLinks contents unquote target).reads,
      ∃ root, server.servedFrom target = some root ∧
        Contained t root (server.asked t maxLinks unquote target) place := by
  intro place hplace
  unfold Server.servedFrom Server.asked
  cases hui : (server.uiRoot.isSome && !isApiPath (urlPath (requestPath target))) with
  | true =>
    obtain ⟨hsome, hpath⟩ := Bool.and_eq_true _ _ ▸ hui
    obtain ⟨root, hroot⟩ := Option.isSome_iff_exists.mp hsome
    have hanswer := @doGet_static ρ t maxLinks contents unquote server root target hroot
      (by simpa using hpath)
    rw [if_pos rfl, if_pos rfl]
    exact ⟨root, hroot, sendStatic_reads hanswer place hplace⟩
  | false =>
    rw [doGet_api hui] at hplace
    obtain ⟨hdatabase, hcases⟩ := handleGet_reads place hplace
    rw [if_neg Bool.false_ne_true, if_neg (by rw [hdatabase]; decide), if_neg Bool.false_ne_true]
    -- only the two routes of the runs read files
    rcases hcases with ⟨hroute, hcontained⟩ | ⟨hroute, hcontained⟩
    · rw [hroute]
      exact ⟨server.store.root, rfl, hcontained⟩
    · rw [hroute]
      exact ⟨server.store.root, rfl, hcontained⟩

/-- What exists where the user interface looks is served when it is a file below the root. -/
theorem doGet_located {root q : Place} {target : Text} (hroot : server.uiRoot = some root)
    (hpath : isApiPath (urlPath (requestPath target)) = false)
    (hlocated : located t maxLinks
      (below root (relativePath unquote (urlPath (requestPath target)))) = some q) :
    server.doGet t maxLinks contents unquote target =
      if root <+: q ∧ t.entryAt q = some .file then ⟨.static q, [q]⟩ else ⟨.notFound, []⟩ := by
  have hanswer := @doGet_static ρ t maxLinks contents unquote server root target hroot hpath
  obtain ⟨hlookUp, hopens⟩ := @lookUp_located t maxLinks root q _ hlocated
  unfold sendStaticIfAvailable at hanswer
  dsimp only at hanswer
  rw [if_neg (by rw [hpath]; decide), hlookUp] at hanswer
  by_cases hserved : root <+: q ∧ t.entryAt q = some .file
  · rw [if_pos hserved] at hanswer ⊢
    dsimp only at hanswer
    rw [hopens] at hanswer
    exact (Option.some.inj hanswer).symm
  · rw [if_neg hserved] at hanswer ⊢
    exact (Option.some.inj hanswer).symm

end Reads

end Program

/-! ## A circle in the user interface -/

/-- A user interface with a link that leads to itself, and one that leads out. -/
def webTree : Tree where
  entries := [([], .directory), (["srv"], .directory), (["srv", "ui"], .directory),
    (["srv", "ui", "app.js"], .file), (["srv", "ui", "loop"], .link "loop"),
    (["srv", "ui", "out"], .link "/secret"), (["secret"], .file)]
  root := by decide
  placed := by decide

def webServer : Server where
  uiRoot := some ["srv", "ui"]
  store := ⟨["srv", "runs"]⟩

/-- No evidence is read in what follows. -/
def noContents : Place → Except LoadError Unit := fun _ => .error .other

/-- `/out` leads out of the root and is not found, but behind the circle it is served. -/
theorem circle_escapes :
    (webServer.doGet webTree 40 noContents id "/out".toList).reads = [] ∧
    (webServer.doGet webTree 40 noContents id "/loop/../out".toList).reads = [["secret"]] := by
  constructor <;> decide +kernel

end Vad.FilesServed
