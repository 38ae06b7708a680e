/-
  The status of the plugins, merged from the inventory and the events
  (`merge_plugin_status_with_events` of `vad/control_plane/plugins.py`).

  1. **The code** — the events are sorted by sequence number, raw timestamp and id, which fails if it
     has to compare a naive with an aware timestamp (`sortedEvents`); the row of a plugin is what a
     loop over the events that mention it leaves (`pluginRow`).

  2. **Rows** — a row shows four things, each of them the mark of the latest event with such a mark
     (`pluginRow_eq`).

  3. **Result** (`statusIsolated_iff`) — the merge returns, does not depend on the order of the
     events and is not changed by events about other plugins, exactly if no tied timestamps are of
     two kinds, the versions of the installed plugins fit, the marks of tied events agree, and the
     marks of added events that mention the plugin are overridden.
-/
import Vad.ControlPlane.Plugins
import Vad.ControlPlane.ProjectionOrder
import Vad.Lib.Latest

namespace Vad

open Latest (shown latest TiesAgree Overridden)

/-! ## Status records -/

structure PluginStatusRecord where
  pluginId : String
  targetClient : PluginTargetClient
  status : PluginStatus
  version : String
  localVersion : Option String := none
  publicationReadiness : String := "needs_review"
  summary : String
  actionRequired : Option String := none
deriving DecidableEq, Repr

instance : Model PluginStatusRecord where
  name := "PluginStatusRecord"
  normalize := id
  checks r := [
    ("plugin_id", safeIdentifier 1 160 r.pluginId),
    ("local_version", optionally (safeText 0 80) r.localVersion),
    ("publication_readiness", safeText 0 80 r.publicationReadiness),
    ("summary", safeText 1 300 r.summary),
    ("action_required", optionally (safeText 0 300) r.actionRequired)]
  normalize_idem _ := rfl

/-- The data of `PluginInventoryRecord.to_status_record`. -/
def PluginInventoryRecord.statusRecord (r : PluginInventoryRecord) : PluginStatusRecord where
  pluginId := r.pluginId
  targetClient := r.targetClient
  status := r.dashboardStatus
  version := r.version
  localVersion := if r.dashboardStatus = .installed then some r.version else none
  publicationReadiness := r.publicationReadiness
  summary := r.summary
  actionRequired := r.actionRequired

/-- `PluginInventoryRecord.to_status_record`. -/
def PluginInventoryRecord.toStatusRecord (r : PluginInventoryRecord) :
    Except PyError (Checked PluginStatusRecord) := Model.build r.statusRecord

/-- The version of an installed plugin makes a `local_version`. -/
def PluginInventoryRecord.VersionFits (r : PluginInventoryRecord) : Prop :=
  r.dashboardStatus = .installed → safeText 0 80 r.version = true

/-! ## The order of the events -/

/-- The keys of the two events can be compared. -/
def comparable (a b : ControlPlaneEvent) : Bool :=
  decide (a.sequence ≠ b.sequence) || decide (a.createdAt.isAware = b.createdAt.isAware)

/-- An event is put in front of the first that is not before it; where keys are comparable, they are
    ordered as the instants are. -/
def insertEvent (e : ControlPlaneEvent) :
    List ControlPlaneEvent → Except PyError (List ControlPlaneEvent)
  | [] => .ok [e]
  | x :: rest =>
    if comparable e x = false then .error .typeError
    else if projectionOrder e x then .ok (e :: x :: rest)
    else (insertEvent e rest).map (x :: ·)

/-- `sorted(events, key=lambda event: (event.sequence, event.created_at, event.event_id))`. -/
def sortedEvents : List ControlPlaneEvent → Except PyError (List ControlPlaneEvent)
  | [] => .ok []
  | e :: rest => do insertEvent e (← sortedEvents rest)

/-! ## The rows -/

/-- A row of the payload; its `source` is always `"inventory"`. -/
structure PluginRow extends PluginStatusRecord where
  lastEventId : Option String := none
  lastEventAt : Option String := none
  eventDerivedStatus : PluginStatus
deriving DecidableEq, Repr

section Merge

variable (lower : String → String)

/-- `part in whole`. -/
def isIn (part whole : String) : Bool := decide (part.toList <:+: whole.toList)

/-- `_event_references_plugin`. -/
def eventReferencesPlugin (e : ControlPlaneEvent) (pluginId : String) : Bool :=
  decide (e.taskId = some pluginId) || isIn (lower pluginId) (lower e.summary) ||
    isIn ("plugin " ++ lower pluginId) (lower e.summary)

/-- `_plugin_status_from_event`. -/
def pluginStatusFromEvent (e : ControlPlaneEvent) (fallback : PluginStatus) : PluginStatus :=
  if e.status = .failed then .failed
  else if e.status = .blocked then .failed
  else if e.status = .needsHuman then .needsReview
  else if (e.kind = .deploymentEvent ∨ e.kind = .deployment) ∧ e.status = .passed then .installed
  else if isIn "uninstalled" (lower e.summary) then .available
  else if isIn "applied" (lower e.summary) ∧ e.status = .passed then .installed
  else fallback

/-- The status and the action that an event sets, given the status derived from it. -/
def settleStatus (e : ControlPlaneEvent) (row : PluginRow) : PluginRow :=
  if e.status = .failed ∨ e.status = .blocked then
    { row with
      status := .failed
      actionRequired := some e.summary }
  else if e.status = .needsHuman then
    { row with
      status := .needsReview
      actionRequired := some e.summary }
  else if row.eventDerivedStatus = .installed then { row with status := .installed }
  else row

/-- One turn of the inner loop. -/
def mergeEvent (record : PluginInventoryRecord) (row : PluginRow) (e : ControlPlaneEvent) :
    PluginRow :=
  if eventReferencesPlugin lower e record.pluginId = false then row
  else
    settleStatus e { row with
      lastEventId := some (eventIdText e)
      lastEventAt := some e.createdAt.isoformat
      eventDerivedStatus := pluginStatusFromEvent lower e record.dashboardStatus
      publicationReadiness :=
        if e.kind = .approvalRecorded ∧ e.status = .passed then "local_ready"
        else row.publicationReadiness }

/-- The row of a plugin after the loop over the events. -/
def pluginRow (ordered : List ControlPlaneEvent) (record : PluginInventoryRecord) : PluginRow :=
  ordered.foldl (mergeEvent lower record)
    { record.statusRecord with eventDerivedStatus := record.dashboardStatus }

/-- The loop over the inventory. -/
def mergeRecords (ordered : List ControlPlaneEvent) :
    List (Checked PluginInventoryRecord) → Except PyError (List PluginRow)
  | [] => .ok []
  | record :: rest => do
    let _ ← record.1.toStatusRecord
    let rows ← mergeRecords ordered rest
    pure (pluginRow lower ordered record.1 :: rows)

/-- `merge_plugin_status_with_events`. -/
def mergePluginStatusWithEvents (inventory : List (Checked PluginInventoryRecord))
    (events : List ControlPlaneEvent) : Except PyError (List PluginRow) := do
  mergeRecords lower (← sortedEvents events) inventory

end Merge

/-! ## When the merge returns -/

/-- Everything but the version of an installed plugin is checked in the inventory already. -/
theorem toStatusRecord_iff (r : Checked PluginInventoryRecord) :
    (∃ s, r.1.toStatusRecord = .ok s) ↔ r.1.VersionFits := by
  have hall := failedFields_eq_nil.mp r.2.2
  simp only [Model.checks, List.forall_mem_cons] at hall
  obtain ⟨hid, -, -, -, -, hready, hsummary, haction, -⟩ := hall
  have hversion : optionally (safeText 0 80) r.1.statusRecord.localVersion = true ↔
      r.1.VersionFits := by
    unfold PluginInventoryRecord.statusRecord PluginInventoryRecord.VersionFits
    dsimp only
    by_cases h : r.1.dashboardStatus = .installed
    · rw [if_pos h]
      exact ⟨fun hfits _ => hfits, fun hfits => hfits h⟩
    · rw [if_neg h]
      exact ⟨fun _ h' => absurd h' h, fun _ => rfl⟩
  rw [← hversion]
  constructor
  · rintro ⟨s, hs⟩
    have hsame : s.1 = r.1.statusRecord := Model.build_eq_ok hs
    have hvalid := failedFields_eq_nil.mp s.2.2
    rw [hsame] at hvalid
    exact hvalid ("local_version", _) (List.mem_cons_of_mem _ (List.mem_cons_self ..))
  · intro hfits
    have hvalid : Model.Valid r.1.statusRecord := by
      refine ⟨rfl, failedFields_eq_nil.mpr ?_⟩
      simp only [Model.checks, List.forall_mem_cons]
      exact ⟨hid, hfits, hready, hsummary, haction, fun c hc => nomatch hc⟩
    exact ⟨_, Model.build_of_valid hvalid⟩

/-- No two events of one sequence number have timestamps of different kinds. -/
def TimesComparable (events : List ControlPlaneEvent) : Prop :=
  ∀ a ∈ events, ∀ b ∈ events, comparable a b = true

theorem comparable_iff {a b : ControlPlaneEvent} : comparable a b = true ↔
    (a.sequence = b.sequence → a.createdAt.isAware = b.createdAt.isAware) := by
  unfold comparable
  simp only [Bool.or_eq_true, decide_eq_true_eq]
  exact (imp_iff_not_or).symm

theorem comparable_comm {a b : ControlPlaneEvent} (h : comparable a b = true) :
    comparable b a = true :=
  comparable_iff.mpr fun hseq => (comparable_iff.mp h hseq.symm).symm

theorem sequence_le {a b : ControlPlaneEvent} (h : projectionOrder a b = true) :
    a.sequence ≤ b.sequence := by
  have hkey := projectionOrder_iff.mp h
  unfold projectionKey at hkey
  rcases (Prod.Lex.toLex_le_toLex).mp hkey with hlt | ⟨heq, -⟩
  · exact le_of_lt hlt
  · exact le_of_eq heq

/-- An event finds its place unless one of its sequence number has a timestamp of the other kind. -/
theorem insertEvent_eq {e : ControlPlaneEvent} {l : List ControlPlaneEvent}
    (hsorted : l.Pairwise fun a b => projectionOrder a b = true) (hl : TimesComparable l) :
    ((∀ x ∈ l, comparable e x = true) ∧
        insertEvent e l = .ok (l.orderedInsert (fun a b => projectionOrder a b = true) e)) ∨
      ((¬ ∀ x ∈ l, comparable e x = true) ∧ insertEvent e l = .error .typeError) := by
  induction l with
  | nil => exact Or.inl ⟨fun x hx => (nomatch hx), rfl⟩
  | cons x rest ih =>
    obtain ⟨hx, hrest⟩ := List.pairwise_cons.mp hsorted
    unfold insertEvent
    by_cases hcomp : comparable e x = true
    · rw [if_neg (by simp [hcomp]), List.orderedInsert_cons]
      by_cases hex : projectionOrder e x = true
      · rw [if_pos hex, if_pos hex]
        refine Or.inl ⟨List.forall_mem_cons.mpr ⟨hcomp, fun y hy => ?_⟩, rfl⟩
        -- `x` stands between the two, so it has their sequence number if they share it
        refine comparable_iff.mpr fun hseq => ?_
        have hexs := sequence_le hex
        have hxys := sequence_le (hx y hy)
        have hexseq : e.sequence = x.sequence := by omega
        have hxy := hl x (List.mem_cons_self ..) y (List.mem_cons_of_mem x hy)
        exact (comparable_iff.mp hcomp hexseq).trans
          (comparable_iff.mp hxy (hexseq.symm.trans hseq))
      · rw [if_neg hex, if_neg hex]
        have hl' : TimesComparable rest := fun a ha b hb =>
          hl a (List.mem_cons_of_mem x ha) b (List.mem_cons_of_mem x hb)
        rcases ih hrest hl' with ⟨hall, hok⟩ | ⟨hnot, herror⟩
        · exact Or.inl ⟨List.forall_mem_cons.mpr ⟨hcomp, hall⟩, by rw [hok]; rfl⟩
        · refine Or.inr ⟨fun hall => hnot (List.forall_mem_cons.mp hall).2, by rw [herror]; rfl⟩
    · rw [if_pos (by simpa using hcomp)]
      exact Or.inr ⟨fun hall => hcomp (hall x (List.mem_cons_self ..)), rfl⟩

/-- The events are sorted by their instants, or two timestamps cannot be compared. -/
theorem sortedEvents_eq (events : List ControlPlaneEvent) :
    (TimesComparable events ∧ sortedEvents events = .ok (orderedEvents events)) ∨
      (¬ TimesComparable events ∧ sortedEvents events = .error .typeError) := by
  induction events with
  | nil => exact Or.inl ⟨fun a ha => (nomatch ha), rfl⟩
  | cons e rest ih =>
    have hparts : TimesComparable (e :: rest) ↔
        TimesComparable rest ∧ ∀ x ∈ rest, comparable e x = true := by
      constructor
      · intro h
        exact ⟨fun a ha b hb => h a (List.mem_cons_of_mem e ha) b (List.mem_cons_of_mem e hb),
          fun x hx => h e (List.mem_cons_self ..) x (List.mem_cons_of_mem e hx)⟩
      · rintro ⟨hrest, he⟩ a ha b hb
        rcases List.mem_cons.mp ha with rfl | ha' <;> rcases List.mem_cons.mp hb with rfl | hb'
        · exact comparable_iff.mpr fun _ => rfl
        · exact he b hb'
        · exact comparable_comm (he a ha')
        · exact hrest a ha' b hb'
    rw [hparts]
    unfold sortedEvents
    rcases ih with ⟨hrest, hok⟩ | ⟨hnot, herror⟩
    · rw [hok]
      have hsorted : (orderedEvents rest).Pairwise fun a b => projectionOrder a b = true :=
        List.pairwise_insertionSort _ rest
      have hmem (x : ControlPlaneEvent) : x ∈ orderedEvents rest ↔ x ∈ rest :=
        (orderedEvents_perm rest).mem_iff
      have hordered : TimesComparable (orderedEvents rest) := fun a ha b hb =>
        hrest a ((hmem a).mp ha) b ((hmem b).mp hb)
      rcases insertEvent_eq hsorted hordered with ⟨hall, hinsert⟩ | ⟨hnot, hinsert⟩
      · exact Or.inl ⟨⟨hrest, fun x hx => hall x ((hmem x).mpr hx)⟩, hinsert⟩
      · exact Or.inr ⟨fun h => hnot fun x hx => h.2 x ((hmem x).mp hx), hinsert⟩
    · rw [herror]
      exact Or.inr ⟨fun h => hnot h.1, rfl⟩

section Merge

variable {lower : String → String}

theorem mergeRecords_iff {ordered : List ControlPlaneEvent}
    {inventory : List (Checked PluginInventoryRecord)} {rows : List PluginRow} :
    mergeRecords lower ordered inventory = .ok rows ↔
      (∀ r ∈ inventory, r.1.VersionFits) ∧
        rows = inventory.map fun r => pluginRow lower ordered r.1 := by
  induction inventory generalizing rows with
  | nil =>
    show Except.ok [] = .ok rows ↔ _
    rw [Except.ok.injEq]
    exact ⟨fun h => ⟨fun r hr => (nomatch hr), h.symm⟩, fun h => h.2.symm⟩
  | cons r rest ih =>
    unfold mergeRecords
    rw [List.forall_mem_cons, ← toStatusRecord_iff r]
    cases hstatus : r.1.toStatusRecord with
    | error e => exact ⟨fun h => (nomatch h), fun ⟨⟨⟨_, h⟩, _⟩, _⟩ => nomatch h⟩
    | ok status =>
      cases hrest : mergeRecords lower ordered rest with
      | error e =>
        refine ⟨fun h => (nomatch h), fun ⟨⟨_, hfits⟩, _⟩ => ?_⟩
        rw [ih.mpr ⟨hfits, rfl⟩] at hrest
        cases hrest
      | ok others =>
        obtain ⟨hfits, hothers⟩ := ih.mp hrest
        show Except.ok (pluginRow lower ordered r.1 :: others) = .ok rows ↔ _
        rw [Except.ok.injEq, hothers]
        exact ⟨fun h => ⟨⟨⟨status, rfl⟩, hfits⟩, h.symm⟩, fun h => h.2.symm⟩

/-- The merge returns the rows exactly if the timestamps are comparable and the versions fit. -/
theorem merge_iff {inventory : List (Checked PluginInventoryRecord)}
    {events : List ControlPlaneEvent} {rows : List PluginRow} :
    mergePluginStatusWithEvents lower inventory events = .ok rows ↔
      TimesComparable events ∧ (∀ r ∈ inventory, r.1.VersionFits) ∧
        rows = inventory.map fun r => pluginRow lower (orderedEvents events) r.1 := by
  unfold mergePluginStatusWithEvents
  rcases sortedEvents_eq events with ⟨hcomp, hok⟩ | ⟨hnot, herror⟩
  · rw [hok]
    exact mergeRecords_iff.trans ⟨fun h => ⟨hcomp, h⟩, fun h => h.2⟩
  · rw [herror]
    exact ⟨fun h => (nomatch h), fun h => absurd h.1 hnot⟩

/-! ## What a row shows -/

/-- The status that an event sets. -/
def settledStatus (e : ControlPlaneEvent) (derived : PluginStatus) : Option PluginStatus :=
  if e.status = .failed ∨ e.status = .blocked then some .failed
  else if e.status = .needsHuman then some .needsReview
  else if derived = .installed then some .installed
  else none

/-- An event that needs someone's action. -/
def needsAction (e : ControlPlaneEvent) : Bool :=
  decide (e.status = .failed) || decide (e.status = .blocked) || decide (e.status = .needsHuman)

/-- The id, the time and the derived status of the last event. -/
abbrev Seen : Type := Option String × Option String × PluginStatus

variable (lower) in
def seenMark (r : PluginInventoryRecord) (e : ControlPlaneEvent) : Option Seen :=
  if eventReferencesPlugin lower e r.pluginId then
    some (some (eventIdText e), some e.createdAt.isoformat,
      pluginStatusFromEvent lower e r.dashboardStatus)
  else none

variable (lower) in
def readyMark (r : PluginInventoryRecord) (e : ControlPlaneEvent) : Option String :=
  if eventReferencesPlugin lower e r.pluginId then
    if e.kind = .approvalRecorded ∧ e.status = .passed then some "local_ready" else none
  else none

variable (lower) in
def statusMark (r : PluginInventoryRecord) (e : ControlPlaneEvent) : Option PluginStatus :=
  if eventReferencesPlugin lower e r.pluginId then
    settledStatus e (pluginStatusFromEvent lower e r.dashboardStatus)
  else none

variable (lower) in
def actionMark (r : PluginInventoryRecord) (e : ControlPlaneEvent) : Option (Option String) :=
  if eventReferencesPlugin lower e r.pluginId then
    if needsAction e then some (some e.summary) else none
  else none

variable (lower) in
/-- The row in which everything is shown that the marks of the events say. -/
def shownRow (r : PluginInventoryRecord) (l : List ControlPlaneEvent) : PluginRow :=
  let seen := shown (seenMark lower r) (none, none, r.dashboardStatus) l
  { r.statusRecord with
    status := shown (statusMark lower r) r.dashboardStatus l
    publicationReadiness := shown (readyMark lower r) r.publicationReadiness l
    actionRequired := shown (actionMark lower r) r.actionRequired l
    lastEventId := seen.1
    lastEventAt := seen.2.1
    eventDerivedStatus := seen.2.2 }

theorem pluginRow_eq (r : PluginInventoryRecord) (l : List ControlPlaneEvent) :
    pluginRow lower l r = shownRow lower r l := by
  induction l using List.reverseRecOn with
  | nil => rfl
  | append_singleton l e ih =>
    have hstep : pluginRow lower (l ++ [e]) r = mergeEvent lower r (pluginRow lower l r) e := by
      unfold pluginRow
      rw [List.foldl_append]
      rfl
    rw [hstep, ih]
    unfold shownRow
    simp only [Latest.shown_snoc]
    unfold mergeEvent seenMark readyMark statusMark actionMark
    cases href : eventReferencesPlugin lower e r.pluginId with
    | false => simp only [Bool.false_eq_true, if_false, if_true, Option.getD_none]
    | true =>
      simp only [if_true, Option.getD_some, Bool.true_eq_false, if_false]
      unfold settleStatus settledStatus needsAction
      generalize pluginStatusFromEvent lower e r.dashboardStatus = derived
      by_cases hready : e.kind = .approvalRecorded ∧ e.status = .passed <;>
        cases hstatus : e.status <;> cases derived <;> simp_all

theorem shownRow_inj {r : PluginInventoryRecord} {l l' : List ControlPlaneEvent} :
    shownRow lower r l = shownRow lower r l' ↔
      shown (seenMark lower r) (none, none, r.dashboardStatus) l =
          shown (seenMark lower r) (none, none, r.dashboardStatus) l' ∧
        shown (readyMark lower r) r.publicationReadiness l =
          shown (readyMark lower r) r.publicationReadiness l' ∧
        shown (statusMark lower r) r.dashboardStatus l =
          shown (statusMark lower r) r.dashboardStatus l' ∧
        shown (actionMark lower r) r.actionRequired l =
          shown (actionMark lower r) r.actionRequired l' := by
  unfold shownRow
  constructor
  · intro h
    have hid := congrArg PluginRow.lastEventId h
    have hat := congrArg PluginRow.lastEventAt h
    have hderived := congrArg PluginRow.eventDerivedStatus h
    refine ⟨Prod.ext hid (Prod.ext hat hderived), ?_, ?_, ?_⟩
    · exact congrArg (fun row : PluginRow => row.publicationReadiness) h
    · exact congrArg (fun row : PluginRow => row.status) h
    · exact congrArg (fun row : PluginRow => row.actionRequired) h
  · rintro ⟨hseen, hready, hstatus, haction⟩
    rw [hseen, hready, hstatus, haction]

/-! ## When plugins are kept apart -/

variable (lower) in
/-- All that the last of tied events would show, each of them shows. -/
structure MarksAgree (r : PluginInventoryRecord) (events : List ControlPlaneEvent) : Prop where
  seen : TiesAgree projectionKey (seenMark lower r) events
  ready : TiesAgree projectionKey (readyMark lower r) events
  status : TiesAgree projectionKey (statusMark lower r) events
  action : TiesAgree projectionKey (actionMark lower r) events

variable (lower) in
/-- Nothing that the added events say of the plugin is news. -/
structure NoNews (r : PluginInventoryRecord) (events added : List ControlPlaneEvent) : Prop where
  seen : Overridden projectionKey (seenMark lower r) (none, none, r.dashboardStatus) events added
  ready : Overridden projectionKey (readyMark lower r) r.publicationReadiness events added
  status : Overridden projectionKey (statusMark lower r) r.dashboardStatus events added
  action : Overridden projectionKey (actionMark lower r) r.actionRequired events added

theorem pluginRow_perm_iff {r : PluginInventoryRecord} {events : List ControlPlaneEvent} :
    (∀ events' : List ControlPlaneEvent, events'.Perm events →
      pluginRow lower (orderedEvents events') r = pluginRow lower (orderedEvents events) r) ↔
      MarksAgree lower r events := by
  have hle (a b : ControlPlaneEvent) : projectionOrder a b = true ↔
      projectionKey a ≤ projectionKey b := projectionOrder_iff
  simp only [pluginRow_eq, shownRow_inj]
  constructor
  · intro h
    exact ⟨(Latest.shown_perm_iff hle).mp fun l hl => (h l hl).1,
      (Latest.shown_perm_iff hle).mp fun l hl => (h l hl).2.1,
      (Latest.shown_perm_iff hle).mp fun l hl => (h l hl).2.2.1,
      (Latest.shown_perm_iff hle).mp fun l hl => (h l hl).2.2.2⟩
  · intro h l hl
    exact ⟨(Latest.shown_perm_iff hle).mpr h.seen l hl,
      (Latest.shown_perm_iff hle).mpr h.ready l hl,
      (Latest.shown_perm_iff hle).mpr h.status l hl,
      (Latest.shown_perm_iff hle).mpr h.action l hl⟩

theorem pluginRow_append_iff {r : PluginInventoryRecord} {events added : List ControlPlaneEvent} :
    pluginRow lower (orderedEvents (events ++ added)) r =
        pluginRow lower (orderedEvents events) r ↔
      NoNews lower r events added := by
  have hle (a b : ControlPlaneEvent) : projectionOrder a b = true ↔
      projectionKey a ≤ projectionKey b := projectionOrder_iff
  rw [pluginRow_eq, pluginRow_eq, shownRow_inj]
  constructor
  · rintro ⟨hseen, hready, hstatus, haction⟩
    exact ⟨(Latest.shown_append_iff hle).mp hseen, (Latest.shown_append_iff hle).mp hready,
      (Latest.shown_append_iff hle).mp hstatus, (Latest.shown_append_iff hle).mp haction⟩
  · intro h
    exact ⟨(Latest.shown_append_iff hle).mpr h.seen, (Latest.shown_append_iff hle).mpr h.ready,
      (Latest.shown_append_iff hle).mpr h.status, (Latest.shown_append_iff hle).mpr h.action⟩

/-- The text stands in the other from the position on. -/
def StandsAt (part whole : List Char) (i : ℕ) : Prop := part <+: whole.drop i

variable (lower) in
/-- The task of the event is another plugin, and its summary mentions that plugin; the id of this
    plugin stands in it only as a part of the other's. -/
def RefersElsewhere (e : ControlPlaneEvent) (pluginId : String) : Prop :=
  ∃ other, other ≠ pluginId ∧ e.taskId = some other ∧
    isIn (lower other) (lower e.summary) = true ∧
    ∀ i, StandsAt (lower pluginId).toList (lower e.summary).toList i →
      ∃ j, StandsAt (lower other).toList (lower e.summary).toList j ∧ j ≤ i ∧
        i + (lower pluginId).toList.length ≤ j + (lower other).toList.length

variable (lower) in
/-- The merge returns a row of each plugin, in whatever order it is given the events, and added
    events that refer to other plugins leave the row. -/
def StatusIsolated (inventory : List (Checked PluginInventoryRecord))
    (events added : List ControlPlaneEvent) : Prop :=
  ∃ rows rows', mergePluginStatusWithEvents lower inventory events = .ok rows ∧
    mergePluginStatusWithEvents lower inventory (events ++ added) = .ok rows' ∧
    rows.map (·.pluginId) = inventory.map (·.1.pluginId) ∧
    rows'.map (·.pluginId) = inventory.map (·.1.pluginId) ∧
    (∀ events' : List ControlPlaneEvent, events'.Perm events →
      mergePluginStatusWithEvents lower inventory events' = .ok rows) ∧
    ∀ (i : ℕ) (r : Checked PluginInventoryRecord), inventory[i]? = some r →
      (∀ e ∈ added, RefersElsewhere lower e r.1.pluginId) → rows'[i]? = rows[i]?

variable (lower) in
/-- The timestamps are comparable, the versions of the installed plugins fit, tied events show the
    same, and what is added about other plugins is no news about a plugin. -/
def KeptApart (inventory : List (Checked PluginInventoryRecord))
    (events added : List ControlPlaneEvent) : Prop :=
  TimesComparable (events ++ added) ∧ (∀ r ∈ inventory, r.1.VersionFits) ∧
    (∀ r ∈ inventory, MarksAgree lower r.1 events) ∧
    ∀ r ∈ inventory, (∀ e ∈ added, RefersElsewhere lower e r.1.pluginId) →
      NoNews lower r.1 events added

theorem pluginRow_pluginId (r : PluginInventoryRecord) (l : List ControlPlaneEvent) :
    (pluginRow lower l r).pluginId = r.pluginId := by
  rw [pluginRow_eq]
  rfl

theorem timesComparable_of_subset {events events' : List ControlPlaneEvent}
    (h : TimesComparable events) (hsub : ∀ e ∈ events', e ∈ events) : TimesComparable events' :=
  fun a ha b hb => h a (hsub a ha) b (hsub b hb)

/-- The plugins are kept apart exactly if nothing breaks a comparison, fits no field, ties with
    something else or is news. -/
theorem statusIsolated_iff (lower : String → String)
    (inventory : List (Checked PluginInventoryRecord)) (events added : List ControlPlaneEvent) :
    StatusIsolated lower inventory events added ↔ KeptApart lower inventory events added := by
  have hids (l : List ControlPlaneEvent) :
      (inventory.map fun r => pluginRow lower l r.1).map (·.pluginId) =
        inventory.map (·.1.pluginId) := by
    rw [List.map_map]
    exact List.map_congr_left fun r _ => pluginRow_pluginId r.1 l
  constructor
  · rintro ⟨rows, rows', hrows, hrows', -, -, hperm, hframe⟩
    obtain ⟨-, hfits, rfl⟩ := merge_iff.mp hrows
    obtain ⟨htimes, -, rfl⟩ := merge_iff.mp hrows'
    refine ⟨htimes, hfits, fun r hr => ?_, fun r hr helse => ?_⟩
    · refine pluginRow_perm_iff.mp fun l hl => ?_
      obtain ⟨-, -, hsame⟩ := merge_iff.mp (hperm l hl)
      exact (List.map_inj_left.mp hsame r hr).symm
    · obtain ⟨i, hi⟩ := List.getElem?_of_mem hr
      have hrow := hframe i r hi helse
      rw [List.getElem?_map, List.getElem?_map, hi] at hrow
      exact pluginRow_append_iff.mp (Option.some.inj hrow)
  · rintro ⟨htimes, hfits, hties, hnews⟩
    have hevents : TimesComparable events :=
      timesComparable_of_subset htimes fun e he => List.mem_append_left _ he
    refine ⟨_, _, merge_iff.mpr ⟨hevents, hfits, rfl⟩, merge_iff.mpr ⟨htimes, hfits, rfl⟩,
      hids _, hids _, fun l hl => ?_, fun i r hi helse => ?_⟩
    · have hl' : TimesComparable l := timesComparable_of_subset hevents fun e => hl.mem_iff.mp
      refine merge_iff.mpr ⟨hl', hfits, ?_⟩
      exact List.map_congr_left fun r hr => (pluginRow_perm_iff.mpr (hties r hr) l hl).symm
    · have hr : r ∈ inventory := List.mem_of_getElem? hi
      rw [List.getElem?_map, List.getElem?_map, hi]
      exact congrArg some (pluginRow_append_iff.mpr (hnews r hr helse))

end Merge

/-! ## A plugin whose id is a part of another's -/

def vadPlugin : PluginInventoryRecord where
  pluginId := "vad"
  targetClient := .genericMcp
  version := "1.0"
  dashboardStatus := .available
  summary := "Local plugin."

def codexFailed : ControlPlaneEvent where
  sequence := 0
  createdAt := ⟨0, some 0⟩
  clientId := "codex-1"
  taskId := some "vad-codex"
  kind := .deploymentEvent
  status := .failed
  actor := "codex"
  role := "implementer"
  summary := "vad-codex failed"
  eventId := .generated 0

theorem vadPlugin_valid : Model.Valid vadPlugin := ⟨by decide, by decide⟩

theorem codexFailed_refers : RefersElsewhere id codexFailed "vad" := by
  refine ⟨"vad-codex", by decide, rfl, by decide, fun i hi => ?_⟩
  have hfirst : ∀ i < 17, StandsAt "vad".toList "vad-codex failed".toList i → i = 0 := by
    unfold StandsAt
    decide
  have hlt : i < 17 := by
    by_contra hge
    have hlen := List.IsPrefix.length_le hi
    rw [List.length_drop] at hlen
    have hthree : (id "vad" : String).toList.length = 3 := by decide
    have hwhole : (id codexFailed.summary).toList.length = 16 := by decide
    omega
  refine ⟨0, ?_, Nat.zero_le i, ?_⟩
  · unfold StandsAt
    decide
  · rw [hfirst i hlt hi]
    decide

/-- The failure of `vad-codex` makes `vad` a failed plugin. -/
theorem part_of_an_id_fails : Model.Valid codexFailed ∧
    ¬ StatusIsolated id [⟨vadPlugin, vadPlugin_valid⟩] [] [codexFailed] := by
  refine ⟨⟨rfl, by decide⟩, ?_⟩
  rintro ⟨rows, rows', hrows, hrows', -, -, -, hframe⟩
  obtain ⟨-, -, rfl⟩ := merge_iff.mp hrows
  obtain ⟨-, -, rfl⟩ := merge_iff.mp hrows'
  have hrow := hframe 0 _ rfl (List.forall_mem_singleton.mpr codexFailed_refers)
  have hstatus := congrArg (Option.map fun row : PluginRow => row.status) hrow
  exact absurd hstatus (by decide)

end Vad
