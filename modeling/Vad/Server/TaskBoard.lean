/-
  The task board: every task is on it once, and where.

  The board is filled in four passes over one dictionary: the rows of tasks and of work items, each
  in place of what was there; then the leases, each laid over the card of its task or over a new
  one; then, on cards that name a lease, that lease; and last the cards go to their columns.

  1. **Cards** — every pass keeps the cards under the ids of their tasks (`CardsKeyed.foldl_addRow`,
     `CardsKeyed.foldl_addLease`), and we know what it puts under each id (`get_foldl_addRow`,
     `get_foldl_addLease`).

  2. **Partition** (`taskBoard_partition`) — so each task has one card.  The status of a work item's
     card is the name of a column, which no lease replaces.
-/
import Vad.Server.Dashboard
import Vad.Server.LeaseLifecycle

namespace Vad

open Keyed (Table)
open Atomic (Program)
open Atomic.Program (Returns run_bind run_map returns_bind returns_pure)

/-! ## Columns -/

/-- The name of a column stands for the column, whatever the fallback. -/
theorem boardStatus_value (column fallback : BoardColumn) :
    boardStatus (some column.value) fallback = column := by
  cases column <;> rfl

/-- The cards about the task in a column. -/
def countIn (columns : BoardColumn → List BoardCard) (column : BoardColumn) (taskId : String) : Nat :=
  (columns column).countP fun card => card.taskId = taskId

/-- The task is in exactly one column, and there once. -/
def OnBoardOnce (columns : BoardColumn → List BoardCard) (taskId : String) : Prop :=
  ∃ column, countIn columns column taskId = 1 ∧
    ∀ other, other ≠ column → countIn columns other taskId = 0

/-- The card of the task is in the column. -/
def InColumn (columns : BoardColumn → List BoardCard) (column : BoardColumn) (taskId : String) :
    Prop := ∃ card ∈ columns column, card.taskId = taskId

/-! ## Cards under their keys -/

/-- Every card is under the id of its task, and no id has two. -/
structure CardsKeyed (cards : Dict BoardCard) : Prop where
  keys : cards.KeysNodup
  task : ∀ e ∈ cards, e.2.taskId = e.1

theorem CardsKeyed.set {cards : Dict BoardCard} (h : CardsKeyed cards) {key : String}
    {card : BoardCard} (hkey : card.taskId = key) : CardsKeyed (Dict.set cards key card) where
  keys := Dict.keysNodup_set h.keys key card
  task e he := by
    obtain ⟨name, other⟩ := e
    rcases Dict.mem_set he with ⟨rfl, rfl⟩ | he
    · exact hkey
    · exact h.task _ he

/-- The card that is found is the one of the task. -/
theorem CardsKeyed.get {cards : Dict BoardCard} (h : CardsKeyed cards) {key : String}
    {card : BoardCard} (hget : Dict.get cards key = some card) : card.taskId = key :=
  h.task (key, card) ((Dict.mem_iff_get h.keys).mpr hget)

theorem CardsKeyed.addRow {cards : Dict BoardCard} (h : CardsKeyed cards) (row : DashboardRow) :
    CardsKeyed (addRow cards row) := by
  unfold Vad.addRow
  split
  · exact h
  · exact h.set rfl

theorem CardsKeyed.foldl_addRow {cards : Dict BoardCard} (h : CardsKeyed cards)
    (rows : List DashboardRow) : CardsKeyed (rows.foldl Vad.addRow cards) := by
  induction rows generalizing cards with
  | nil => exact h
  | cons row rest ih => exact ih (h.addRow row)

theorem CardsKeyed.addLease {cards : Dict BoardCard} (h : CardsKeyed cards)
    {lease : String × LeasePayload} (hlease : lease.2.taskId = lease.1) :
    CardsKeyed (addLease cards lease) := by
  refine h.set ?_
  show ((Dict.get cards lease.1).getD lease.2.card).taskId = lease.1
  cases hget : Dict.get cards lease.1 with
  | none => exact hlease
  | some card => exact h.get hget

theorem CardsKeyed.foldl_addLease {cards : Dict BoardCard} (h : CardsKeyed cards)
    {leases : Dict LeasePayload} (hleases : ∀ e ∈ leases, e.2.taskId = e.1) :
    CardsKeyed (leases.foldl Vad.addLease cards) := by
  induction leases generalizing cards with
  | nil => exact h
  | cons lease rest ih =>
    obtain ⟨hlease, hrest⟩ := List.forall_mem_cons.mp hleases
    exact ih (h.addLease hlease) hrest

/-- The last of the rows with the key. -/
def lastRow (rows : List DashboardRow) (key : String) : Option DashboardRow :=
  (rows.filter fun row => row.key = key).getLast?

/-- The rows leave under each id the card of its last row. -/
theorem get_foldl_addRow (rows : List DashboardRow) {key : String} (hkey : key ≠ "") :
    Dict.get (rows.foldl Vad.addRow []) key = (lastRow rows key).map DashboardRow.card := by
  induction rows using List.reverseRecOn with
  | nil => rfl
  | append_singleton rows row ih =>
    rw [List.foldl_append]
    show Dict.get (addRow (rows.foldl addRow []) row) key = _
    unfold lastRow addRow
    rw [List.filter_append]
    by_cases hsame : row.key = key
    · rw [if_neg (hsame ▸ hkey), hsame, Dict.get_set, if_pos rfl,
        List.filter_cons_of_pos (by simpa using hsame), List.filter_nil, List.getLast?_concat]
      rfl
    · rw [List.filter_cons_of_neg (by simpa using hsame), List.filter_nil, List.append_nil]
      split
      · exact ih
      · rw [Dict.get_set, if_neg hsame]
        exact ih

/-- The leases are laid over the cards of their tasks and leave the others alone. -/
theorem get_foldl_addLease {leases : Dict LeasePayload} (hkeys : leases.KeysNodup)
    (cards : Dict BoardCard) (key : String) :
    Dict.get (leases.foldl Vad.addLease cards) key =
      match Dict.get leases key with
      | none => Dict.get cards key
      | some lease => some (((Dict.get cards key).getD lease.card).withLease lease) := by
  induction leases generalizing cards with
  | nil => rfl
  | cons e rest ih =>
    obtain ⟨name, lease⟩ := e
    obtain ⟨hnotin, hrest⟩ := List.nodup_cons.mp hkeys
    rw [List.foldl_cons, ih hrest]
    by_cases hsame : name = key
    · subst hsame
      have hhead : Dict.get ((name, lease) :: rest) name = some lease := by simp [Dict.get]
      have hnone : Dict.get rest name = none := by
        cases hget : Dict.get rest name with
        | none => rfl
        | some other =>
          exact absurd (List.mem_map.mpr ⟨_, (Dict.mem_iff_get hrest).mpr hget, rfl⟩) hnotin
      rw [hhead, hnone]
      show Dict.get (Dict.set cards name _) name = _
      rw [Dict.get_set, if_pos rfl]
    · have hskip : Dict.get ((name, lease) :: rest) key = Dict.get rest key := by
        simp [Dict.get, hsame]
      have hother : Dict.get (addLease cards (name, lease)) key = Dict.get cards key := by
        unfold addLease
        rw [Dict.get_set, if_neg hsame]
      rw [hskip, hother]

/-! ## The cards of the board -/

section Cards

variable {leases : List LeasePayload} {rows : List DashboardRow}

/-- The leases by their tasks: for each task the last one. -/
abbrev leasesByTask (leases : List LeasePayload) : Dict LeasePayload :=
  Dict.ofValues LeasePayload.taskId leases

/-- The card of a task before the leases are looked up that cards name. -/
def cardOf (leases : List LeasePayload) (rows : List DashboardRow) (taskId : String) :
    Option BoardCard :=
  match Dict.get (leasesByTask leases) taskId with
  | none => (lastRow rows taskId).map DashboardRow.card
  | some lease =>
    some ((((lastRow rows taskId).map DashboardRow.card).getD lease.card).withLease lease)

theorem heldBy_taskId (leases : Dict LeasePayload) (card : BoardCard) :
    (heldBy leases card).taskId = card.taskId := by
  unfold heldBy
  split
  · rfl
  · split
    · rfl
    · split
      · rfl
      · rfl

/-- The cards are kept under the ids of their tasks. -/
theorem cardsKeyed_board (leases : List LeasePayload) (rows : List DashboardRow) :
    CardsKeyed ((leasesByTask leases).foldl addLease (rows.foldl addRow [])) := by
  have hempty : CardsKeyed [] := ⟨List.nodup_nil, fun e he => absurd he List.not_mem_nil⟩
  refine (hempty.foldl_addRow rows).foldl_addLease fun e he => ?_
  obtain ⟨name, lease⟩ := e
  exact (Dict.of_get_ofValues ((Dict.mem_iff_get (Dict.keysNodup_ofValues _ _)).mp he)).2

theorem boardCards_eq : boardCards leases rows =
    ((leasesByTask leases).foldl addLease (rows.foldl addRow [])).map
      fun e => heldBy (leasesByTask leases) e.2 := rfl

/-- No task has two cards. -/
theorem boardCards_nodup : ((boardCards leases rows).map BoardCard.taskId).Nodup := by
  have h := cardsKeyed_board leases rows
  have hkeys : (boardCards leases rows).map BoardCard.taskId =
      ((leasesByTask leases).foldl addLease (rows.foldl addRow [])).map Prod.fst := by
    rw [boardCards_eq, List.map_map]
    refine List.map_congr_left fun e he => ?_
    show (heldBy _ e.2).taskId = e.1
    rw [heldBy_taskId]
    exact h.task e he
  rw [hkeys]
  exact h.keys

/-- The board has the card of every task that has one. -/
theorem mem_boardCards {taskId : String} (hne : taskId ≠ "") {card : BoardCard}
    (h : cardOf leases rows taskId = some card) :
    heldBy (leasesByTask leases) card ∈ boardCards leases rows ∧ card.taskId = taskId := by
  have hkeyed := cardsKeyed_board leases rows
  have hget : Dict.get ((leasesByTask leases).foldl addLease (rows.foldl addRow [])) taskId =
      some card := by
    rw [get_foldl_addLease (Dict.keysNodup_ofValues _ _), get_foldl_addRow rows hne]
    exact h
  refine ⟨?_, hkeyed.get hget⟩
  rw [boardCards_eq]
  exact List.mem_map.mpr ⟨(taskId, card), (Dict.mem_iff_get hkeyed.keys).mpr hget, rfl⟩

/-- A task has a card if it has a row or a lease. -/
theorem exists_cardOf {taskId : String} (h : (∃ row ∈ rows, row.key = taskId) ∨
    ∃ lease ∈ leases, lease.taskId = taskId) : ∃ card, cardOf leases rows taskId = some card := by
  unfold cardOf
  cases hget : Dict.get (leasesByTask leases) taskId with
  | some lease => exact ⟨_, rfl⟩
  | none =>
    rcases h with ⟨row, hrow, hkey⟩ | ⟨lease, hlease, rfl⟩
    · have hin : row ∈ rows.filter fun row => row.key = taskId :=
        List.mem_filter.mpr ⟨hrow, by simpa using hkey⟩
      cases hlast : lastRow rows taskId with
      | some last => exact ⟨last.card, rfl⟩
      | none =>
        rw [List.getLast?_eq_none_iff.mp hlast] at hin
        exact absurd hin List.not_mem_nil
    · have hfound := @Dict.isSome_get_ofValues _ LeasePayload.taskId _ _ hlease
      rw [hget] at hfound
      cases hfound

/-- In a list with distinct keys, the entries with the key of one of them are that one. -/
theorem countP_key {α : Type} {key : α → String} {l : List α} (h : (l.map key).Nodup) {a : α}
    (ha : a ∈ l) (p : α → Bool) :
    (l.filter p).countP (fun b => key b = key a) = if p a then 1 else 0 := by
  induction l with
  | nil => exact absurd ha List.not_mem_nil
  | cons b rest ih =>
    obtain ⟨hnotin, hrest⟩ := List.nodup_cons.mp h
    have hother (hno : key b ∉ rest.map key) :
        (rest.filter p).countP (fun c => key c = key b) = 0 := by
      rw [List.countP_eq_zero]
      intro c hc hkey
      have hsame : key c = key b := by simpa using hkey
      exact hno (List.mem_map.mpr ⟨c, (List.mem_filter.mp hc).1, hsame⟩)
    rcases List.mem_cons.mp ha with rfl | ha
    · cases hp : p a with
      | true => rw [List.filter_cons_of_pos hp, List.countP_cons, hother hnotin]; simp
      | false => rw [List.filter_cons_of_neg (by simp [hp]), hother hnotin]; simp
    · have hne : ¬ key b = key a := fun heq =>
        hnotin (heq ▸ List.mem_map.mpr ⟨a, ha, rfl⟩)
      cases hp : p b with
      | true =>
        rw [List.filter_cons_of_pos hp, List.countP_cons, ih hrest ha]
        simp [hne]
      | false => rw [List.filter_cons_of_neg (by simp [hp]), ih hrest ha]

theorem taskBoardColumns_perm (column : BoardColumn) : (taskBoardColumns leases rows column).Perm
    ((boardCards leases rows).filter fun card => boardStatus card.status = column) :=
  List.perm_insertionSort _ _

/-- A card is in its column and in no other one. -/
theorem countIn_taskBoardColumns {card : BoardCard} (h : card ∈ boardCards leases rows)
    (column : BoardColumn) : countIn (taskBoardColumns leases rows) column card.taskId =
      if boardStatus card.status = column then 1 else 0 := by
  unfold countIn
  rw [(taskBoardColumns_perm column).countP_eq, countP_key boardCards_nodup h]
  simp

/-- A task that has a card is on the board once. -/
theorem onBoardOnce_of_mem {card : BoardCard} (h : card ∈ boardCards leases rows) :
    OnBoardOnce (taskBoardColumns leases rows) card.taskId := by
  refine ⟨boardStatus card.status, ?_, fun other hne => ?_⟩
  · rw [countIn_taskBoardColumns h, if_pos rfl]
  · rw [countIn_taskBoardColumns h, if_neg (Ne.symm hne)]

/-- The task's card is in the column of its status. -/
theorem inColumn_iff {card : BoardCard} (h : card ∈ boardCards leases rows) (column : BoardColumn) :
    InColumn (taskBoardColumns leases rows) column card.taskId ↔
      boardStatus card.status = column := by
  have hcount := countIn_taskBoardColumns h column
  have hexists : InColumn (taskBoardColumns leases rows) column card.taskId ↔
      0 < countIn (taskBoardColumns leases rows) column card.taskId := by
    unfold InColumn countIn
    rw [List.countP_pos_iff]
    simp
  rw [hexists, hcount]
  split <;> simp_all

/-- The lease that a card names does not move a card whose status names a column. -/
theorem status_heldBy {leases : Dict LeasePayload} {card : BoardCard} {column : BoardColumn}
    (h : card.status = some column.value) :
    (heldBy leases card).status = some column.value := by
  have hwith (lease : LeasePayload) : (card.withLease lease).status = some column.value := by
    show some (boardStatus card.status lease.boardStatus).value = _
    rw [h, boardStatus_value]
  unfold heldBy
  split
  · exact h
  · split
    · exact h
    · split
      · exact h
      · exact hwith _

end Cards

/-! ## What the dashboard is made of -/

/-- The leases listed. -/
def Store.leasePayloads (s : Store) : List LeasePayload :=
  (s.taskLeases.select (leaseMatches none none) leaseOrder).map fun r => leasePayload r.payload

/-- The work items listed. -/
def Store.workItemRows (s : Store) : List DashboardRow :=
  (s.workItems.select (workItemMatches none none none) workItemOrder).map fun r =>
    workItemBoardRow r.payload

/-- The events in the order in which they are listed. -/
def Store.listedEvents (s : Store) : List ControlPlaneEvent :=
  (s.controlPlaneEvents.table.select (fun _ => true) eventOrder).map EventRow.payload

section Response

variable {s s' : Store} {payload : DashboardPayload} {d : Dashboard}

/-- Listing the evidence of runs leaves the store alone. -/
theorem unchanged_of_listRunEvidence {computeHash : RunEvidence → String}
    {runs : List (Checked RunEvidence × String)}
    (h : Returns (listRunEvidence computeHash) s runs s') : s' = s := by
  obtain ⟨ids, t, hids, hloads⟩ := returns_bind.mp h
  obtain ⟨-, rfl⟩ := returns_query.mp (returns_storeCall.mp hids)
  refine Program.returns_forEach (J := fun _ _ u => u = t) ?_ rfl hloads
  intro ran id rest as a u u' _ hu hload
  exact (returns_query.mp (returns_storeCall.mp hload)).2.trans hu

theorem leases_of_listed {leases : List LeasePayload} (h : Returns taskLeasesPayload s leases s') :
    leases = s.leasePayloads ∧ s' = s := by
  obtain ⟨listed, t, hlisted, hleases⟩ := returns_bind.mp h
  obtain ⟨rfl, rfl⟩ := returns_pure.mp hleases
  obtain ⟨hfetched, rfl⟩ := returns_query.mp (returns_storeCall.mp hlisted)
  have hvals := vals_of_fetchedAll (fun _ => rfl) hfetched
  refine ⟨?_, rfl⟩
  calc listed.map (fun l => leasePayload l.1)
      = (listed.map Subtype.val).map leasePayload := by rw [List.map_map]; rfl
    _ = s'.leasePayloads := by
      rw [hvals, List.map_map]
      rfl

/-- Whatever is listed passes the checks of its model. -/
theorem rows_of_listed {rows : List DashboardRow} (h : Returns workItemBoardRows s rows s') :
    rows = s.workItemRows ∧ (∀ r ∈ s.workItems.rows, Model.Valid r.payload) ∧ s' = s := by
  obtain ⟨listed, t, hlisted, hrows⟩ := returns_bind.mp h
  obtain ⟨rfl, rfl⟩ := returns_pure.mp hrows
  obtain ⟨hfetched, rfl⟩ := returns_query.mp (returns_storeCall.mp hlisted)
  have hvals := vals_of_fetchedAll (fun _ => rfl) hfetched
  refine ⟨?_, fun r hr => ?_, rfl⟩
  · calc listed.map (fun item => workItemBoardRow item.1)
        = (listed.map Subtype.val).map workItemBoardRow := by rw [List.map_map]; rfl
      _ = s'.workItemRows := by
        rw [hvals, List.map_map]
        rfl
  · have hselected : r ∈ s'.workItems.select (workItemMatches none none none) workItemOrder :=
      Table.mem_select.mpr ⟨hr, rfl⟩
    have hmem : r.payload ∈ listed.map Subtype.val := by
      rw [hvals]
      exact List.mem_map.mpr ⟨r, hselected, rfl⟩
    obtain ⟨item, -, heq⟩ := List.mem_map.mp hmem
    rw [← heq]
    exact item.2

/-- What a decorated payload has on its board. -/
theorem board_of_decorated (h : Returns (decorateDashboardPayload payload) s d s') :
    d.payload = payload ∧
      d.taskBoardColumns = taskBoardColumns s.leasePayloads (payload.taskRows ++ s.workItemRows) ∧
      (∀ r ∈ s.workItems.rows, Model.Valid r.payload) ∧ s' = s := by
  obtain ⟨leases, s₁, hleases, hrest⟩ := returns_bind.mp h
  obtain ⟨-, rfl⟩ := leases_of_listed hleases
  obtain ⟨rows, s₂, hrows, hrest'⟩ := returns_bind.mp hrest
  obtain ⟨rfl, hvalid, rfl⟩ := rows_of_listed hrows
  obtain ⟨columnLeases, s₃, hcolumns, hproofs⟩ := returns_bind.mp hrest'
  obtain ⟨rfl, rfl⟩ := leases_of_listed hcolumns
  obtain ⟨records, s₄, hrecords, hproofs'⟩ := returns_bind.mp hproofs
  obtain ⟨-, rfl⟩ := returns_query.mp (returns_storeCall.mp hrecords)
  obtain ⟨proofs, s₅, hpanel, hreturned⟩ := returns_bind.mp hproofs'
  obtain ⟨-, rfl⟩ := returns_done.mp hpanel
  obtain ⟨rfl, rfl⟩ := returns_pure.mp hreturned
  exact ⟨rfl, rfl, hvalid, rfl⟩

end Response

/-! ## Every task once -/

/-- A row that has a task id is the row of that task. -/
theorem key_of_taskId {row : DashboardRow} {taskId : String} (h : row.taskId = some taskId)
    (hne : taskId ≠ "") : row.key = taskId := by
  unfold DashboardRow.key textOr
  rw [h]
  show orDefault (if (if taskId = "" then "" else taskId) = "" then row.activityId
    else some taskId) "" = taskId
  rw [if_neg hne, if_neg hne]
  show (if taskId = "" then "" else taskId) = taskId
  rw [if_neg hne]

theorem workItemId_ne {item : WorkItem} (h : Model.Valid item) : item.workItemId ≠ "" := by
  have hid := failedFields_eq_nil.mp h.2 ("work_item_id", safeIdentifier 1 160 item.workItemId)
    (by simp [Model.checks])
  intro hempty
  rw [hempty] at hid
  revert hid
  decide

/-- The row of a work item is the last one of its id. -/
theorem lastRow_workItem {s : Store} (hids : ∀ r ∈ s.workItems.rows,
      r.payload.workItemId = r.workItemId) (hvalid : ∀ r ∈ s.workItems.rows, Model.Valid r.payload)
    (rows : List DashboardRow) {r : WorkItemRow} (hr : r ∈ s.workItems.rows) :
    lastRow (rows ++ s.workItemRows) r.payload.workItemId = some (workItemBoardRow r.payload) := by
  have hkey : ∀ x ∈ s.workItems.rows, (workItemBoardRow x.payload).key = x.workItemId :=
    fun x hx => (key_of_taskId rfl (workItemId_ne (hvalid x hx))).trans (hids x hx)
  have hone : (s.workItems.select (workItemMatches none none none) workItemOrder).filter
      (fun x => x.workItemId = r.workItemId) = [r] := by
    refine List.perm_singleton.mp (List.Perm.symm ?_)
    have hnodup := s.workItems.select_keys_nodup (workItemMatches none none none) workItemOrder
    have hmem : r ∈ s.workItems.select (workItemMatches none none none) workItemOrder :=
      Table.mem_select.mpr ⟨hr, rfl⟩
    refine (List.perm_ext_iff_of_nodup (List.nodup_singleton r)
      (hnodup.of_map _ |>.filter _)).mpr fun x => ?_
    rw [List.mem_singleton, List.mem_filter, decide_eq_true_eq]
    constructor
    · rintro rfl
      exact ⟨hmem, rfl⟩
    · rintro ⟨hx, hsame⟩
      exact List.inj_on_of_nodup_map hnodup hx hmem hsame
  have hrows : s.workItemRows.filter (fun row => row.key = r.payload.workItemId) =
      [workItemBoardRow r.payload] := by
    unfold Store.workItemRows
    rw [List.filter_map]
    have hcongr : (s.workItems.select (workItemMatches none none none) workItemOrder).filter
        ((fun row : DashboardRow => decide (row.key = r.payload.workItemId)) ∘
          fun x => workItemBoardRow x.payload) =
        (s.workItems.select (workItemMatches none none none) workItemOrder).filter
          (fun x => x.workItemId = r.workItemId) := by
      refine List.filter_congr fun x hx => ?_
      show decide ((workItemBoardRow x.payload).key = r.payload.workItemId) = _
      rw [hkey x (Table.mem_select.mp hx).1, hids r hr]
    rw [hcongr, hone]
    rfl
  unfold lastRow
  rw [List.filter_append, hrows]
  exact List.getLast?_concat

/-- On the board of every payload and store that has its work items under their ids, each task that
    occurs in a row, a work item or a lease is in exactly one column and there once, and the card
    of every work item is in the column of its status. -/
theorem taskBoard_partition (payload : DashboardPayload) (s : Store)
    (hids : ∀ r ∈ s.workItems.rows, r.payload.workItemId = r.workItemId) {d : Dashboard} {s' : Store}
    (h : Returns (decorateDashboardPayload payload) s d s') :
    (∀ taskId, taskId ≠ "" → (∃ row ∈ payload.taskRows, row.key = taskId) ∨
      (∃ r ∈ s.workItems.rows, r.payload.workItemId = taskId) ∨
      (∃ r ∈ s.taskLeases.rows, r.payload.taskId = taskId) → OnBoardOnce d.taskBoardColumns taskId) ∧
    ∀ r ∈ s.workItems.rows, InColumn d.taskBoardColumns (workItemBoardStatus r.payload.status)
      r.payload.workItemId := by
  obtain ⟨-, hcolumns, hvalid, -⟩ := board_of_decorated h
  rw [hcolumns]
  have hselected {r : WorkItemRow} (hr : r ∈ s.workItems.rows) :
      workItemBoardRow r.payload ∈ s.workItemRows :=
    List.mem_map.mpr ⟨r, Table.mem_select.mpr ⟨hr, rfl⟩, rfl⟩
  refine ⟨fun taskId hne hoccurs => ?_, fun r hr => ?_⟩
  · have hcard : ∃ card, cardOf s.leasePayloads (payload.taskRows ++ s.workItemRows) taskId =
        some card := by
      refine exists_cardOf ?_
      rcases hoccurs with ⟨row, hrow, hkey⟩ | ⟨r, hr, hid⟩ | ⟨r, hr, hid⟩
      · exact Or.inl ⟨row, List.mem_append_left _ hrow, hkey⟩
      · refine Or.inl ⟨workItemBoardRow r.payload, List.mem_append_right _ (hselected hr), ?_⟩
        exact key_of_taskId (congrArg some hid) hne
      · refine Or.inr ⟨leasePayload r.payload, ?_, hid⟩
        exact List.mem_map.mpr ⟨r, Table.mem_select.mpr ⟨hr, rfl⟩, rfl⟩
    obtain ⟨card, hcard⟩ := hcard
    obtain ⟨hmem, htask⟩ := mem_boardCards hne hcard
    rw [← htask, ← heldBy_taskId (leasesByTask s.leasePayloads) card]
    exact onBoardOnce_of_mem hmem
  · have hlast := lastRow_workItem hids hvalid payload.taskRows hr
    obtain ⟨card, hcard⟩ : ∃ card, cardOf s.leasePayloads (payload.taskRows ++ s.workItemRows)
        r.payload.workItemId = some card :=
      exists_cardOf (Or.inl ⟨workItemBoardRow r.payload, List.mem_append_right _ (hselected hr),
        key_of_taskId rfl (workItemId_ne (hvalid r hr))⟩)
    have hstatus : card.status = some (workItemBoardStatus r.payload.status).value := by
      unfold cardOf at hcard
      rw [hlast] at hcard
      split at hcard
      · obtain rfl := Option.some.inj hcard
        rfl
      · obtain rfl := Option.some.inj hcard
        exact congrArg some (congrArg BoardColumn.value (boardStatus_value _ _))
    obtain ⟨hmem, htask⟩ := mem_boardCards (workItemId_ne (hvalid r hr)) hcard
    have hshown := (inColumn_iff hmem (workItemBoardStatus r.payload.status)).mpr
      (by rw [status_heldBy hstatus, boardStatus_value])
    rw [heldBy_taskId, htask] at hshown
    exact hshown

/-- A client with a lease and a work item, and a row of its own for each of them. -/
def boardStore : Store := afterRequests sampleOutside Store.empty [
  (.register ⟨sampleManifest, sampleManifest_valid⟩, epoch),
  (.createWorkItem ⟨sampleItem, sampleItem_valid⟩ sampleCaller none, epoch),
  (.acquire sampleAcquire, epoch)]

/-- Rows that say that both have failed. -/
def boardPayload : DashboardPayload where
  runs := []
  taskBoard := [
    { taskId := some "w1"
      status := some "failed" },
    { taskId := some "t1"
      status := some "failed" }]
  activity := []
  eventTimeline := []

theorem taskBoard_partition_sample : ∃ d s', Returns (decorateDashboardPayload boardPayload)
    boardStore d s' ∧ OnBoardOnce d.taskBoardColumns "t1" ∧
      InColumn d.taskBoardColumns .active "w1" := by
  have hids : ∀ r ∈ boardStore.workItems.rows, r.payload.workItemId = r.workItemId := by
    decide
  have hitem : (boardStore.workItems.rows.map fun r =>
      (r.payload.workItemId, workItemBoardStatus r.payload.status)) = [("w1", .active)] := by
    decide
  have hok : ((decorateDashboardPayload boardPayload).run boardStore).1.toOption.isSome = true := by
    decide
  generalize hrun : (decorateDashboardPayload boardPayload).run boardStore = out at hok
  obtain ⟨result, s'⟩ := out
  cases result with
  | error e => cases hok
  | ok d =>
    obtain ⟨honce, hitems⟩ := taskBoard_partition boardPayload boardStore hids hrun
    refine ⟨d, s', hrun, honce "t1" (by decide) (Or.inl ⟨_, List.mem_cons_of_mem _
      List.mem_cons_self, rfl⟩), ?_⟩
    obtain ⟨r, hr, heq⟩ := List.mem_map.mp (hitem ▸ List.mem_singleton_self _ :
      ("w1", BoardColumn.active) ∈ boardStore.workItems.rows.map fun r =>
        (r.payload.workItemId, workItemBoardStatus r.payload.status))
    obtain ⟨hid, hcolumn⟩ := Prod.mk.inj heq
    rw [← hid, ← hcolumn]
    exact hitems r hr

end Vad
