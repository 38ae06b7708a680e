/-
  Depth-first search for a cycle.

  `visit` follows the edges of a node before it counts the node as visited, and stops at a node that
  it is still visiting.  The list of visited nodes, newest first, is then an order in which every
  node stands in front of what it points to (`Ordered`), so that a search that ends without a cycle
  gives:

  1. a lowest node of every kind there is a node of (`exists_lowest`): one that points to none of
     that kind;
  2. no node that points to itself (`not_mem_next`), and none that reaches itself
     (`search_acyclic`).

  The other way round, the nodes that a visit is still visiting all reach the node visited
  (`cycle_of_search`), they are distinct, so that a stack with room for one more than all nodes is
  never full (`search_not_tooDeep`), and the edges of no node are followed twice, whatever the search
  ends with (`logged_nodup`).
-/
import Mathlib.Data.List.Basic
import Mathlib.Data.List.Perm.Subperm
import Mathlib.Logic.Relation
import Mathlib.Tactic.Common

namespace DepthFirst

variable {α : Type} [DecidableEq α] {next : α → List α}

/-- What ends a search: a cycle through the node, or a stack deeper than the limit. -/
inductive Failure (α : Type) where
  | cycle (node : α)
  | tooDeep
deriving DecidableEq, Repr

/-- Visit the node, `depth` calls above the limit of the stack; the answer is what is visited then,
    the newest first. -/
def visit (next : α → List α) : Nat → List α → List α → α → Except (Failure α) (List α)
  | 0, _, _, _ => .error .tooDeep
  | depth + 1, visiting, visited, node =>
    if node ∈ visiting then .error (.cycle node)
    else if node ∈ visited then .ok visited
    else
      match (next node).foldlM (visit next depth (node :: visiting)) visited with
      | .ok visited => .ok (node :: visited)
      | .error e => .error e

/-- Visit all nodes, one after another. -/
def search (next : α → List α) (depth : Nat) (nodes : List α) : Except (Failure α) (List α) :=
  nodes.foldlM (visit next depth []) []

/-- Every node stands in front of the nodes it points to. -/
def Ordered (next : α → List α) : List α → Prop
  | [] => True
  | node :: rest => (∀ x ∈ next node, x ∈ rest) ∧ Ordered next rest

/-- What a visit of the nodes adds: the list stays ordered, and the nodes are in it. -/
def Adds (next : α → List α) (nodes visited visited' : List α) : Prop :=
  Ordered next visited → Ordered next visited' ∧ visited <:+ visited' ∧ ∀ x ∈ nodes, x ∈ visited'

omit [DecidableEq α] in
theorem adds_foldlM {f : List α → α → Except (Failure α) (List α)}
    (hf : ∀ {visited node visited'}, f visited node = .ok visited' →
      Adds next [node] visited visited') :
    ∀ {nodes visited visited' : List α}, nodes.foldlM f visited = .ok visited' →
      Adds next nodes visited visited' := by
  intro nodes
  induction nodes with
  | nil =>
    intro visited visited' h hordered
    cases h
    exact ⟨hordered, List.suffix_refl _, fun x hx => absurd hx List.not_mem_nil⟩
  | cons node rest ih =>
    intro visited visited' h hordered
    rw [List.foldlM_cons] at h
    cases hfirst : f visited node with
    | error e =>
      rw [hfirst] at h
      cases h
    | ok between =>
      rw [hfirst] at h
      obtain ⟨hordered₁, hsuffix₁, hin⟩ := hf hfirst hordered
      obtain ⟨hordered₂, hsuffix₂, hrest⟩ := ih h hordered₁
      refine ⟨hordered₂, hsuffix₁.trans hsuffix₂, fun x hx => ?_⟩
      rcases List.mem_cons.mp hx with rfl | hx
      · exact hsuffix₂.mem (hin x List.mem_cons_self)
      · exact hrest x hx

theorem adds_visit : ∀ {depth : Nat} {visiting visited visited' : List α} {node : α},
    visit next depth visiting visited node = .ok visited' → Adds next [node] visited visited' := by
  intro depth
  induction depth with
  | zero =>
    intro visiting visited visited' node h
    cases h
  | succ depth ih =>
    intro visiting visited visited' node h hordered
    unfold visit at h
    split at h
    · cases h
    split at h
    · rename_i hvisited
      cases h
      exact ⟨hordered, List.suffix_refl _, fun x hx => (List.mem_singleton.mp hx) ▸ hvisited⟩
    · split at h
      · rename_i between hloop
        cases h
        obtain ⟨hordered', hsuffix, hnext⟩ := adds_foldlM ih hloop hordered
        refine ⟨⟨hnext, hordered'⟩, hsuffix.trans (List.suffix_cons _ _), fun x hx => ?_⟩
        exact (List.mem_singleton.mp hx) ▸ List.mem_cons_self
      · cases h

/-- A search that ends without a cycle has put all nodes in order. -/
theorem search_ordered {depth : Nat} {nodes order : List α}
    (h : search next depth nodes = .ok order) :
    Ordered next order ∧ ∀ x ∈ nodes, x ∈ order := by
  obtain ⟨hordered, -, hall⟩ := adds_foldlM adds_visit h trivial
  exact ⟨hordered, hall⟩

/-! ## What an order gives -/

omit [DecidableEq α] in
/-- Of every kind of which there is a node, there is one that points to none of that kind. -/
theorem exists_lowest {order : List α} (h : Ordered next order) {kind : α → Prop}
    (hsome : ∃ x ∈ order, kind x) : ∃ x ∈ order, kind x ∧ ∀ y ∈ next x, ¬ kind y := by
  induction order with
  | nil =>
    obtain ⟨x, hx, -⟩ := hsome
    exact absurd hx List.not_mem_nil
  | cons node rest ih =>
    by_cases hrest : ∃ x ∈ rest, kind x
    · obtain ⟨x, hx, hkind, hnone⟩ := ih h.2 hrest
      exact ⟨x, List.mem_cons_of_mem node hx, hkind, hnone⟩
    · obtain ⟨x, hx, hkind⟩ := hsome
      rcases List.mem_cons.mp hx with rfl | hx
      · exact ⟨x, List.mem_cons_self, hkind, fun y hy hy' => hrest ⟨y, h.1 y hy, hy'⟩⟩
      · exact absurd ⟨x, hx, hkind⟩ hrest

omit [DecidableEq α] in
/-- No node of an order points to itself. -/
theorem not_mem_next {order : List α} (h : Ordered next order) {x : α} (hx : x ∈ order) :
    x ∉ next x := by
  obtain ⟨y, -, rfl, hnone⟩ := @exists_lowest _ _ _ h (· = x) ⟨x, hx, rfl⟩
  exact fun hself => hnone y hself rfl

/-- The one node points to the other. -/
def Edge (next : α → List α) (a b : α) : Prop := b ∈ next a

omit [DecidableEq α] in
/-- No node of an order reaches itself. -/
theorem not_reaches {order : List α} (h : Ordered next order) {x : α} (hx : x ∈ order) :
    ¬ Relation.TransGen (Edge next) x x := by
  intro hcycle
  obtain ⟨y, -, hy, hnone⟩ := @exists_lowest _ _ _ h (fun x => Relation.TransGen (Edge next) x x)
    ⟨x, hx, hcycle⟩
  -- what comes next on a cycle is on the cycle
  obtain ⟨z, hyz, hzy⟩ := Relation.TransGen.head'_iff.mp hy
  exact hnone z hyz (Relation.TransGen.tail' hzy hyz)

/-- A search that ends without a cycle has found that there is none. -/
theorem search_acyclic {depth : Nat} {nodes order : List α}
    (h : search next depth nodes = .ok order) {x : α} (hx : x ∈ nodes) :
    ¬ Relation.TransGen (Edge next) x x := by
  obtain ⟨hordered, hall⟩ := search_ordered h
  exact not_reaches hordered (hall x hx)

/-! ## What a cycle is found from -/

omit [DecidableEq α] in
/-- A loop fails where one of its turns does. -/
theorem foldlM_error {ε β : Type} {f : β → α → Except ε β} {e : ε} {nodes : List α} {b : β}
    (h : nodes.foldlM f b = .error e) : ∃ b', ∃ node ∈ nodes, f b' node = .error e := by
  induction nodes generalizing b with
  | nil => cases h
  | cons node rest ih =>
    rw [List.foldlM_cons] at h
    cases hfirst : f b node with
    | error e' =>
      rw [hfirst] at h
      obtain rfl : e' = e := Except.error.inj h
      exact ⟨b, node, List.mem_cons_self .., hfirst⟩
    | ok b' =>
      rw [hfirst] at h
      obtain ⟨b'', node', hin, herror⟩ := ih h
      exact ⟨b'', node', List.mem_cons_of_mem node hin, herror⟩

/-- How a visit fails. -/
theorem visit_error {depth : Nat} {visiting visited : List α} {node : α} {e : Failure α}
    (h : visit next (depth + 1) visiting visited node = .error e) :
    (node ∈ visiting ∧ e = .cycle node) ∨
      (node ∉ visiting ∧ ∃ visited', ∃ x ∈ next node,
        visit next depth (node :: visiting) visited' x = .error e) := by
  unfold visit at h
  split at h
  · rename_i hin
    exact Or.inl ⟨hin, (Except.error.inj h).symm⟩
  · rename_i hnot
    split at h
    · cases h
    · split at h
      · cases h
      · rename_i hloop
        obtain rfl := Except.error.inj h
        obtain ⟨visited', x, hx, herror⟩ := foldlM_error hloop
        exact Or.inr ⟨hnot, visited', x, hx, herror⟩

/-- Where all that is being visited reaches the node, a cycle that is found is one. -/
theorem cycle_of_visit {depth : Nat} {visiting visited : List α} {node x : α}
    (hreach : ∀ v ∈ visiting, Relation.TransGen (Edge next) v node)
    (h : visit next depth visiting visited node = .error (.cycle x)) :
    Relation.TransGen (Edge next) x x := by
  induction depth generalizing visiting visited node with
  | zero => cases h
  | succ depth ih =>
    rcases visit_error h with ⟨hin, hcycle⟩ | ⟨-, visited', y, hy, herror⟩
    · obtain rfl := Failure.cycle.inj hcycle
      exact hreach x hin
    · refine ih (fun v hv => ?_) herror
      rcases List.mem_cons.mp hv with rfl | hv
      · exact Relation.TransGen.single hy
      · exact Relation.TransGen.tail (hreach v hv) hy

/-- A search that ends with a cycle has found one. -/
theorem cycle_of_search {depth : Nat} {nodes : List α} {x : α}
    (h : search next depth nodes = .error (.cycle x)) : Relation.TransGen (Edge next) x x := by
  obtain ⟨visited, node, -, herror⟩ := foldlM_error h
  exact cycle_of_visit (fun v hv => absurd hv List.not_mem_nil) herror

/-! ## The depth of the stack -/

/-- The nodes being visited are distinct, so that the stack is deep enough for all of them. -/
theorem visit_not_tooDeep {nodes : List α} (hclosed : ∀ x ∈ nodes, ∀ y ∈ next x, y ∈ nodes)
    {depth : Nat} {visiting visited : List α} {node : α} (hnodup : visiting.Nodup)
    (hsub : ∀ v ∈ visiting, v ∈ nodes) (hnode : node ∈ nodes)
    (hdepth : nodes.length < depth + visiting.length) :
    visit next depth visiting visited node ≠ .error .tooDeep := by
  induction depth generalizing visiting visited node with
  | zero =>
    have hle : visiting.length ≤ nodes.length := (List.subperm_of_subset hnodup hsub).length_le
    omega
  | succ depth ih =>
    intro h
    rcases visit_error h with ⟨-, hcycle⟩ | ⟨hnot, visited', y, hy, herror⟩
    · cases hcycle
    · refine ih (List.nodup_cons.mpr ⟨hnot, hnodup⟩) (List.forall_mem_cons.mpr ⟨hnode, hsub⟩)
        (hclosed node hnode y hy) ?_ herror
      rw [List.length_cons]
      omega

/-- A stack with room for one call more than there are nodes is never full. -/
theorem search_not_tooDeep {nodes : List α} (hclosed : ∀ x ∈ nodes, ∀ y ∈ next x, y ∈ nodes)
    {depth : Nat} (hdepth : nodes.length < depth) :
    search next depth nodes ≠ .error .tooDeep := by
  intro h
  obtain ⟨visited, node, hnode, herror⟩ := foldlM_error h
  exact @visit_not_tooDeep _ _ next nodes hclosed depth [] visited node List.nodup_nil
    (fun v hv => nomatch hv) hnode hdepth herror

/-! ## The edges that are followed -/

/-- A loop whose turns write a log, which is kept when one of them fails. -/
def foldLogged (f : List α → List α → α → List α × Except (Failure α) (List α)) :
    List α → List α → List α → List α × Except (Failure α) (List α)
  | [], log, visited => (log, .ok visited)
  | node :: rest, log, visited =>
    match f log visited node with
    | (log, .ok visited) => foldLogged f rest log visited
    | (log, .error e) => (log, .error e)

/-- `visit`, with a log of the nodes whose edges it followed, the newest first. -/
def visitLogged (next : α → List α) : Nat → List α → List α → List α → α →
    List α × Except (Failure α) (List α)
  | 0, _, log, _, _ => (log, .error .tooDeep)
  | depth + 1, visiting, log, visited, node =>
    if node ∈ visiting then (log, .error (.cycle node))
    else if node ∈ visited then (log, .ok visited)
    else
      match foldLogged (visitLogged next depth (node :: visiting)) (next node) (node :: log)
          visited with
      | (log, .ok visited) => (log, .ok (node :: visited))
      | (log, .error e) => (log, .error e)

/-- `search`, with the log. -/
def searchLogged (next : α → List α) (depth : Nat) (nodes : List α) :
    List α × Except (Failure α) (List α) :=
  foldLogged (visitLogged next depth []) nodes [] []

omit [DecidableEq α] in
theorem foldLogged_result {f : List α → List α → α → List α × Except (Failure α) (List α)}
    {g : List α → α → Except (Failure α) (List α)}
    (hf : ∀ log visited node, (f log visited node).2 = g visited node)
    (nodes log visited : List α) :
    (foldLogged f nodes log visited).2 = nodes.foldlM g visited := by
  induction nodes generalizing log visited with
  | nil => rfl
  | cons node rest ih =>
    unfold foldLogged
    rw [List.foldlM_cons, ← hf log visited node]
    rcases f log visited node with ⟨log', e | visited'⟩
    · rfl
    · exact ih log' visited'

/-- The log changes nothing. -/
theorem visitLogged_result (depth : Nat) (visiting log visited : List α) (node : α) :
    (visitLogged next depth visiting log visited node).2 =
      visit next depth visiting visited node := by
  induction depth generalizing visiting log visited node with
  | zero => rfl
  | succ depth ih =>
    unfold visitLogged visit
    split
    · rfl
    · split
      · rfl
      · rw [← foldLogged_result (ih (node :: visiting)) (next node) (node :: log) visited]
        rcases foldLogged (visitLogged next depth (node :: visiting)) (next node) (node :: log)
          visited with ⟨log', e | visited'⟩
        · rfl
        · rfl

theorem searchLogged_result (depth : Nat) (nodes : List α) :
    (searchLogged next depth nodes).2 = search next depth nodes :=
  foldLogged_result (visitLogged_result depth []) nodes [] []

/-- What is in the log is being visited or visited, and stands there once. -/
def LogOk (visiting log visited : List α) : Prop :=
  log.Nodup ∧ ∀ x ∈ log, x ∈ visiting ∨ x ∈ visited

/-- The log after a turn: as it should be, or at least without repetitions if the turn failed. -/
def StaysOk (visiting : List α) (result : List α × Except (Failure α) (List α)) : Prop :=
  result.1.Nodup ∧ ∀ visited, result.2 = .ok visited → LogOk visiting result.1 visited

omit [DecidableEq α] in
theorem foldLogged_ok {f : List α → List α → α → List α × Except (Failure α) (List α)}
    {visiting : List α} (hf : ∀ log visited node, LogOk visiting log visited →
      StaysOk visiting (f log visited node)) {nodes log visited : List α}
    (h : LogOk visiting log visited) : StaysOk visiting (foldLogged f nodes log visited) := by
  induction nodes generalizing log visited with
  | nil =>
    refine ⟨h.1, fun visited' hok => ?_⟩
    obtain rfl : visited = visited' := Except.ok.inj hok
    exact h
  | cons node rest ih =>
    have hturn := hf log visited node h
    unfold foldLogged
    generalize f log visited node = result at hturn
    rcases result with ⟨log', e | visited'⟩
    · exact ⟨hturn.1, fun _ hok => nomatch hok⟩
    · exact ih (hturn.2 visited' rfl)

theorem visitLogged_ok {depth : Nat} {visiting log visited : List α} {node : α}
    (h : LogOk visiting log visited) :
    StaysOk visiting (visitLogged next depth visiting log visited node) := by
  induction depth generalizing visiting log visited node with
  | zero => exact ⟨h.1, fun _ hok => nomatch hok⟩
  | succ depth ih =>
    unfold visitLogged
    split
    · exact ⟨h.1, fun _ hok => nomatch hok⟩
    · rename_i hvisiting
      split
      · refine ⟨h.1, fun visited' hok => ?_⟩
        obtain rfl : visited = visited' := Except.ok.inj hok
        exact h
      · rename_i hvisited
        -- a node that is neither being visited nor visited is not in the log yet
        have hnew : node ∉ log := fun hin => (h.2 node hin).elim hvisiting hvisited
        have hstart : LogOk (node :: visiting) (node :: log) visited := by
          refine ⟨List.nodup_cons.mpr ⟨hnew, h.1⟩, List.forall_mem_cons.mpr
            ⟨Or.inl (List.mem_cons_self ..), fun x hx => ?_⟩⟩
          exact (h.2 x hx).imp (List.mem_cons_of_mem node) id
        have hloop := @foldLogged_ok _ (visitLogged next depth (node :: visiting)) _
          (fun log visited x hlog => @ih _ log visited x hlog) (next node) _ _ hstart
        generalize foldLogged (visitLogged next depth (node :: visiting)) (next node) (node :: log)
          visited = result at hloop
        rcases result with ⟨log', e | visited'⟩
        · exact ⟨hloop.1, fun _ hok => nomatch hok⟩
        · refine ⟨hloop.1, fun visited'' hok => ⟨hloop.1, fun x hx => ?_⟩⟩
          obtain rfl : node :: visited' = visited'' := Except.ok.inj hok
          rcases (hloop.2 visited' rfl).2 x hx with hin | hin
          · rcases List.mem_cons.mp hin with rfl | hin
            · exact Or.inr (List.mem_cons_self ..)
            · exact Or.inl hin
          · exact Or.inr (List.mem_cons_of_mem node hin)

/-- The edges of no node are followed twice, whatever the search ends with. -/
theorem logged_nodup (depth : Nat) (nodes : List α) : (searchLogged next depth nodes).1.Nodup :=
  (foldLogged_ok (fun _ _ _ hlog => visitLogged_ok hlog) ⟨List.nodup_nil, fun _ hx => nomatch hx⟩).1

end DepthFirst
