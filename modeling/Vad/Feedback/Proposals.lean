/-
  Feedback proposals and how the approved ones are applied (`vad/feedback/proposals.py`).

  1. **The code** — a loop over the proposals changes a deep copy of the document; at the end the
     copy is validated (`applyApprovedProposals`).  A payload may hold anything, so each step can
     fail.

  2. **Amendments** — with valid payloads no step fails, and what a step does is a function on
     documents (`EIP.amend`, `applyFeedback_valid`).  A document only grows (`Grows`), a fresh id is
     unused (`nextObligationId_free`), and an amendment that has settled changes nothing again
     (`amend_eq_self_iff`).

  3. **Result** — the second application changes nothing exactly when every approved obligation has
     an id of its own (`appliedOnce_iff`): without one, a new id is made up each time.
-/
import Mathlib.Data.List.Perm.Subperm
import Vad.Contracts.Models
import Vad.Lib.Dict

namespace Vad

/-! ## Proposals -/

inductive ProposalType where
  | addInvariant | strengthenInvariant | addProofObligation | reduceAutonomy | restrictTool
  | changeModelTier | adjustBudget | addReleaseGate
deriving DecidableEq, Repr

structure FeedbackProposal where
  proposalType : ProposalType
  reason : String
  payload : Dict Json := []
  approved : Bool := false

instance : Model FeedbackProposal where
  name := "FeedbackProposal"
  normalize := id
  checks p := [("reason", decide (1 ≤ p.reason.length))]
  normalize_idem _ := rfl

namespace FeedbackProposal

/-- `payload.get("category", "functional")`. -/
def category (p : FeedbackProposal) : Json :=
  (Dict.get p.payload "category").getD (.text "functional")

/-- `payload.get("description", reason)`. -/
def description (p : FeedbackProposal) : Json :=
  (Dict.get p.payload "description").getD (.text p.reason)

/-- `payload.get("kind", "unit")`. -/
def kind (p : FeedbackProposal) : Json := (Dict.get p.payload "kind").getD (.text "unit")

/-- The id of the payload, unless `or` passes it over. -/
def givenId (p : FeedbackProposal) : Option Json := (Dict.get p.payload "id").filter truthy

def addsInvariant (p : FeedbackProposal) : Bool :=
  decide (p.proposalType = .addInvariant) || decide (p.proposalType = .strengthenInvariant)

def addsObligation (p : FeedbackProposal) : Bool := decide (p.proposalType = .addProofObligation)

end FeedbackProposal

/-! ## Invariants by name -/

/-- The fields of `Invariants`. -/
inductive InvariantCategory where
  | security | performance | functional
deriving DecidableEq, Repr

def InvariantCategory.name : InvariantCategory → String
  | security => "security"
  | performance => "performance"
  | functional => "functional"

def InvariantCategory.ofName (name : String) : Option InvariantCategory :=
  [.security, .performance, .functional].find? fun c => c.name = name

theorem InvariantCategory.ofName_name (c : InvariantCategory) : ofName c.name = some c := by
  cases c <;> rfl

/-- `getattr(invariants, category)`. -/
def Invariants.get (i : Invariants) : InvariantCategory → List String
  | .security => i.security
  | .performance => i.performance
  | .functional => i.functional

def Invariants.append (i : Invariants) (c : InvariantCategory) (description : String) :
    Invariants :=
  match c with
  | .security => { i with security := i.security ++ [description] }
  | .performance => { i with performance := i.performance ++ [description] }
  | .functional => { i with functional := i.functional ++ [description] }

theorem Invariants.get_append (i : Invariants) (c c' : InvariantCategory) (description : String) :
    (i.append c description).get c' = i.get c' ++ if c' = c then [description] else [] := by
  cases c <;> cases c' <;> simp [append, get]

/-- `ProofKind(value)`. -/
def readKind : Json → Option ProofKind
  | .text value => [.unit, .property, .contract, .security, .performance, .policy, .release,
      .telemetry, .manualGate].find? fun kind => kind.value = value
  | _ => none

theorem readKind_value (kind : ProofKind) : readKind (.text kind.value) = some kind := by
  cases kind <;> rfl

/-! ## Applying them -/

/-- The documents of a call: the caller's, and the deep copy that the loop changes; of the copy also
    the fields to which something was appended that is no text. -/
structure Documents where
  input : EIP
  updated : EIP
  untyped : List String := []

def EIP.obligationIds (e : EIP) : List String := e.proofObligations.map ProofObligation.id

def obligationName (index : Nat) : String := "po-" ++ toString index

/-- The loop of `_next_obligation_id`, `fuel` turns at most. -/
def freeIndex (existing : List String) : Nat → Nat → Nat
  | 0, index => index
  | fuel + 1, index =>
    if obligationName index ∈ existing then freeIndex existing fuel (index + 1) else index

/-- `_next_obligation_id`. -/
def nextObligationId (existing : List String) : String :=
  obligationName (freeIndex existing existing.length 1)

/-- `_apply_invariant`; `otherAttribute` is what asking for the description in an attribute that is
    no field of the invariants, and appending it there, comes to. -/
def applyInvariant (otherAttribute : String → Json → Except PyError Unit) (docs : Documents)
    (p : FeedbackProposal) : Except PyError Documents :=
  match p.category with
  | .text name =>
    match InvariantCategory.ofName name with
    | some c =>
      match p.description with
      | .text description =>
        if description ∈ docs.updated.invariants.get c then .ok docs
        else .ok { docs with updated := { docs.updated with
          invariants := docs.updated.invariants.append c description } }
      | _ => .ok { docs with untyped := docs.untyped ++ ["invariants." ++ c.name] }
    | none => (otherAttribute name p.description).map fun _ => docs
  | _ => .error .typeError

/-- `_apply_proof_obligation`; a list or an object is not looked for in a set. -/
def applyProofObligation (docs : Documents) (p : FeedbackProposal) : Except PyError Documents :=
  let existing := docs.updated.obligationIds
  match p.givenId.getD (.text (nextObligationId existing)) with
  | .array _ => .error .typeError
  | .object _ => .error .typeError
  | id =>
    let checks := [("id", textField (fun _ => true) id), ("kind", (readKind p.kind).isSome),
      ("description", textField (fun _ => true) p.description)]
    match id, readKind p.kind, p.description with
    | .text id, some kind, .text description =>
      if id ∈ existing then .ok docs
      else .ok { docs with updated := { docs.updated with
        proofObligations := docs.updated.proofObligations ++ [⟨id, kind, description⟩] } }
    | .text id, _, _ =>
      if id ∈ existing then .ok docs
      else .error (.validationError "ProofObligation" (failedFields checks))
    | _, _, _ => .error (.validationError "ProofObligation" (failedFields checks))

/-- One turn of the loop of `apply_approved_proposals`. -/
def applyFeedback (otherAttribute : String → Json → Except PyError Unit) (docs : Documents)
    (p : FeedbackProposal) : Except PyError Documents :=
  if p.approved = false then .ok docs
  else if p.addsInvariant then applyInvariant otherAttribute docs p
  else if p.addsObligation then applyProofObligation docs p
  else .ok docs

/-- `EIP(**updated.model_dump())`. -/
def Documents.validated (docs : Documents) : Except PyError (Checked EIP) :=
  if docs.untyped = [] then Model.build docs.updated
  else .error (.validationError "EIP" docs.untyped)

/-- `apply_approved_proposals`: what the caller's document is afterwards, and the result. -/
def applyApprovedProposals (otherAttribute : String → Json → Except PyError Unit)
    (eip : Checked EIP) (proposals : List FeedbackProposal) :
    Except PyError (EIP × Checked EIP) := do
  let docs ← proposals.foldlM (applyFeedback otherAttribute) ⟨eip.1, eip.1, []⟩
  let result ← docs.validated
  pure (docs.input, result)

/-! ## The search for an id -/

theorem obligationName_injective : Function.Injective obligationName := by
  intro m n h
  have htail : (toString m).toList = (toString n).toList :=
    @List.append_cancel_left _ "po-".toList _ _ (by
      rw [← String.toList_append, ← String.toList_append]
      exact congrArg String.toList h)
  exact PyText.toString_injective (String.ext htail)

/-- The loop passes over names that are taken, and stops early only at one that is free. -/
theorem freeIndex_spec (existing : List String) : ∀ (fuel index : Nat), ∃ k ≤ fuel,
    freeIndex existing fuel index = index + k ∧
      (∀ i < k, obligationName (index + i) ∈ existing) ∧
      (k < fuel → obligationName (index + k) ∉ existing) := by
  intro fuel
  induction fuel with
  | zero =>
    exact fun index => ⟨0, Nat.le_refl 0, rfl, fun i hi => absurd hi (Nat.not_lt_zero i),
      fun h => absurd h (Nat.not_lt_zero 0)⟩
  | succ fuel ih =>
    intro index
    unfold freeIndex
    by_cases hin : obligationName index ∈ existing
    · obtain ⟨k, hk, heq, htaken, hfree⟩ := ih (index + 1)
      rw [if_pos hin]
      refine ⟨k + 1, Nat.succ_le_succ hk, by omega, fun i hi => ?_, fun h => ?_⟩
      · cases i with
        | zero => exact hin
        | succ i =>
          have hnext := htaken i (Nat.lt_of_succ_lt_succ hi)
          rwa [show index + (i + 1) = index + 1 + i by omega]
      · have hlast := hfree (Nat.lt_of_succ_lt_succ h)
        rwa [show index + (k + 1) = index + 1 + k by omega]
    · rw [if_neg hin]
      exact ⟨0, Nat.zero_le _, rfl, fun i hi => absurd hi (Nat.not_lt_zero i), fun _ => hin⟩

/-- As many turns as there are ids are enough: the id is unused. -/
theorem nextObligationId_free (existing : List String) : nextObligationId existing ∉ existing := by
  obtain ⟨k, hk, heq, htaken, hfree⟩ := freeIndex_spec existing existing.length 1
  unfold nextObligationId
  rw [heq]
  rcases Nat.lt_or_ge k existing.length with hlt | hge
  · exact hfree hlt
  · intro hin
    have hall : (List.range (k + 1)).map (fun i => obligationName (1 + i)) ⊆ existing := by
      intro name hname
      obtain ⟨i, hi, rfl⟩ := List.mem_map.mp hname
      rcases Nat.lt_or_ge i k with h | h
      · exact htaken i h
      · have hik : i = k := Nat.le_antisymm (Nat.lt_succ_iff.mp (List.mem_range.mp hi)) h
        rwa [hik]
    have hnodup : ((List.range (k + 1)).map fun i => obligationName (1 + i)).Nodup :=
      List.nodup_range.map fun i j hij => Nat.add_left_cancel (obligationName_injective hij)
    -- too many names for the list of ids
    have hlength := (hnodup.subperm hall).length_le
    rw [List.length_map, List.length_range] at hlength
    omega

/-! ## Amendments -/

/-- What an approved proposal asks for. -/
inductive Amendment where
  | invariant (c : InvariantCategory) (description : String)
  | obligation (id : Option String) (kind : ProofKind) (description : String)
  | nothing
deriving DecidableEq, Repr

/-- The payload of the proposal says something that the loop understands. -/
structure FeedbackProposal.ValidPayload (p : FeedbackProposal) : Prop where
  invariant : p.addsInvariant = true →
    ∃ (c : InvariantCategory) (description : String), p.category = .text c.name ∧
      p.description = .text description
  obligation : p.addsObligation = true → (∀ j, p.givenId = some j → ∃ id, j = .text id) ∧
    ∃ (kind : ProofKind) (description : String), p.kind = .text kind.value ∧
      p.description = .text description

/-- The amendment of a proposal whose payload is valid. -/
def FeedbackProposal.amendment (p : FeedbackProposal) : Amendment :=
  if p.approved = false then .nothing
  else if p.addsInvariant then
    match p.category, p.description with
    | .text name, .text description =>
      match InvariantCategory.ofName name with
      | some c => .invariant c description
      | none => .nothing
    | _, _ => .nothing
  else if p.addsObligation then
    match p.givenId, readKind p.kind, p.description with
    | none, some kind, .text description => .obligation none kind description
    | some (.text id), some kind, .text description => .obligation (some id) kind description
    | _, _, _ => .nothing
  else .nothing

/-- The document with the amendment made. -/
def EIP.amend (e : EIP) : Amendment → EIP
  | .invariant c description =>
    if description ∈ e.invariants.get c then e
    else { e with invariants := e.invariants.append c description }
  | .obligation id kind description =>
    let id := id.getD (nextObligationId e.obligationIds)
    if id ∈ e.obligationIds then e
    else { e with proofObligations := e.proofObligations ++ [⟨id, kind, description⟩] }
  | .nothing => e

theorem Documents.changedUnless (docs : Documents) (c : Prop) [Decidable c] (changed : EIP) :
    (if c then .ok docs else .ok { docs with updated := changed } : Except PyError Documents) =
      .ok { docs with updated := if c then docs.updated else changed } := by
  split
  · rfl
  · rfl

section Steps

variable {otherAttribute : String → Json → Except PyError Unit}

/-- With a valid payload a step does not fail, and makes the amendment in the copy. -/
theorem applyFeedback_valid {p : FeedbackProposal} (h : p.ValidPayload) (docs : Documents) :
    applyFeedback otherAttribute docs p =
      .ok { docs with updated := docs.updated.amend p.amendment } := by
  unfold applyFeedback FeedbackProposal.amendment
  by_cases happroved : p.approved = false
  · rw [if_pos happroved, if_pos happroved]
    rfl
  rw [if_neg happroved, if_neg happroved]
  by_cases hinvariant : p.addsInvariant = true
  · obtain ⟨c, description, hcategory, hdescription⟩ := h.invariant hinvariant
    rw [if_pos hinvariant, if_pos hinvariant]
    unfold applyInvariant
    rw [hcategory, hdescription]
    simp only [InvariantCategory.ofName_name]
    exact docs.changedUnless _ _
  rw [if_neg hinvariant, if_neg hinvariant]
  by_cases hobligation : p.addsObligation = true
  · obtain ⟨hid, kind, description, hkind, hdescription⟩ := h.obligation hobligation
    rw [if_pos hobligation, if_pos hobligation]
    unfold applyProofObligation
    rw [hkind, hdescription]
    simp only [readKind_value]
    cases hgiven : p.givenId with
    | none =>
      exact docs.changedUnless _ _
    | some j =>
      obtain ⟨id, rfl⟩ := hid j hgiven
      exact docs.changedUnless _ _
  · rw [if_neg hobligation, if_neg hobligation]
    rfl

/-- The document after the amendments, one after another. -/
def EIP.amendAll (e : EIP) (amendments : List Amendment) : EIP := amendments.foldl EIP.amend e

/-- The loop makes all amendments in the copy. -/
theorem foldlM_applyProposal {proposals : List FeedbackProposal}
    (h : ∀ p ∈ proposals, p.ValidPayload) (docs : Documents) :
    proposals.foldlM (applyFeedback otherAttribute) docs =
      .ok { docs with
        updated := docs.updated.amendAll (proposals.map FeedbackProposal.amendment) } := by
  induction proposals generalizing docs with
  | nil => rfl
  | cons p rest ih =>
    rw [List.foldlM_cons, applyFeedback_valid (h p (List.mem_cons_self ..))]
    exact ih (fun q hq => h q (List.mem_cons_of_mem _ hq)) _

end Steps

/-! ## What an amendment changes -/

/-- The later document has all invariants and obligations of the earlier one in front, and differs
    in nothing else. -/
structure Grows (a b : EIP) : Prop where
  invariants : ∀ c, a.invariants.get c <+: b.invariants.get c
  obligations : a.proofObligations <+: b.proofObligations
  others : b = { a with invariants := b.invariants, proofObligations := b.proofObligations }

theorem Grows.refl (e : EIP) : Grows e e where
  invariants _ := List.prefix_refl _
  obligations := List.prefix_refl _
  others := rfl

theorem Grows.trans {a b c : EIP} (hab : Grows a b) (hbc : Grows b c) : Grows a c where
  invariants k := (hab.invariants k).trans (hbc.invariants k)
  obligations := hab.obligations.trans hbc.obligations
  others := by
    have hb := hab.others
    have hc := hbc.others
    rw [hb] at hc
    exact hc

theorem Grows.ids {a b : EIP} (h : Grows a b) : a.obligationIds <+: b.obligationIds :=
  h.obligations.map _

theorem grows_amend (e : EIP) (m : Amendment) : Grows e (e.amend m) := by
  cases m with
  | invariant c description =>
    unfold EIP.amend
    dsimp only
    split
    · exact Grows.refl e
    · refine ⟨fun k => ?_, List.prefix_refl _, rfl⟩
      show e.invariants.get k <+: (e.invariants.append c description).get k
      rw [Invariants.get_append]
      exact List.prefix_append ..
  | obligation id kind description =>
    unfold EIP.amend
    dsimp only
    split
    · exact Grows.refl e
    · exact ⟨fun _ => List.prefix_refl _, List.prefix_append .., rfl⟩
  | nothing => exact Grows.refl e

theorem grows_amendAll (e : EIP) (ms : List Amendment) : Grows e (e.amendAll ms) := by
  induction ms generalizing e with
  | nil => exact Grows.refl e
  | cons m rest ih => exact (grows_amend e m).trans (ih (e.amend m))

/-- An amendment keeps ids distinct: an id that is there is not added again. -/
theorem nodup_amend {e : EIP} (h : e.obligationIds.Nodup) (m : Amendment) :
    (e.amend m).obligationIds.Nodup := by
  cases m with
  | invariant c description =>
    unfold EIP.amend
    dsimp only
    split
    · exact h
    · exact h
  | obligation id kind description =>
    unfold EIP.amend
    dsimp only
    split
    · exact h
    · rename_i hnew
      show ((e.proofObligations ++ [_]).map ProofObligation.id).Nodup
      rw [List.map_append, List.nodup_append]
      refine ⟨h, List.nodup_singleton _, fun a ha b hb heq => hnew ?_⟩
      rw [heq, List.mem_singleton.mp hb] at ha
      exact ha
  | nothing => exact h

theorem nodup_amendAll {e : EIP} (h : e.obligationIds.Nodup) (ms : List Amendment) :
    (e.amendAll ms).obligationIds.Nodup := by
  induction ms generalizing e with
  | nil => exact h
  | cons m rest ih => exact ih (nodup_amend h m)

/-! ## Amendments that have settled -/

/-- What the amendment asks for is there. -/
def Absorbed (e : EIP) : Amendment → Prop
  | .invariant c description => description ∈ e.invariants.get c
  | .obligation (some id) _ _ => id ∈ e.obligationIds
  | .obligation none _ _ => False
  | .nothing => True

/-- An obligation without an id never settles. -/
def Amendment.Named : Amendment → Prop
  | .obligation none _ _ => False
  | _ => True

/-- An amendment changes nothing exactly when it has settled. -/
theorem amend_eq_self_iff {e : EIP} {m : Amendment} : e.amend m = e ↔ Absorbed e m := by
  -- a list to which something was added is another list
  have hadded {id : String} {kind : ProofKind} {description : String}
      (h : { e with proofObligations := e.proofObligations ++ [⟨id, kind, description⟩] } = e) :
      False := by
    have hlist : e.proofObligations ++ [⟨id, kind, description⟩] = e.proofObligations :=
      congrArg EIP.proofObligations h
    exact List.cons_ne_nil _ _ (List.append_right_eq_self.mp hlist)
  cases m with
  | invariant c description =>
    unfold EIP.amend Absorbed
    dsimp only
    split
    · rename_i hin
      exact ⟨fun _ => hin, fun _ => rfl⟩
    · rename_i hout
      refine ⟨fun h => ?_, fun h => absurd h hout⟩
      have hget := congrArg (fun e : EIP => e.invariants.get c) h
      change (e.invariants.append c description).get c = e.invariants.get c at hget
      rw [Invariants.get_append, if_pos rfl, List.append_right_eq_self] at hget
      cases hget
  | obligation id kind description =>
    cases id with
    | some id =>
      unfold EIP.amend Absorbed
      dsimp only [Option.getD_some]
      split
      · rename_i hin
        exact ⟨fun _ => hin, fun _ => rfl⟩
      · rename_i hout
        exact ⟨fun h => (hadded h).elim, fun h => absurd h hout⟩
    | none =>
      unfold EIP.amend Absorbed
      dsimp only [Option.getD_none]
      rw [if_neg (nextObligationId_free _)]
      exact ⟨fun h => hadded h, False.elim⟩
  | nothing => exact ⟨fun _ => trivial, fun _ => rfl⟩

/-- What was there stays there. -/
theorem Absorbed.grows {a b : EIP} {m : Amendment} (h : Absorbed a m) (hgrows : Grows a b) :
    Absorbed b m := by
  cases m with
  | invariant c description => exact (hgrows.invariants c).subset h
  | obligation id kind description =>
    cases id with
    | some id => exact hgrows.ids.subset h
    | none => exact h
  | nothing => trivial

/-- An amendment settles once it is made. -/
theorem absorbed_amend {m : Amendment} (h : m.Named) (e : EIP) : Absorbed (e.amend m) m := by
  cases m with
  | invariant c description =>
    unfold EIP.amend Absorbed
    dsimp only
    split
    · rename_i hin
      exact hin
    · rw [Invariants.get_append, if_pos rfl]
      exact List.mem_append_right _ (List.mem_singleton_self _)
  | obligation id kind description =>
    cases id with
    | some id =>
      unfold EIP.amend Absorbed
      dsimp only [Option.getD_some]
      split
      · rename_i hin
        exact hin
      · exact List.mem_map.mpr ⟨_, List.mem_append_right _ (List.mem_singleton_self _), rfl⟩
    | none => exact h.elim
  | nothing => trivial

theorem settled_amendAll {ms : List Amendment} (h : ∀ m ∈ ms, m.Named) (e : EIP) :
    ∀ m ∈ ms, Absorbed (e.amendAll ms) m := by
  induction ms generalizing e with
  | nil => exact fun m hm => absurd hm List.not_mem_nil
  | cons first rest ih =>
    intro m hm
    rcases List.mem_cons.mp hm with rfl | hm
    · have hfirst := absorbed_amend (h m (List.mem_cons_self ..)) e
      exact hfirst.grows (grows_amendAll _ rest)
    · exact ih (fun m hm => h m (List.mem_cons_of_mem _ hm)) (e.amend first) m hm

theorem amendAll_eq_self {e : EIP} {ms : List Amendment} (h : ∀ m ∈ ms, Absorbed e m) :
    e.amendAll ms = e := by
  induction ms with
  | nil => rfl
  | cons m rest ih =>
    show (e.amend m).amendAll rest = e
    rw [amend_eq_self_iff.mpr (h m (List.mem_cons_self ..))]
    exact ih fun m hm => h m (List.mem_cons_of_mem _ hm)

/-- Amendments that change nothing together change nothing one by one, since a document only
    grows. -/
theorem settled_of_amendAll_eq {e : EIP} {ms : List Amendment} (h : e.amendAll ms = e) :
    ∀ m ∈ ms, Absorbed e m := by
  induction ms with
  | nil => exact fun m hm => absurd hm List.not_mem_nil
  | cons first rest ih =>
    have hback : Grows (e.amend first) e := by
      have hrest := grows_amendAll (e.amend first) rest
      rwa [show (e.amend first).amendAll rest = e from h] at hrest
    have hthere := grows_amend e first
    have hsame : e.amend first = e := by
      have hlists : ∀ c, (e.amend first).invariants.get c = e.invariants.get c := fun c =>
        (hback.invariants c).eq_of_length_le (hthere.invariants c).length_le
      have hobligations : (e.amend first).proofObligations = e.proofObligations :=
        hback.obligations.eq_of_length_le hthere.obligations.length_le
      have hinvariants : (e.amend first).invariants = e.invariants := by
        have hsecurity := hlists .security
        have hperformance := hlists .performance
        have hfunctional := hlists .functional
        cases hi : (e.amend first).invariants with
        | mk s p f =>
          rw [hi] at hsecurity hperformance hfunctional
          exact congr (congr (congrArg Invariants.mk hsecurity) hperformance) hfunctional
      rw [hthere.others, hinvariants, hobligations]
    intro m hm
    rcases List.mem_cons.mp hm with rfl | hm
    · exact amend_eq_self_iff.mp hsame
    · refine ih ?_ m hm
      have hrest : (e.amend first).amendAll rest = e := h
      rwa [hsame] at hrest

/-- A second round changes nothing exactly when every obligation has an id of its own. -/
theorem amendAll_again_iff {e : EIP} {ms : List Amendment} :
    (e.amendAll ms).amendAll ms = e.amendAll ms ↔ ∀ m ∈ ms, m.Named := by
  constructor
  · intro h m hm
    have hsettled := settled_of_amendAll_eq h m hm
    cases m with
    | obligation id kind description =>
      cases id with
      | none => exact hsettled
      | some id => trivial
    | invariant c description => trivial
    | nothing => trivial
  · exact fun h => amendAll_eq_self (settled_amendAll h e)

/-! ## The proposals of a run -/

/-- Does an approved obligation come without an id? -/
def FeedbackProposal.unnamed (p : FeedbackProposal) : Bool :=
  p.approved && p.addsObligation && p.givenId.isNone

theorem named_amendment_iff {p : FeedbackProposal} (h : p.ValidPayload) :
    p.amendment.Named ↔ p.unnamed = false := by
  unfold FeedbackProposal.amendment FeedbackProposal.unnamed
  by_cases happroved : p.approved = false
  · rw [if_pos happroved, happroved]
    exact ⟨fun _ => rfl, fun _ => trivial⟩
  have hyes : p.approved = true := by simpa using happroved
  rw [if_neg happroved, hyes, Bool.true_and]
  by_cases hinvariant : p.addsInvariant = true
  · have hother : p.addsObligation = false := by
      unfold FeedbackProposal.addsInvariant at hinvariant
      unfold FeedbackProposal.addsObligation
      cases htype : p.proposalType <;> simp [htype] at hinvariant ⊢
    obtain ⟨c, description, hcategory, hdescription⟩ := h.invariant hinvariant
    rw [if_pos hinvariant, hother, hcategory, hdescription]
    simp only [InvariantCategory.ofName_name]
    exact ⟨fun _ => rfl, fun _ => trivial⟩
  rw [if_neg hinvariant]
  by_cases hobligation : p.addsObligation = true
  · obtain ⟨hid, kind, description, hkind, hdescription⟩ := h.obligation hobligation
    rw [if_pos hobligation, hobligation, hkind, hdescription, readKind_value]
    cases hgiven : p.givenId with
    | none => exact ⟨False.elim, fun hnamed => (nomatch hnamed)⟩
    | some j =>
      obtain ⟨id, rfl⟩ := hid j hgiven
      exact ⟨fun _ => rfl, fun _ => trivial⟩
  · have hno : p.addsObligation = false := by simpa using hobligation
    rw [if_neg hobligation, hno]
    exact ⟨fun _ => rfl, fun _ => trivial⟩

section Run

variable {otherAttribute : String → Json → Except PyError Unit} {e : Checked EIP}
  {proposals : List FeedbackProposal}

/-- More invariants and obligations pass the checks of a document. -/
theorem Grows.valid {a b : EIP} (h : Grows a b) (ha : Model.Valid a) : Model.Valid b := by
  rw [h.others]
  exact ⟨rfl, ha.2⟩

/-- With valid payloads the call returns the amended document, and leaves the caller's alone. -/
theorem applyApprovedProposals_ok (h : ∀ p ∈ proposals, p.ValidPayload) :
    ∃ result, applyApprovedProposals otherAttribute e proposals = .ok (e.1, result) ∧
      result.1 = e.1.amendAll (proposals.map FeedbackProposal.amendment) := by
  have hvalid := (grows_amendAll e.1 (proposals.map FeedbackProposal.amendment)).valid e.2
  refine ⟨⟨_, hvalid⟩, ?_, rfl⟩
  unfold applyApprovedProposals
  rw [foldlM_applyProposal h]
  show (do
    let result ← Model.build (e.1.amendAll (proposals.map FeedbackProposal.amendment))
    pure (e.1, result)) = _
  rw [Model.build_of_valid hvalid]
  rfl

/-- Proposals that are not approved ask for nothing. -/
theorem amendAll_approved (e : EIP) (proposals : List FeedbackProposal) :
    e.amendAll ((proposals.filter fun p => p.approved).map FeedbackProposal.amendment) =
      e.amendAll (proposals.map FeedbackProposal.amendment) := by
  induction proposals generalizing e with
  | nil => rfl
  | cons p rest ih =>
    by_cases happroved : p.approved = true
    · rw [List.filter_cons_of_pos happroved]
      exact ih (e.amend p.amendment)
    · have hnothing : p.amendment = .nothing := if_pos (by simpa using happroved)
      rw [List.filter_cons_of_neg happroved, ih, List.map_cons, hnothing]
      rfl

/-- The call returns; what it returns has everything of the document in front, distinct ids, and no
    other change, is the same without the proposals that are not approved, and stays the same when
    they are applied again.  The caller's document is left alone both times. -/
def FeedbackAppliedOnce (otherAttribute : String → Json → Except PyError Unit) (e : Checked EIP)
    (proposals : List FeedbackProposal) : Prop :=
  ∃ result, applyApprovedProposals otherAttribute e proposals = .ok (e.1, result) ∧
    Grows e.1 result.1 ∧ result.1.obligationIds.Nodup ∧
    applyApprovedProposals otherAttribute e (proposals.filter fun p => p.approved) =
      .ok (e.1, result) ∧
    applyApprovedProposals otherAttribute result proposals = .ok (result.1, result)

/-- For a document with distinct ids and valid payloads: everything holds exactly when no approved
    obligation comes without an id. -/
theorem appliedOnce_iff (hids : e.1.obligationIds.Nodup)
    (hvalid : ∀ p ∈ proposals, p.ValidPayload) :
    FeedbackAppliedOnce otherAttribute e proposals ↔ ∀ p ∈ proposals, p.unnamed = false := by
  have hnamed : (∀ m ∈ proposals.map FeedbackProposal.amendment, m.Named) ↔
      ∀ p ∈ proposals, p.unnamed = false := by
    rw [List.forall_mem_map]
    exact forall₂_congr fun p hp => named_amendment_iff (hvalid p hp)
  obtain ⟨result, hrun, hresult⟩ := @applyApprovedProposals_ok otherAttribute e _ hvalid
  obtain ⟨again, hagain, hsecond⟩ := @applyApprovedProposals_ok otherAttribute result _ hvalid
  rw [hresult] at hsecond
  constructor
  · rintro ⟨result', hrun', -, -, -, hsame⟩
    obtain rfl : result = result' := by
      rw [hrun] at hrun'
      exact (Prod.mk.inj (Except.ok.inj hrun')).2
    rw [hagain] at hsame
    have heq : again = result := (Prod.mk.inj (Except.ok.inj hsame)).2
    rw [heq, hresult] at hsecond
    exact hnamed.mp (amendAll_again_iff.mp hsecond.symm)
  · intro h
    have hsame : again = result := by
      refine Subtype.ext ?_
      rw [hsecond, hresult]
      exact amendAll_again_iff.mpr (hnamed.mpr h)
    obtain ⟨other, hother, hfiltered⟩ := @applyApprovedProposals_ok otherAttribute e
      (proposals.filter fun p => p.approved) fun p hp => hvalid p (List.mem_filter.mp hp).1
    have happroved : other = result := by
      refine Subtype.ext ?_
      rw [hfiltered, hresult, amendAll_approved]
    refine ⟨result, hrun, ?_, ?_, happroved ▸ hother, hsame ▸ hagain⟩
    · rw [hresult]
      exact grows_amendAll ..
    · rw [hresult]
      exact nodup_amendAll hids _

end Run

/-! ## An obligation without an id -/

/-- A document with one obligation. -/
def feedbackEip : EIP where
  version := "1.0.0"
  name := "feedback-test"
  goal := ⟨"Test feedback", ["passes"]⟩
  nonGoals := []
  riskTier := .low
  autonomyTier := .assisted
  scopeBoundaries := ["tests"]
  invariants := { functional := ["existing invariant"] }
  constraints := {}
  proofObligations := [⟨"po-1", .unit, "existing proof"⟩]
  toolPermissions := ⟨["pytest"], ["network"]⟩
  memoryRequirements := []
  modelBudget := ⟨1000, 1, 3⟩
  releaseRequirements := { required := false }
  telemetryRequirements := { required := false }

theorem feedbackEip_valid : Model.Valid feedbackEip := ⟨rfl, by decide⟩

/-- An approved obligation; the payload has an id, or none. -/
def coverRetry (id : Option String) : FeedbackProposal where
  proposalType := .addProofObligation
  reason := "Need regression proof."
  payload := [("kind", .text "unit"), ("description", .text "Cover retry timeout")] ++
    id.toList.map fun id => ("id", .text id)
  approved := true

theorem coverRetry_valid (id : Option String) : (coverRetry id).ValidPayload where
  invariant h := nomatch (show false = true from h)
  obligation _ := by
    refine ⟨fun j hj => ?_, .unit, "Cover retry timeout", rfl, rfl⟩
    cases id with
    | none => cases hj
    | some id =>
      have hget : Dict.get (coverRetry (some id)).payload "id" = some (.text id) := rfl
      unfold FeedbackProposal.givenId at hj
      rw [hget, Option.filter_eq_some_iff] at hj
      exact ⟨id, (Option.some.inj hj.1).symm⟩

/-- Applied twice, an obligation without an id is there twice. -/
theorem unnamed_obligation_twice : ¬ FeedbackAppliedOnce (fun _ _ => .error .attributeError)
    ⟨feedbackEip, feedbackEip_valid⟩ [coverRetry none] := by
  rintro ⟨result, hrun, -, -, -, hagain⟩
  have hfirst : result.1 = feedbackEip.amendAll [(coverRetry none).amendment] := by
    obtain ⟨result', hrun', hresult⟩ := @applyApprovedProposals_ok
      (fun _ _ => .error .attributeError) ⟨feedbackEip, feedbackEip_valid⟩ [coverRetry none]
      fun p hp => List.mem_singleton.mp hp ▸ coverRetry_valid none
    rw [hrun] at hrun'
    rw [(Prod.mk.inj (Except.ok.inj hrun')).2, hresult]
    rfl
  obtain ⟨again, hrun', hsecond⟩ := @applyApprovedProposals_ok
    (fun _ _ => .error .attributeError) result [coverRetry none]
    fun p hp => List.mem_singleton.mp hp ▸ coverRetry_valid none
  rw [hagain] at hrun'
  rw [← (Prod.mk.inj (Except.ok.inj hrun')).2, hfirst] at hsecond
  have hids := congrArg EIP.obligationIds hsecond
  revert hids
  decide

theorem appliedOnce_iff_named : FeedbackAppliedOnce (fun _ _ => .error .attributeError)
    ⟨feedbackEip, feedbackEip_valid⟩ [coverRetry (some "po-retry")] :=
  (appliedOnce_iff (by decide) fun p hp =>
    List.mem_singleton.mp hp ▸ coverRetry_valid _).mpr fun p hp => by
      rw [List.mem_singleton.mp hp]
      decide

end Vad
