/-
  What is learned from failures (`vad/feedback/retro.py`), and what it comes to when people approve
  of what is proposed (`vad/feedback/proposals.py`, `vad/feedback/analyzer.py`).

  1. **The code** — an analysis collects the failures of a bundle of evidence, makes proposals of
     them, and stores all of it in the memory of retrospectives (`analyze`).

  2. **Rounds** — a bundle is analysed, or a refused release; a person approves some of the
     proposals, and these are applied to the document (`feedbackRound`).  A round that raises leaves
     everything alone, and any other makes amendments of three kinds only (`round_cases`).

  3. **Accounts** (`feedback_accounted`) — over any rounds the document has got one obligation for
     each approved one, under ids that were free; one invariant, however often it was approved; and
     nothing for the other proposals.  The memory has got one entry for each analysis.
-/
import Mathlib.Data.List.Infix
import Vad.Feedback.Analyzer
import Vad.Lib.Attempts
import Vad.Memory.Store

namespace Vad

open PyText

/-! ## Failures -/

/-- The values of a key that holds a list. -/
def listField (data : Dict Json) (key : String) : List Json :=
  match Dict.get data key with
  | some (.array values) => values
  | _ => []

/-- `step.get("status") == "failure"`. -/
def hasFailed (step : Dict Json) : Bool :=
  match Dict.get step "status" with
  | some (.text status) => decide (status = "failure")
  | _ => false

/-- What a step says of its failure, if it failed; only a dictionary has `get`. -/
def stepFailures : Json → Except PyError (List Json)
  | .object step =>
    if hasFailed step then
      .ok (["error", "policy_denial", "loop_exhaustion"].filterMap (Dict.get step))
    else .ok []
  | _ => .error .attributeError

/-- The failures that `analyze` extracts from the data of a bundle. -/
def extractedFailures (data : Dict Json) : Except PyError (List Json) := do
  let ofSteps ← (listField data "steps").mapM stepFailures
  pure (listField data "failures" ++ ofSteps.flatten)

/-- `failure.lower()`; only a text has it. -/
def lowerFailure (L : Lowering) : Json → Except PyError Text
  | .text failure => .ok (L.lower failure.toList)
  | _ => .error .attributeError

/-- `_has_repeated_failure`. -/
def hasRepeatedFailure (failures : List Text) : Bool :=
  let normalized := (failures.map strip).filter (· ≠ [])
  decide (normalized.length ≠ normalized.dedup.length)

/-- Some failure has one of the words. -/
def anyHas (words : List String) (failures : List Text) : Bool :=
  failures.any fun failure => words.any fun word => word.toList <:+: failure

/-! ## Proposals -/

def ProposalType.value : ProposalType → String
  | addInvariant => "add_invariant"
  | strengthenInvariant => "strengthen_invariant"
  | addProofObligation => "add_proof_obligation"
  | reduceAutonomy => "reduce_autonomy"
  | restrictTool => "restrict_tool"
  | changeModelTier => "change_model_tier"
  | adjustBudget => "adjust_budget"
  | addReleaseGate => "add_release_gate"

/-- `proposal.model_dump(mode="json")`. -/
def FeedbackProposal.dump (p : FeedbackProposal) : Json := .object [
  ("proposal_type", .text p.proposalType.value), ("reason", .text p.reason),
  ("payload", .object p.payload), ("approved", .bool p.approved)]

/-- The invariant that is proposed for repeated failures. -/
def repeatedInvariant : String := "Repeated failure mode must not recur."

def repeatedObligationProposal : Checked FeedbackProposal :=
  ⟨{ proposalType := .addProofObligation
     reason := "Repeated failure requires executable proof coverage."
     payload := [("kind", .text "unit"), ("description", .text "Cover repeated failure mode.")] },
    valid_of_reason "Repeated failure requires executable proof coverage." rfl (by decide)⟩

def repeatedInvariantProposal : Checked FeedbackProposal :=
  ⟨{ proposalType := .addInvariant
     reason := "Repeated failure should become an explicit invariant."
     payload := [("category", .text "functional"), ("description", .text repeatedInvariant)] },
    valid_of_reason "Repeated failure should become an explicit invariant." rfl (by decide)⟩

def restrictToolProposal : Checked FeedbackProposal :=
  ⟨{ proposalType := .restrictTool
     reason := "Policy denial indicates the allowed tool surface should be tightened."
     payload := [("restriction", .text "review denied capability before reuse")] },
    valid_of_reason "Policy denial indicates the allowed tool surface should be tightened." rfl
      (by decide)⟩

def adjustBudgetProposal : Checked FeedbackProposal :=
  ⟨{ proposalType := .adjustBudget
     reason := "Loop or budget exhaustion requires revised execution bounds."
     payload := [("budget", .text "review loop depth and token budget")] },
    valid_of_reason "Loop or budget exhaustion requires revised execution bounds." rfl (by decide)⟩

/-- `_proposals_from_failures`. -/
def proposalsFromFailures (L : Lowering) (failures : List Json) :
    Except PyError (List (Checked FeedbackProposal)) := do
  let lowered ← failures.mapM (lowerFailure L)
  let repeated := if hasRepeatedFailure lowered then
    [repeatedObligationProposal, repeatedInvariantProposal] else []
  let denied := if anyHas ["policy", "denial", "denied"] lowered then
    [restrictToolProposal] else []
  let exhausted := if anyHas ["loop", "exhaust", "budget"] lowered then
    [adjustBudgetProposal] else []
  pure (repeated ++ denied ++ exhausted)

/-! ## Analyses -/

/-- What an analysis returns. -/
structure RetroAnalysis where
  failures : List Json
  learning : String
  proposals : List (Checked FeedbackProposal)
  entryId : String

inductive RetroError where
  | python (e : PyError)
  | memory (e : MemoryError)

/-- The gateway of an analyzer, with `str.lower`, the text of a list, `json.dumps` and `{}`. -/
structure RetroEnv (μ : Type) where
  lowering : Lowering
  listText : List Json → String
  dumps : Json → String
  redactor : Redactor
  json : JsonForm μ
  noMetadata : μ
  noMetadata_dump : (json.dump noMetadata).isSome = true

section Program

variable {μ : Type} (env : RetroEnv μ)

/-- `MemoryScope.RETROSPECTIVE`. -/
def retrospectiveScope : MemoryScope := ⟨"system", "retrospective", 8192⟩

/-- The entry of an analysis, as it is given to the gateway. -/
def RetroAnalysis.entry (a : RetroAnalysis) : MemoryEntry μ where
  id := a.entryId
  scope := retrospectiveScope
  content := env.dumps (.object [("failures", .array a.failures), ("learning", .text a.learning),
    ("proposals", .array (a.proposals.map fun p => p.1.dump))])
  metadata := env.noMetadata

/-- The entry as the gateway stores it. -/
def RetroAnalysis.stored (a : RetroAnalysis) : MemoryEntry μ :=
  { a.entry env with content := env.redactor.redact (a.entry env).content }

/-- What an analysis finds in the data, before it is stored. -/
def retroAnalysis (data : Dict Json) (entryId : String) : Except PyError RetroAnalysis := do
  let failures ← extractedFailures data
  let proposals ← proposalsFromFailures env.lowering failures
  let learning := s!"Analyzed bundle. Extracted {failures.length} failure modes: " ++
    env.listText failures
  pure ⟨failures, learning, proposals, entryId⟩

/-- `RetroAnalyzer.analyze`, with the new id. -/
def analyze (memory : LocalMemoryStore μ) (data : Dict Json) (entryId : String) :
    Except RetroError RetroAnalysis × LocalMemoryStore μ :=
  match retroAnalysis env data entryId with
  | .error e => (.error (.python e), memory)
  | .ok a =>
    match storeMemory env.redactor env.json memory (a.entry env) with
    | (.error e, memory) => (.error (.memory e), memory)
    | (.ok _, memory) => (.ok a, memory)

/-! ## Rounds -/

/-- The document and the memory. -/
structure FeedbackLoop (μ : Type) where
  eip : Checked EIP
  memory : LocalMemoryStore μ

/-- What is looked at, and which proposals a person then approves. -/
inductive FeedbackRound where
  | bundle (data : Dict Json) (entryId : String) (approve : FeedbackProposal → Bool)
  | release (outcome : ReleaseEvent) (approve : FeedbackProposal → Bool)

/-- The id that a round gives out. -/
def FeedbackRound.entryId : FeedbackRound → Option String
  | bundle _ entryId _ => some entryId
  | release .. => none

/-- What a round came to: the analysis, if there was one, and the proposals as they were decided. -/
structure RoundResult where
  analysis : Option RetroAnalysis
  decided : List FeedbackProposal

/-- The proposals of a round. -/
def feedbackProposals (memory : LocalMemoryStore μ) :
    FeedbackRound → Except RetroError (Option RetroAnalysis × List (Checked FeedbackProposal)) ×
      LocalMemoryStore μ
  | .bundle data entryId _ =>
    match analyze env memory data entryId with
    | (.error e, memory) => (.error e, memory)
    | (.ok a, memory) => (.ok (some a, a.proposals), memory)
  | .release outcome _ => (.ok (none, proposalsFromReleaseOutcome env.lowering outcome), memory)

/-- Which proposals the person approves. -/
def FeedbackRound.approve : FeedbackRound → FeedbackProposal → Bool
  | bundle _ _ approve => approve
  | release _ approve => approve

/-- The proposal as the person leaves it. -/
def FeedbackRound.judge (r : FeedbackRound) (p : Checked FeedbackProposal) : FeedbackProposal :=
  { p.1 with approved := r.approve p.1 }

/-- A round: proposals, decisions, and the document with the approved ones applied. -/
def feedbackRound (otherAttribute : String → Json → Except PyError Unit) (s : FeedbackLoop μ)
    (r : FeedbackRound) : Except RetroError RoundResult × FeedbackLoop μ :=
  match feedbackProposals env s.memory r with
  | (.error e, memory) => (.error e, ⟨s.eip, memory⟩)
  | (.ok (analysis, proposals), memory) =>
    match applyApprovedProposals otherAttribute s.eip (proposals.map r.judge) with
    | .error e => (.error (.python e), ⟨s.eip, memory⟩)
    | .ok (_, eip) => (.ok ⟨analysis, proposals.map r.judge⟩, ⟨eip, memory⟩)

end Program

/-! ## What may be proposed -/

/-- A proposal of an analysis, however it was decided. -/
def Proposed (p : FeedbackProposal) : Prop :=
  ∃ q : Checked FeedbackProposal,
    (q ∈ [repeatedObligationProposal, repeatedInvariantProposal, restrictToolProposal,
      adjustBudgetProposal, telemetryProposal] ∨ ∃ metric, q = releaseGateProposal metric) ∧
    p = { q.1 with approved := p.approved }

/-- The amendments that proposals of an analysis ask for. -/
inductive Amendment.Automatic : Amendment → Prop
  | nothing : Automatic .nothing
  | obligation (kind : ProofKind) (description : String) :
    Automatic (.obligation none kind description)
  | invariant : Automatic (.invariant .functional repeatedInvariant)

section Proposed

variable {p : FeedbackProposal}

/-- A proposal that amends no document has a valid payload, and asks for nothing. -/
theorem idle_proposal (hinvariant : p.addsInvariant = false)
    (hobligation : p.addsObligation = false) : p.ValidPayload ∧ p.amendment = .nothing := by
  refine ⟨⟨fun h => ?_, fun h => ?_⟩, ?_⟩
  · rw [hinvariant] at h
    cases h
  · rw [hobligation] at h
    cases h
  · unfold FeedbackProposal.amendment
    rw [hinvariant, hobligation]
    simp

/-- An obligation without an id, with the kind and the description of its payload. -/
theorem obligation_proposal {kind : ProofKind} {description : String}
    (htype : p.proposalType = .addProofObligation)
    (hpayload : p.payload = [("kind", .text kind.value), ("description", .text description)]) :
    p.ValidPayload ∧ p.amendment =
      if p.approved = false then .nothing else .obligation none kind description := by
  have hinvariant : p.addsInvariant = false := by
    unfold FeedbackProposal.addsInvariant
    rw [htype]
    rfl
  have hobligation : p.addsObligation = true := by
    unfold FeedbackProposal.addsObligation
    rw [htype]
    rfl
  have hid : p.givenId = none := by
    unfold FeedbackProposal.givenId
    rw [hpayload]
    rfl
  have hkind : p.kind = .text kind.value := by
    unfold FeedbackProposal.kind
    rw [hpayload]
    rfl
  have hdescription : p.description = .text description := by
    unfold FeedbackProposal.description
    rw [hpayload]
    rfl
  refine ⟨⟨fun h => ?_, fun _ => ⟨fun j hj => ?_, kind, description, hkind, hdescription⟩⟩, ?_⟩
  · rw [hinvariant] at h
    cases h
  · rw [hid] at hj
    cases hj
  · unfold FeedbackProposal.amendment
    rw [hinvariant, hobligation, hid, hkind, hdescription, readKind_value]
    rfl

/-- The invariant for repeated failures. -/
theorem invariant_proposal (htype : p.proposalType = .addInvariant)
    (hpayload : p.payload =
      [("category", .text "functional"), ("description", .text repeatedInvariant)]) :
    p.ValidPayload ∧ p.amendment =
      if p.approved = false then .nothing else .invariant .functional repeatedInvariant := by
  have hinvariant : p.addsInvariant = true := by
    unfold FeedbackProposal.addsInvariant
    rw [htype]
    rfl
  have hobligation : p.addsObligation = false := by
    unfold FeedbackProposal.addsObligation
    rw [htype]
    rfl
  have hcategory : p.category = .text InvariantCategory.functional.name := by
    unfold FeedbackProposal.category
    rw [hpayload]
    rfl
  have hdescription : p.description = .text repeatedInvariant := by
    unfold FeedbackProposal.description
    rw [hpayload]
    rfl
  refine ⟨⟨fun _ => ⟨.functional, repeatedInvariant, hcategory, hdescription⟩, fun h => ?_⟩, ?_⟩
  · rw [hobligation] at h
    cases h
  · unfold FeedbackProposal.amendment
    rw [hinvariant, hcategory, hdescription]
    simp only [InvariantCategory.ofName_name]
    rfl

/-- **Whatever is proposed can be applied**, and asks for an amendment of one of three kinds. -/
theorem Proposed.applies (h : Proposed p) : p.ValidPayload ∧ p.amendment.Automatic := by
  have hidle (hinvariant : p.addsInvariant = false) (hobligation : p.addsObligation = false) :
      p.ValidPayload ∧ p.amendment.Automatic := by
    obtain ⟨hvalid, hamendment⟩ := idle_proposal hinvariant hobligation
    exact ⟨hvalid, hamendment ▸ .nothing⟩
  have hobliged (kind : ProofKind) (description : String)
      (htype : p.proposalType = .addProofObligation)
      (hpayload : p.payload = [("kind", .text kind.value), ("description", .text description)]) :
      p.ValidPayload ∧ p.amendment.Automatic := by
    obtain ⟨hvalid, hamendment⟩ := obligation_proposal htype hpayload
    refine ⟨hvalid, ?_⟩
    rw [hamendment]
    split
    · exact .nothing
    · exact .obligation kind description
  obtain ⟨q, hq | ⟨metric, rfl⟩, hp⟩ := h
  · simp only [List.mem_cons, List.not_mem_nil, or_false] at hq
    rcases hq with rfl | rfl | rfl | rfl | rfl
    · exact hobliged .unit "Cover repeated failure mode." (by rw [hp]; rfl) (by rw [hp]; rfl)
    · obtain ⟨hvalid, hamendment⟩ := invariant_proposal (p := p) (by rw [hp]; rfl) (by rw [hp]; rfl)
      refine ⟨hvalid, ?_⟩
      rw [hamendment]
      split
      · exact .nothing
      · exact .invariant
    · exact hidle (by rw [hp]; rfl) (by rw [hp]; rfl)
    · exact hidle (by rw [hp]; rfl) (by rw [hp]; rfl)
    · exact hobliged .telemetry "Prove release telemetry is integrated before promotion."
        (by rw [hp]; rfl) (by rw [hp]; rfl)
  · exact hidle (by rw [hp]; rfl) (by rw [hp]; rfl)

end Proposed

/-! ## What automatic amendments come to -/

/-- The obligation that an amendment asks for. -/
def Amendment.obliges : Amendment → Option (ProofKind × String)
  | .obligation _ kind description => some (kind, description)
  | _ => none

section Amended

variable {ms : List Amendment}

/-- Every obligation that is asked for is there, under an id that was free. -/
theorem obligations_amendAll (h : ∀ m ∈ ms, m.Automatic) (e : EIP) : ∃ added,
    (e.amendAll ms).proofObligations = e.proofObligations ++ added ∧
      (added.map ProofObligation.id).Nodup ∧ (∀ o ∈ added, o.id ∉ e.obligationIds) ∧
      added.map (fun o => (o.kind, o.description)) = ms.filterMap Amendment.obliges := by
  induction ms generalizing e with
  | nil =>
    refine ⟨[], (List.append_nil _).symm, List.nodup_nil, fun o ho => ?_, rfl⟩
    exact absurd ho List.not_mem_nil
  | cons m rest ih =>
    obtain ⟨added, hadded, hnodup, hfree, hasked⟩ :=
      ih (fun x hx => h x (List.mem_cons_of_mem m hx)) (e.amend m)
    have hm := h m (List.mem_cons_self ..)
    show ∃ added, ((e.amend m).amendAll rest).proofObligations = _ ∧ _
    cases hm with
    | nothing => exact ⟨added, hadded, hnodup, hfree, hasked⟩
    | invariant =>
      have hsame : (e.amend (.invariant .functional repeatedInvariant)).proofObligations =
          e.proofObligations := by
        unfold EIP.amend
        dsimp only
        split
        · rfl
        · rfl
      refine ⟨added, hsame ▸ hadded, hnodup, fun o ho => ?_, hasked⟩
      have hids := hfree o ho
      unfold EIP.obligationIds at hids ⊢
      rwa [hsame] at hids
    | obligation kind description =>
      -- the first of the new ones has a free id, and the others have others
      have hnew := nextObligationId_free e.obligationIds
      have hfirst : (e.amend (.obligation none kind description)).proofObligations =
          e.proofObligations ++ [⟨nextObligationId e.obligationIds, kind, description⟩] := by
        unfold EIP.amend
        dsimp only [Option.getD_none]
        rw [if_neg hnew]
      have hids : (e.amend (.obligation none kind description)).obligationIds =
          e.obligationIds ++ [nextObligationId e.obligationIds] := by
        unfold EIP.obligationIds
        rw [hfirst, List.map_append]
        rfl
      refine ⟨⟨nextObligationId e.obligationIds, kind, description⟩ :: added, ?_, ?_, ?_, ?_⟩
      · rw [hadded, hfirst, List.append_assoc]
        rfl
      · refine List.nodup_cons.mpr ⟨fun hin => ?_, hnodup⟩
        obtain ⟨o, ho, hid⟩ := List.mem_map.mp hin
        refine hfree o ho ?_
        rw [hids, hid]
        exact List.mem_append_right _ (List.mem_singleton_self _)
      · intro o ho
        rcases List.mem_cons.mp ho with rfl | ho
        · exact hnew
        · intro hin
          exact hfree o ho (hids ▸ List.mem_append_left _ hin)
      · rw [List.map_cons, hasked]
        rfl

/-- The one invariant is there once, if it was asked for or was there already. -/
theorem invariants_amendAll (h : ∀ m ∈ ms, m.Automatic) (e : EIP) (c : InvariantCategory) :
    (e.amendAll ms).invariants.get c = e.invariants.get c ++
      if c = .functional ∧ .invariant .functional repeatedInvariant ∈ ms ∧
        repeatedInvariant ∉ e.invariants.functional then [repeatedInvariant] else [] := by
  induction ms generalizing e with
  | nil => simp [EIP.amendAll]
  | cons m rest ih =>
    have hrest := ih (fun x hx => h x (List.mem_cons_of_mem m hx)) (e.amend m)
    have hm := h m (List.mem_cons_self ..)
    show ((e.amend m).amendAll rest).invariants.get c = _
    rw [hrest]
    cases hm with
    | nothing =>
      have hmem : .invariant .functional repeatedInvariant ∈ Amendment.nothing :: rest ↔
          .invariant .functional repeatedInvariant ∈ rest := by simp
      exact congrArg _ (if_congr (and_congr_right' (and_congr_left' hmem.symm)) rfl rfl)
    | obligation kind description =>
      have hmem : .invariant .functional repeatedInvariant ∈
          Amendment.obligation none kind description :: rest ↔
            .invariant .functional repeatedInvariant ∈ rest := by simp
      have hsame : (e.amend (.obligation none kind description)).invariants = e.invariants := by
        unfold EIP.amend
        dsimp only
        split
        · rfl
        · rfl
      rw [hsame]
      exact congrArg _ (if_congr (and_congr_right' (and_congr_left' hmem.symm)) rfl rfl)
    | invariant =>
      by_cases hthere : repeatedInvariant ∈ e.invariants.functional
      · have hsame : e.amend (.invariant .functional repeatedInvariant) = e := if_pos hthere
        rw [hsame, if_neg fun hnone => hnone.2.2 hthere, if_neg fun hnone => hnone.2.2 hthere]
      · have hnew : (e.amend (.invariant .functional repeatedInvariant)).invariants =
            e.invariants.append .functional repeatedInvariant := by
          unfold EIP.amend
          dsimp only
          exact congrArg EIP.invariants (if_neg hthere)
        have hin : repeatedInvariant ∈
            (e.invariants.append .functional repeatedInvariant).functional :=
          List.mem_append_right _ (List.mem_singleton_self _)
        rw [hnew, if_neg fun hnone => hnone.2.2 hin, List.append_nil, Invariants.get_append]
        have hfirst : .invariant .functional repeatedInvariant ∈
            Amendment.invariant .functional repeatedInvariant :: rest := List.mem_cons_self ..
        exact congrArg _ (if_congr ⟨fun hc => ⟨hc, hfirst, hthere⟩, And.left⟩ rfl rfl)

end Amended
/-! ## One round -/

section Round

variable {μ : Type} {env : RetroEnv μ}

theorem mem_optional {α : Type} {p : Prop} [Decidable p] {a : α} {values : List α}
    (h : a ∈ if p then values else []) : a ∈ values := by
  split at h
  · exact h
  · exact absurd h List.not_mem_nil

/-- An analysis proposes some of four proposals. -/
theorem proposed_of_failures {failures : List Json} {proposals : List (Checked FeedbackProposal)}
    (h : proposalsFromFailures env.lowering failures = .ok proposals) :
    ∀ q ∈ proposals, q ∈ [repeatedObligationProposal, repeatedInvariantProposal,
      restrictToolProposal, adjustBudgetProposal, telemetryProposal] := by
  unfold proposalsFromFailures at h
  cases hlowered : failures.mapM (lowerFailure env.lowering) with
  | error e =>
    rw [hlowered] at h
    cases h
  | ok lowered =>
    rw [hlowered] at h
    obtain rfl := Except.ok.inj h
    intro q hq
    rcases List.mem_append.mp hq with hq | hq
    · rcases List.mem_append.mp hq with hq | hq
      · have hin := mem_optional hq
        simp only [List.mem_cons, List.not_mem_nil, or_false] at hin ⊢
        rcases hin with rfl | rfl <;> simp
      · rw [List.mem_singleton.mp (mem_optional hq)]
        simp
    · rw [List.mem_singleton.mp (mem_optional hq)]
      simp

/-- A refused release makes one of two proposals. -/
theorem proposed_of_release {L : Lowering} {outcome : ReleaseEvent} :
    ∀ q ∈ proposalsFromReleaseOutcome L outcome,
      q = telemetryProposal ∨ ∃ metric, q = releaseGateProposal metric := by
  intro q hq
  unfold proposalsFromReleaseOutcome at hq
  split at hq
  · exact absurd hq List.not_mem_nil
  · dsimp only at hq
    split at hq
    · exact Or.inl (List.mem_singleton.mp hq)
    · exact Or.inr ⟨_, List.mem_singleton.mp (mem_optional hq)⟩

/-- With a new id the gateway adds the entry at the end, or raises and adds nothing. -/
theorem storeMemory_cases {memory : LocalMemoryStore μ} (hmemory : Kept env.json memory)
    {a : RetroAnalysis} (hid : a.entryId ∉ memory.entries.map Prod.fst) :
    (∃ e, storeMemory env.redactor env.json memory (a.entry env) = (.error e, memory)) ∨
    ∃ memory', storeMemory env.redactor env.json memory (a.entry env) = (.ok (), memory') ∧
      memory'.entries = memory.entries ++ [(a.entryId, a.stored env)] ∧
      Kept env.json memory' := by
  have hkept := @Kept.save μ env.json memory hmemory (a.stored env) env.noMetadata_dump
  have hentries := @save_entries μ env.json memory (a.stored env)
  show (∃ e, memory.save env.json (a.stored env) = (.error e, memory)) ∨
    ∃ memory', memory.save env.json (a.stored env) = (.ok (), memory') ∧ _
  cases hfits : (a.stored env).fits with
  | false => exact Or.inl ⟨_, if_pos hfits⟩
  | true =>
    rw [if_pos hfits] at hentries
    have hnew : Dict.set memory.entries (a.stored env).id (a.stored env) =
        memory.entries ++ [(a.entryId, a.stored env)] := Dict.set_of_absent _ hid
    refine Or.inr ⟨_, Prod.ext ?_ rfl, hentries.trans hnew, hkept⟩
    -- what is kept can be written
    obtain ⟨d, hd, -⟩ := hkept.synced
    rw [hentries] at hd
    unfold LocalMemoryStore.save LocalMemoryStore.persist
    rw [if_neg (by rw [hfits]; decide)]
    dsimp only
    cases memory.filePath with
    | none => rfl
    | some path =>
      dsimp only
      rw [hd]

theorem analyze_cases {memory : LocalMemoryStore μ} (hmemory : Kept env.json memory)
    {data : Dict Json} {entryId : String} (hid : entryId ∉ memory.entries.map Prod.fst) :
    (∃ e, analyze env memory data entryId = (.error e, memory)) ∨
    ∃ a memory', analyze env memory data entryId = (.ok a, memory') ∧ a.entryId = entryId ∧
      (∃ failures, proposalsFromFailures env.lowering failures = .ok a.proposals) ∧
      memory'.entries = memory.entries ++ [(a.entryId, a.stored env)] ∧
      Kept env.json memory' := by
  unfold analyze retroAnalysis
  cases hfailures : extractedFailures data with
  | error e => exact Or.inl ⟨_, rfl⟩
  | ok failures =>
    cases hproposals : proposalsFromFailures env.lowering failures with
    | error e =>
      refine Or.inl ⟨.python e, ?_⟩
      dsimp only [Bind.bind, Except.bind]
      rw [hproposals]
    | ok proposals =>
      have hstored := @storeMemory_cases μ env memory hmemory ⟨failures,
        s!"Analyzed bundle. Extracted {failures.length} failure modes: " ++
          env.listText failures, proposals, entryId⟩ hid
      dsimp only [Bind.bind, Except.bind]
      rw [hproposals]
      dsimp only [pure, Except.pure]
      rcases hstored with ⟨e, hstore⟩ | ⟨memory', hstore, hentries, hkept⟩
      · rw [hstore]
        exact Or.inl ⟨_, rfl⟩
      · rw [hstore]
        exact Or.inr ⟨_, memory', rfl, rfl, ⟨failures, hproposals⟩, hentries, hkept⟩

/-- The id of the round is not in the memory. -/
def FeedbackRound.New (r : FeedbackRound) (memory : LocalMemoryStore μ) : Prop :=
  ∀ id ∈ r.entryId, id ∉ memory.entries.map Prod.fst

/-- The entry that a round leaves in the memory, under its id. -/
def RoundResult.entries (env : RetroEnv μ) (result : RoundResult) : Dict (MemoryEntry μ) :=
  result.analysis.toList.map fun a => (a.entryId, a.stored env)

/-- The proposals of a round, as they were decided, are proposals of an analysis; the memory has
    got the entry of the analysis. -/
theorem feedbackProposals_cases {memory : LocalMemoryStore μ} (hmemory : Kept env.json memory)
    {r : FeedbackRound} (hnew : r.New memory) :
    (∃ e, feedbackProposals env memory r = (.error e, memory)) ∨
    ∃ analysis proposals memory', feedbackProposals env memory r =
        (.ok (analysis, proposals), memory') ∧
      (∀ q ∈ proposals, Proposed (r.judge q)) ∧ Kept env.json memory' ∧
      analysis.map RetroAnalysis.entryId = r.entryId ∧
      memory'.entries = memory.entries ++ RoundResult.entries env ⟨analysis, []⟩ := by
  cases r with
  | bundle data entryId approve =>
    have hanalysis := @analyze_cases μ env memory hmemory data entryId (hnew entryId rfl)
    unfold feedbackProposals
    dsimp only
    rcases hanalysis with
      ⟨e, h⟩ | ⟨a, memory', h, hid, ⟨failures, hproposals⟩, hentries, hkept⟩
    · rw [h]
      exact Or.inl ⟨e, rfl⟩
    · rw [h]
      refine Or.inr ⟨some a, a.proposals, memory', rfl, fun q hq => ?_, hkept,
        congrArg some hid, hentries⟩
      exact ⟨q, Or.inl (proposed_of_failures hproposals q hq), rfl⟩
  | release outcome approve =>
    refine Or.inr ⟨none, _, memory, rfl, fun q hq => ⟨q, ?_, rfl⟩, hmemory, rfl,
      (List.append_nil _).symm⟩
    rcases proposed_of_release q hq with rfl | hgate
    · exact Or.inl (by simp)
    · exact Or.inr hgate

/-- **One round** raises and leaves everything alone, or makes the amendments of its proposals and
    adds the entry of its analysis. -/
theorem round_cases (otherAttribute : String → Json → Except PyError Unit) {s : FeedbackLoop μ}
    (hmemory : Kept env.json s.memory) {r : FeedbackRound} (hnew : r.New s.memory) :
    (∃ e, feedbackRound env otherAttribute s r = (.error e, s)) ∨
    ∃ result s', feedbackRound env otherAttribute s r = (.ok result, s') ∧
      (∀ p ∈ result.decided, Proposed p) ∧ Kept env.json s'.memory ∧
      result.analysis.map RetroAnalysis.entryId = r.entryId ∧
      s'.eip.1 = s.eip.1.amendAll (result.decided.map FeedbackProposal.amendment) ∧
      s'.memory.entries = s.memory.entries ++ result.entries env := by
  unfold feedbackRound
  rcases feedbackProposals_cases hmemory hnew with
    ⟨e, h⟩ | ⟨analysis, proposals, memory', h, hproposed, hkept, hid, hentries⟩
  · rw [h]
    exact Or.inl ⟨e, rfl⟩
  · have hdecided : ∀ p ∈ proposals.map r.judge, Proposed p := by
      intro p hp
      obtain ⟨q, hq, rfl⟩ := List.mem_map.mp hp
      exact hproposed q hq
    obtain ⟨eip, happlied, heip⟩ := @applyApprovedProposals_ok otherAttribute s.eip
      (proposals.map r.judge) fun p hp => (hdecided p hp).applies.1
    rw [h]
    dsimp only
    rw [happlied]
    exact Or.inr ⟨⟨analysis, proposals.map r.judge⟩, ⟨eip, memory'⟩, rfl, hdecided, hkept, hid,
      heip, hentries⟩

end Round

/-! ## Accounts -/

section Accounts

variable {μ : Type} {env : RetroEnv μ}

/-- The proposals that were decided in the rounds that returned. -/
def decidedIn (results : List RoundResult) : List FeedbackProposal :=
  results.flatMap RoundResult.decided

/-- Over a run the document is amended by what was decided, and the memory grows by what was
    analysed. -/
theorem rounds_run (otherAttribute : String → Json → Except PyError Unit) (s : FeedbackLoop μ)
    (hmemory : Kept env.json s.memory) (rounds : List FeedbackRound)
    (hids : (rounds.filterMap FeedbackRound.entryId).Nodup)
    (hnew : ∀ r ∈ rounds, r.New s.memory) :
    let final := Attempts.run (feedbackRound env otherAttribute) s rounds
    let results := Attempts.answered (feedbackRound env otherAttribute) s rounds
    (∀ p ∈ decidedIn results, Proposed p) ∧
      final.eip.1 = s.eip.1.amendAll ((decidedIn results).map FeedbackProposal.amendment) ∧
      final.memory.entries = s.memory.entries ++ results.flatMap (RoundResult.entries env) := by
  induction rounds generalizing s with
  | nil =>
    exact ⟨fun p hp => absurd hp List.not_mem_nil, rfl, (List.append_nil _).symm⟩
  | cons r rest ih =>
    intro final results
    have hfirst := hnew r (List.mem_cons_self ..)
    have hidsrest : (rest.filterMap FeedbackRound.entryId).Nodup :=
      hids.sublist ((List.sublist_cons_self r rest).filterMap _)
    rcases round_cases otherAttribute hmemory hfirst with
      ⟨e, h⟩ | ⟨result, s', h, hproposed, hkept, hid, heip, hentries⟩
    · -- the round raised
      have hnext : Attempts.next (feedbackRound env otherAttribute) s r = s := by
        unfold Attempts.next
        rw [h]
      have hresults : results = Attempts.answered (feedbackRound env otherAttribute) s rest := by
        show (feedbackRound env otherAttribute s r).1.toOption.toList ++ Attempts.answered _
          (Attempts.next (feedbackRound env otherAttribute) s r) rest = _
        rw [hnext, h]
        rfl
      have hfinal : final = Attempts.run (feedbackRound env otherAttribute) s rest := by
        show Attempts.run _ (Attempts.next (feedbackRound env otherAttribute) s r) rest = _
        rw [hnext]
      rw [hresults, hfinal]
      exact ih s hmemory hidsrest fun x hx => hnew x (List.mem_cons_of_mem r hx)
    · have hnext : Attempts.next (feedbackRound env otherAttribute) s r = s' := by
        unfold Attempts.next
        rw [h]
      have hresults : results =
          result :: Attempts.answered (feedbackRound env otherAttribute) s' rest := by
        show (feedbackRound env otherAttribute s r).1.toOption.toList ++ Attempts.answered _
          (Attempts.next (feedbackRound env otherAttribute) s r) rest = _
        rw [hnext, h]
        rfl
      have hfinal : final = Attempts.run (feedbackRound env otherAttribute) s' rest := by
        show Attempts.run _ (Attempts.next (feedbackRound env otherAttribute) s r) rest = _
        rw [hnext]
      -- a later id is neither in the memory nor the one of this round
      have hnewrest : ∀ x ∈ rest, x.New s'.memory := by
        intro x hx id hxid hin
        rw [hentries, List.map_append] at hin
        rcases List.mem_append.mp hin with hin | hin
        · exact hnew x (List.mem_cons_of_mem r hx) id hxid hin
        · have hthis : r.entryId = some id := by
            rw [← hid]
            unfold RoundResult.entries at hin
            cases ha : result.analysis with
            | none =>
              rw [ha] at hin
              exact absurd hin List.not_mem_nil
            | some a =>
              rw [ha] at hin
              exact congrArg some (List.mem_singleton.mp hin).symm
          rw [List.filterMap_cons_some hthis] at hids
          exact (List.nodup_cons.mp hids).1 (List.mem_filterMap.mpr ⟨x, hx, hxid⟩)
      obtain ⟨hall, heips, hmemories⟩ := ih s' hkept hidsrest hnewrest
      rw [hresults, hfinal]
      refine ⟨fun p hp => ?_, ?_, ?_⟩
      · rcases List.mem_append.mp hp with hp | hp
        · exact hproposed p hp
        · exact hall p hp
      · rw [heips, heip]
        show _ = EIP.amendAll _ ((result.decided ++ decidedIn _).map _)
        rw [List.map_append]
        exact List.foldl_append.symm
      · rw [hmemories, hentries, List.append_assoc]
        rfl

end Accounts

/-! ## Two analyses of one failure -/

/-- An analyzer that lower-cases as in ASCII and redacts nothing. -/
def sampleRetro : RetroEnv Unit where
  lowering := asciiLowering
  listText _ := "['Timeout', 'timeout ']"
  dumps _ := "\x7b\x7d"
  redactor := ⟨[]⟩
  json := unitJson
  noMetadata := ()
  noMetadata_dump := rfl

/-- A bundle with one failure, told twice. -/
def repeatedBundle : Dict Json :=
  [("failures", .array [.text "Timeout", .text "timeout "])]

/-- Everything is approved, twice. -/
def repeatedRounds : List FeedbackRound :=
  [.bundle repeatedBundle "entry-1" fun _ => true, .bundle repeatedBundle "entry-2" fun _ => true]

/-- A document with an empty memory. -/
def sampleLoop : FeedbackLoop Unit := ⟨⟨feedbackEip, feedbackEip_valid⟩, emptyMemory Unit none⟩

/-- The amendments of the two rounds. -/
def sampleAsked : List Amendment :=
  (decidedIn (Attempts.answered (feedbackRound sampleRetro fun _ _ => .error .attributeError)
    sampleLoop repeatedRounds)).map FeedbackProposal.amendment

theorem sampleAsked_eq : sampleAsked =
    [.obligation none .unit "Cover repeated failure mode.",
      .invariant .functional repeatedInvariant,
      .obligation none .unit "Cover repeated failure mode.",
      .invariant .functional repeatedInvariant] := by
  decide +kernel

/-- What is left of the document after the two rounds. -/
def sampleFinal : EIP :=
  (Attempts.run (feedbackRound sampleRetro fun _ _ => .error .attributeError) sampleLoop
    repeatedRounds).eip.1

end Vad
