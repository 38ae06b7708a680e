/-
  What feedback makes of a refused release (`vad/feedback/analyzer.py`).

  1. **The code** — the orchestrator records why a release was refused as a text
     (`VADOrchestrator.evaluateRelease`), and the analyzer looks for a phrase in the lower-cased text
     and for the metric between the first two quotes (`proposalsFromReleaseOutcome`).

  2. **The texts** — the candidate or the metric stands in quotes, so that a phrase occurs in what
     is written around it or in the name itself (`mentions_flagOff_iff`, `mentions_rollback_iff`), and the
     metric is read back unless it has a quote or is blank (`extractReleaseMetric_message`).

  3. **Result** — feedback understands a refused release exactly when no phrase of the other causes
     occurs in the name that the text quotes, and the name of a metric is readable
     (`understood_iff`).
-/
import Vad.Feedback.Proposals
import Vad.Lib.CanonicalJson
import Vad.Lib.Lower
import Vad.Loop.Orchestrator

namespace Vad

open PyText

/-! ## The analyzer -/

/-- The metric of a text, `_extract_release_metric`. -/
def extractReleaseMetric (error : String) : String :=
  match error.toList.splitOn '\'' with
  | _ :: part :: _ :: _ => if strip part ≠ [] then String.ofList part else "release_health"
  | _ => "release_health"

/-- A proposal is valid if it gives a reason. -/
theorem valid_of_reason {p : FeedbackProposal} (reason : String) (hreason : p.reason = reason)
    (h : 0 < reason.toList.length) : Model.Valid p :=
  ⟨rfl, failedFields_eq_nil.mpr fun c hc => by
    rw [List.mem_singleton.mp hc]
    exact decide_eq_true (hreason ▸ h)⟩

/-- The proposal for missing telemetry. -/
def telemetryProposal : Checked FeedbackProposal :=
  ⟨{ proposalType := .addProofObligation
     reason := "Release failed because telemetry evidence was missing."
     payload := [("kind", .text "telemetry"),
       ("description", .text "Prove release telemetry is integrated before promotion.")] },
    valid_of_reason "Release failed because telemetry evidence was missing." rfl
      (by decide)⟩

/-- The proposal for a rollback. -/
def releaseGateProposal (metric : String) : Checked FeedbackProposal :=
  ⟨{ proposalType := .addReleaseGate
     reason := "Rollback outcome should become an explicit release gate."
     payload := [("metric", .text metric),
       ("description", .text ("Gate release promotion on " ++ metric ++ " telemetry."))] },
    valid_of_reason "Rollback outcome should become an explicit release gate." rfl
      (by decide)⟩

/-- A phrase occurs in the lower-cased text. -/
def mentions (L : Lowering) (phrase error : String) : Prop :=
  phrase.toList <:+: L.lower error.toList

instance (L : Lowering) (phrase error : String) : Decidable (mentions L phrase error) :=
  inferInstanceAs (Decidable (_ <:+: _))

/-- `proposals_from_release_outcome`. -/
def proposalsFromReleaseOutcome (L : Lowering) (releaseOutcome : ReleaseEvent) :
    List (Checked FeedbackProposal) :=
  if releaseOutcome.decision ≠ "failed" then []
  else
    let error := releaseOutcome.error.getD ""
    if mentions L "missing telemetry" error then [telemetryProposal]
    else if mentions L "rollback triggered" error then
      [releaseGateProposal (extractReleaseMetric error)]
    else []

/-- How Python writes a number: with the characters of numbers. -/
structure FloatWriter where
  repr : Rat → String
  chars : ∀ q, ∀ c ∈ (repr q).toList, CanonicalJson.isNumberChar c = true

/-! ## Why a release is refused -/

inductive Cause where
  | missingTelemetry | flagOff
  | gateBelow (metric : String)
deriving DecidableEq, Repr

/-- Telemetry comes first, then the flag, then the first measured gate below its threshold. -/
inductive ReleaseManager.Refused (m : ReleaseManager) (name : String) (metrics : Metrics) :
    Bool → Cause → Prop where
  | missingTelemetry : m.Refused name metrics false .missingTelemetry
  | flagOff : m.flags.isEnabled name = false → m.Refused name metrics true .flagOff
  | gateBelow {front back : List RolloutGate} {gate : RolloutGate} {value : Rat} :
    m.flags.isEnabled name = true → m.gates = front ++ gate :: back →
      (∀ g ∈ front, g.Measured metrics → g.Met metrics) →
      Dict.get metrics gate.metricName = some value → value < gate.minimumHealthThreshold →
        m.Refused name metrics true (.gateBelow gate.metricName)

/-- The loop over the gates stops at the first measured gate below its threshold. -/
theorem checkGates_stop {metrics : Metrics} {front back : List RolloutGate} {gate : RolloutGate}
    {value : Rat} (hfront : ∀ g ∈ front, g.Measured metrics → g.Met metrics)
    (hvalue : Dict.get metrics gate.metricName = some value)
    (hbelow : value < gate.minimumHealthThreshold) :
    checkGates metrics (front ++ gate :: back) =
      .error (.rollback gate.metricName value gate.minimumHealthThreshold) := by
  induction front with
  | nil =>
    rw [List.nil_append, checkGates, hvalue]
    exact if_pos hbelow
  | cons g front ih =>
    have hrest := ih fun g' hg' => hfront g' (List.mem_cons_of_mem g hg')
    rw [List.cons_append, checkGates]
    cases hg : Dict.get metrics g.metricName with
    | none => exact hrest
    | some v =>
      have hmeasured : g.Measured metrics := by
        unfold RolloutGate.Measured
        rw [hg]
        rfl
      obtain ⟨v', hv', hle⟩ := hfront g (List.mem_cons_self ..) hmeasured
      obtain rfl : v = v' := Option.some.inj (hg.symm.trans hv')
      show (if v < g.minimumHealthThreshold then _ else _) = _
      rw [if_neg (Rat.not_lt.mpr hle)]
      exact hrest

section Refused

variable {m : ReleaseManager} {name : String} {metrics : Metrics} {hasTelemetry : Bool}

/-- What is raised for a cause: the text names the candidate, or the metric. -/
def RaisedFor (name : String) (e : ReleaseError) : Cause → Prop
  | .missingTelemetry => e = .missingTelemetry name
  | .flagOff => e = .flagOff name
  | .gateBelow metric => ∃ value threshold, e = .rollback metric value threshold

/-- A release with a cause against it raises. -/
theorem ReleaseManager.Refused.raised {cause : Cause}
    (h : m.Refused name metrics hasTelemetry cause) :
    ∃ e, m.evaluateRelease name metrics hasTelemetry = .error e ∧ RaisedFor name e cause := by
  cases h with
  | missingTelemetry => exact ⟨_, rfl, rfl⟩
  | flagOff hflag =>
    refine ⟨.flagOff name, ?_, rfl⟩
    unfold ReleaseManager.evaluateRelease
    rw [if_neg (by decide), if_pos hflag]
  | @gateBelow front back gate value hflag hgates hfront hvalue hbelow =>
    refine ⟨.rollback gate.metricName value gate.minimumHealthThreshold, ?_, value, _, rfl⟩
    unfold ReleaseManager.evaluateRelease
    rw [if_neg (by decide), if_neg (by rw [hflag]; decide), hgates,
      checkGates_stop hfront hvalue hbelow]

/-- A loop over gates that raises has stopped at such a gate. -/
theorem exists_of_checkGates_error {e : ReleaseError} {gates : List RolloutGate}
    (h : checkGates metrics gates = .error e) :
    ∃ front gate back value, gates = front ++ gate :: back ∧
      (∀ g ∈ front, g.Measured metrics → g.Met metrics) ∧
      Dict.get metrics gate.metricName = some value ∧ value < gate.minimumHealthThreshold := by
  induction gates with
  | nil => cases h
  | cons g rest ih =>
    rw [checkGates] at h
    -- a gate that does not stop the loop is not measured, or met
    have hstep (hg : g.Measured metrics → g.Met metrics)
        (hrest : checkGates metrics rest = .error e) :
        ∃ front gate back value, g :: rest = front ++ gate :: back ∧
          (∀ g ∈ front, g.Measured metrics → g.Met metrics) ∧
          Dict.get metrics gate.metricName = some value ∧
          value < gate.minimumHealthThreshold := by
      obtain ⟨front, gate, back, value, hgates, hfront, hbelow⟩ := ih hrest
      refine ⟨g :: front, gate, back, value, by rw [hgates]; rfl, ?_, hbelow⟩
      exact List.forall_mem_cons.mpr ⟨hg, hfront⟩
    cases hg : Dict.get metrics g.metricName with
    | none =>
      rw [hg] at h
      refine hstep (fun hm => ?_) h
      unfold RolloutGate.Measured at hm
      rw [hg] at hm
      cases hm
    | some value =>
      rw [hg] at h
      by_cases hbelow : value < g.minimumHealthThreshold
      · exact ⟨[], g, rest, value, rfl, fun g' hg' => absurd hg' List.not_mem_nil, hg, hbelow⟩
      · have hrest : checkGates metrics rest = .error e := (if_neg hbelow).symm.trans h
        exact hstep (fun _ => ⟨value, hg, Rat.not_lt.mp hbelow⟩) hrest

/-- A release that raises has a cause against it. -/
theorem ReleaseManager.refused_of_error {e : ReleaseError}
    (h : m.evaluateRelease name metrics hasTelemetry = .error e) :
    ∃ cause, m.Refused name metrics hasTelemetry cause := by
  cases hasTelemetry with
  | false => exact ⟨_, .missingTelemetry⟩
  | true =>
    cases hflag : m.flags.isEnabled name with
    | false => exact ⟨_, .flagOff hflag⟩
    | true =>
      unfold ReleaseManager.evaluateRelease at h
      rw [if_neg (by decide), if_neg (by rw [hflag]; decide)] at h
      cases hgates : checkGates metrics m.gates with
      | ok u =>
        rw [hgates] at h
        cases h
      | error e' =>
        obtain ⟨front, gate, back, value, hsplit, hfront, hvalue, hbelow⟩ :=
          exists_of_checkGates_error hgates
        exact ⟨_, .gateBelow hflag hsplit hfront hvalue hbelow⟩

end Refused

/-! ## The texts -/

section Texts

variable (L : Lowering) (w : FloatWriter)

/-- Lower-casing a text of ASCII characters. -/
theorem mentions_ascii_iff {phrase : Text} (hphrase : 'σ' ∉ phrase ∧ 'ς' ∉ phrase)
    (hquote : '\'' ∉ phrase) {before after : Text} (hbefore : ∀ c ∈ before, c.toNat < 128)
    (hafter : ∀ c ∈ after, c.toNat < 128) (name : Text) :
    phrase <:+: L.lower (Lowering.quoted before name after) ↔
      phrase <:+: before.map Char.toLower ∨ phrase <:+: L.lower name ∨
        phrase <:+: after.map Char.toLower := by
  rw [L.occurs_quoted_iff hphrase hquote, L.table_ascii hbefore, L.table_ascii hafter]

/-- The first two quotes of a text, when the text in front has none. -/
theorem splitOn_quoted {before name after : Text} (hbefore : '\'' ∉ before) :
    (Lowering.quoted before name after).splitOn '\'' =
      before :: (name.splitOn '\'' ++ after.splitOn '\'') := by
  have hclean : ∀ c ∈ before, (c == '\'') = false := fun c hc => by
    rw [beq_eq_false_iff_ne]
    rintro rfl
    exact hbefore hc
  unfold Lowering.quoted
  rw [List.splitOn_eq_splitOnP, List.splitOnP_append_cons_of_forall_mem hclean '\'' rfl,
    List.splitOnP_append_cons _ _ rfl]
  rfl

/-- The metric is read back unless it has a quote or is blank. -/
theorem extractReleaseMetric_quoted {error name : String} {before after : Text}
    (herror : error.toList = Lowering.quoted before name.toList after) (hbefore : '\'' ∉ before) :
    extractReleaseMetric error = name ↔ '\'' ∉ name.toList ∧ strip name.toList ≠ [] := by
  have hdefault : strip "release_health".toList ≠ [] := by decide
  have hplain : '\'' ∉ "release_health".toList := by decide
  unfold extractReleaseMetric
  rw [herror, splitOn_quoted hbefore]
  obtain ⟨part, parts, hafter⟩ := List.exists_cons_of_ne_nil (List.splitOn_ne_nil '\'' after)
  by_cases hquote : '\'' ∈ name.toList
  · -- what is read has no quote
    obtain ⟨front, back, hname, hfront⟩ := List.eq_append_cons_of_mem hquote
    have hclean : ∀ c ∈ front, (c == '\'') = false := fun c hc => by
      rw [beq_eq_false_iff_ne]
      rintro rfl
      exact hfront hc
    have hsplit : name.toList.splitOn '\'' = front :: back.splitOn '\'' := by
      rw [hname, List.splitOn_eq_splitOnP]
      exact List.splitOnP_append_cons_of_forall_mem hclean '\'' rfl back
    obtain ⟨part', parts', hback⟩ := List.exists_cons_of_ne_nil (List.splitOn_ne_nil '\'' back)
    rw [hsplit, hback]
    show (if strip front ≠ [] then String.ofList front else "release_health") = name ↔ _
    refine ⟨fun h => absurd hquote ?_, fun h => absurd hquote h.1⟩
    rw [← h]
    split
    · rw [String.toList_ofList]
      exact hfront
    · exact hplain
  · have hname : name.toList.splitOn '\'' = [name.toList] := by
      rw [List.splitOn_eq_splitOnP]
      refine List.splitOnP_eq_singleton fun c hc => ?_
      rw [beq_eq_false_iff_ne]
      rintro rfl
      exact hquote hc
    rw [hname, hafter]
    show (if strip name.toList ≠ [] then String.ofList name.toList else "release_health") = name ↔ _
    split
    · rename_i hstrip
      rw [String.ofList_toList]
      exact ⟨fun _ => ⟨hquote, hstrip⟩, fun _ => rfl⟩
    · rename_i hstrip
      refine ⟨fun h => absurd (h ▸ hdefault) hstrip, fun h => absurd h.2 hstrip⟩

/-- What the message of a rollback has behind the metric. -/
def rollbackTail (value threshold : Rat) : Text :=
  " health (".toList ++ ((w.repr value).toList ++ (") is below threshold (".toList ++
    ((w.repr threshold).toList ++ ").".toList)))

/-- A text that is put together from three has its middle part in quotes. -/
theorem toList_quoted {front name back : String} {before after : Text}
    (hfront : front.toList = before ++ ['\'']) (hback : back.toList = '\'' :: after) :
    (front ++ name ++ back).toList = Lowering.quoted before name.toList after := by
  unfold Lowering.quoted
  rw [String.toList_append, String.toList_append, hfront, hback, List.append_assoc,
    List.append_assoc]
  rfl

theorem message_missingTelemetry (name : String) :
    ((ReleaseError.missingTelemetry name).message w.repr).toList =
      Lowering.quoted "Release candidate ".toList name.toList
        " rejected: Missing telemetry integration.".toList :=
  toList_quoted (by decide) (by decide)

theorem message_flagOff (name : String) :
    ((ReleaseError.flagOff name).message w.repr).toList =
      Lowering.quoted "Release candidate ".toList name.toList
        " rejected: Feature flag is off.".toList :=
  toList_quoted (by decide) (by decide)

theorem message_rollback (metric : String) (value threshold : Rat) :
    ((ReleaseError.rollback metric value threshold).message w.repr).toList =
      Lowering.quoted "Rollback triggered: ".toList metric.toList
        (rollbackTail w value threshold) := by
  have hassoc (a m b v c t d : String) :
      a ++ m ++ b ++ v ++ c ++ t ++ d = a ++ m ++ (b ++ (v ++ (c ++ (t ++ d)))) := by
    simp only [String.append_assoc]
  have hfront : "Rollback triggered: '".toList = "Rollback triggered: ".toList ++ ['\''] := by
    decide
  have hback : "' health (".toList = '\'' :: " health (".toList := by decide
  unfold ReleaseError.message
  dsimp only
  rw [hassoc]
  refine toList_quoted hfront ?_
  simp only [String.toList_append, hback]
  rfl

/-- The characters of numbers are ASCII, and there is no `m` among them. -/
theorem number_char {c : Char} (h : CanonicalJson.isNumberChar c = true) :
    c.toNat < 128 ∧ c.toLower ≠ 'm' := by
  have hcases : c.isDigit = true ∨ c = '-' ∨ c = '+' ∨ c = '.' ∨ c = 'e' := by
    simpa [CanonicalJson.isNumberChar] using h
  rcases hcases with hdigit | rfl | rfl | rfl | rfl
  · have hrange : 48 ≤ c.toNat ∧ c.toNat < 58 := by
      simp only [Char.isDigit, Bool.and_eq_true, decide_eq_true_eq] at hdigit
      exact ⟨hdigit.1, Nat.lt_succ_of_le hdigit.2⟩
    have hlower : c.toLower = c := by
      unfold Char.toLower
      refine dif_neg fun hupper => ?_
      have h65 : 65 ≤ c.toNat := hupper.1
      omega
    refine ⟨by omega, ?_⟩
    rw [hlower]
    rintro rfl
    exact absurd hrange.2 (by decide)
  all_goals decide

theorem rollbackTail_chars (value threshold : Rat) :
    ∀ c ∈ rollbackTail w value threshold, c.toNat < 128 ∧ c.toLower ≠ 'm' := by
  have hplain : ∀ c ∈ " health (".toList ++ (") is below threshold (".toList ++ ").".toList),
      c.toNat < 128 ∧ c.toLower ≠ 'm' := by
    decide
  have hnumber (q : Rat) : ∀ c ∈ (w.repr q).toList, c.toNat < 128 ∧ c.toLower ≠ 'm' :=
    fun c hc => number_char (w.chars q c hc)
  simp only [List.forall_mem_append] at hplain
  unfold rollbackTail
  simp only [List.forall_mem_append]
  exact ⟨hplain.1, hnumber value, hplain.2.1, hnumber threshold, hplain.2.2⟩

/-- The text about missing telemetry says so, whatever the candidate is called. -/
theorem mentions_missingTelemetry (name : String) :
    mentions L "missing telemetry" ((ReleaseError.missingTelemetry name).message w.repr) := by
  unfold mentions
  rw [message_missingTelemetry, mentions_ascii_iff L (by decide) (by decide) (by decide)
    (by decide)]
  exact Or.inr (Or.inr (by decide +kernel))

/-- The text about the flag has a phrase of the others only in the name. -/
theorem mentions_flagOff_iff {phrase : String} {c : Char}
    (hphrase : 'σ' ∉ phrase.toList ∧ 'ς' ∉ phrase.toList) (hquote : '\'' ∉ phrase.toList)
    (hc : c ∈ phrase.toList) (hbefore : c ∉ "Release candidate ".toList.map Char.toLower)
    (hafter : c ∉ " rejected: Feature flag is off.".toList.map Char.toLower) (name : String) :
    mentions L phrase ((ReleaseError.flagOff name).message w.repr) ↔ mentions L phrase name := by
  unfold mentions
  rw [message_flagOff, mentions_ascii_iff L hphrase hquote (by decide) (by decide +kernel)]
  constructor
  · rintro (h | h | h)
    · exact absurd h (not_infix_of_not_mem hc hbefore)
    · exact h
    · exact absurd h (not_infix_of_not_mem hc hafter)
  · exact fun h => Or.inr (Or.inl h)

theorem mentions_rollback (metric : String) (value threshold : Rat) :
    mentions L "rollback triggered"
      ((ReleaseError.rollback metric value threshold).message w.repr) := by
  unfold mentions
  rw [message_rollback, mentions_ascii_iff L (by decide) (by decide) (by decide)
    fun c hc => (rollbackTail_chars w value threshold c hc).1]
  exact Or.inl (by decide +kernel)

/-- The text about a gate says that telemetry is missing only if the metric does. -/
theorem mentions_rollback_iff (metric : String) (value threshold : Rat) :
    mentions L "missing telemetry"
      ((ReleaseError.rollback metric value threshold).message w.repr) ↔
        mentions L "missing telemetry" metric := by
  have htail : 'm' ∉ (rollbackTail w value threshold).map Char.toLower := fun h => by
    obtain ⟨c, hc, hm⟩ := List.mem_map.mp h
    exact (rollbackTail_chars w value threshold c hc).2 hm
  unfold mentions
  rw [message_rollback, mentions_ascii_iff L (by decide) (by decide) (by decide)
    fun c hc => (rollbackTail_chars w value threshold c hc).1]
  constructor
  · rintro (h | h | h)
    · exact absurd h (by decide +kernel)
    · exact h
    · exact absurd h (not_infix_of_not_mem (by decide) htail)
  · exact fun h => Or.inr (Or.inl h)

theorem extractReleaseMetric_message {metric : String} {value threshold : Rat} :
    extractReleaseMetric ((ReleaseError.rollback metric value threshold).message w.repr) = metric ↔
      '\'' ∉ metric.toList ∧ strip metric.toList ≠ [] :=
  extractReleaseMetric_quoted (message_rollback w metric value threshold) (by decide +kernel)

end Texts

/-! ## What feedback understands -/

section Understanding

variable {ε : Type} {L : Lowering} {w : FloatWriter} {o : VADOrchestrator ε} {eip : EIP}

/-- The cause `cause` stands against the release of the EIP. -/
def VADOrchestrator.RefusedFor (o : VADOrchestrator ε) (eip : EIP) (cause : Cause) : Prop :=
  (o.gated eip).Refused eip.name o.metrics eip.telemetryRequirements.required cause

/-- The only proposal is an obligation. -/
def ProposesObligation (proposals : List (Checked FeedbackProposal)) : Prop :=
  ∃ p, proposals = [p] ∧ p.1.proposalType = .addProofObligation

/-- The only proposal is a gate for the metric. -/
def ProposesGate (proposals : List (Checked FeedbackProposal)) (metric : String) : Prop :=
  ∃ p, proposals = [p] ∧ p.1.proposalType = .addReleaseGate ∧
    Dict.get p.1.payload "metric" = some (.text metric)

/-- What the proposals say about the cause: an obligation is proposed just if telemetry was missing,
    a gate for a metric just if the metric was below its threshold, and nothing if the flag was
    off. -/
structure Cause.UnderstoodFrom (proposals : List (Checked FeedbackProposal)) (cause : Cause) :
    Prop where
  obligation : ProposesObligation proposals ↔ cause = .missingTelemetry
  gate : ∀ metric, ProposesGate proposals metric ↔ cause = .gateBelow metric
  flag : cause = .flagOff → proposals = []

/-- The event of a refused release tells feedback the cause. -/
def Understood (L : Lowering) (w : FloatWriter) (o : VADOrchestrator ε) (eip : EIP) : Prop :=
  ∀ cause, o.RefusedFor eip cause →
    cause.UnderstoodFrom (proposalsFromReleaseOutcome L (o.evaluateRelease w.repr eip).1)

/-- The quoted name has no phrase of the other causes, and a metric has no quote and is not blank. -/
def Cause.Readable (L : Lowering) (name : String) : Cause → Prop
  | .missingTelemetry => True
  | .flagOff => ¬ mentions L "missing telemetry" name ∧ ¬ mentions L "rollback triggered" name
  | .gateBelow metric => ¬ mentions L "missing telemetry" metric ∧ '\'' ∉ metric.toList ∧
    strip metric.toList ≠ []

/-- What is proposed for a release that raised. -/
theorem proposals_of_error {e : ReleaseError}
    (h : (o.gated eip).evaluateRelease eip.name o.metrics eip.telemetryRequirements.required =
      .error e) :
    proposalsFromReleaseOutcome L (o.evaluateRelease w.repr eip).1 =
      if mentions L "missing telemetry" (e.message w.repr) then [telemetryProposal]
      else if mentions L "rollback triggered" (e.message w.repr) then
        [releaseGateProposal (extractReleaseMetric (e.message w.repr))]
      else [] := by
  unfold VADOrchestrator.evaluateRelease
  rw [h]
  rfl

theorem proposesObligation_telemetry : ProposesObligation [telemetryProposal] := ⟨_, rfl, rfl⟩

theorem not_proposesGate_telemetry (metric : String) :
    ¬ ProposesGate [telemetryProposal] metric := by
  rintro ⟨p, hp, htype, -⟩
  obtain rfl := List.singleton_inj.mp hp
  cases htype

theorem not_proposesObligation_gate (metric : String) :
    ¬ ProposesObligation [releaseGateProposal metric] := by
  rintro ⟨p, hp, htype⟩
  obtain rfl := List.singleton_inj.mp hp
  cases htype

theorem proposesGate_gate_iff {metric metric' : String} :
    ProposesGate [releaseGateProposal metric] metric' ↔ metric = metric' := by
  constructor
  · rintro ⟨p, hp, -, hmetric⟩
    obtain rfl := List.singleton_inj.mp hp
    exact Json.text.inj (Option.some.inj hmetric)
  · rintro rfl
    exact ⟨_, rfl, rfl, rfl⟩

theorem not_proposesObligation_nil : ¬ ProposesObligation [] := fun ⟨_, hp, _⟩ => nomatch hp

theorem not_proposesGate_nil (metric : String) : ¬ ProposesGate [] metric :=
  fun ⟨_, hp, _⟩ => nomatch hp

/-- A cause is understood exactly if the name that the text quotes does not get in the way. -/
theorem understoodFrom_iff {cause : Cause} (h : o.RefusedFor eip cause) :
    cause.UnderstoodFrom (proposalsFromReleaseOutcome L (o.evaluateRelease w.repr eip).1) ↔
      cause.Readable L eip.name := by
  obtain ⟨e, herror, hraised⟩ := h.raised
  rw [proposals_of_error herror]
  cases cause with
  | missingTelemetry =>
    obtain rfl : e = .missingTelemetry eip.name := hraised
    rw [if_pos (mentions_missingTelemetry L w eip.name)]
    refine ⟨fun _ => trivial, fun _ => ⟨?_, fun metric => ?_, fun hflag => nomatch hflag⟩⟩
    · exact ⟨fun _ => rfl, fun _ => proposesObligation_telemetry⟩
    · exact ⟨fun hgate => absurd hgate (not_proposesGate_telemetry metric),
        fun hgate => nomatch hgate⟩
  | flagOff =>
    obtain rfl : e = .flagOff eip.name := hraised
    have hmissing := @mentions_flagOff_iff L w "missing telemetry" 'm' (by decide) (by decide)
      (by decide) (by decide) (by decide) eip.name
    have hrollback := @mentions_flagOff_iff L w "rollback triggered" 'k' (by decide) (by decide)
      (by decide) (by decide) (by decide) eip.name
    simp only [hmissing, hrollback]
    constructor
    · intro hunderstood
      have hnone := hunderstood.flag rfl
      refine ⟨fun hm => ?_, fun hr => ?_⟩
      · rw [if_pos hm] at hnone
        cases hnone
      · rw [if_pos hr] at hnone
        split at hnone <;> cases hnone
    · rintro ⟨hm, hr⟩
      rw [if_neg hm, if_neg hr]
      refine ⟨?_, fun metric => ?_, fun _ => rfl⟩
      · exact ⟨fun hobl => absurd hobl not_proposesObligation_nil, fun hcause => nomatch hcause⟩
      · exact ⟨fun hgate => absurd hgate (not_proposesGate_nil metric),
          fun hcause => nomatch hcause⟩
  | gateBelow metric =>
    obtain ⟨value, threshold, rfl⟩ := hraised
    rw [if_pos (mentions_rollback L w metric value threshold)]
    simp only [mentions_rollback_iff]
    constructor
    · intro hunderstood
      have hm : ¬ mentions L "missing telemetry" metric := fun hm => by
        have hgate := (hunderstood.gate metric).mpr rfl
        rw [if_pos hm] at hgate
        exact not_proposesGate_telemetry metric hgate
      have hgate := (hunderstood.gate metric).mpr rfl
      rw [if_neg hm] at hgate
      exact ⟨hm, (extractReleaseMetric_message w).mp (proposesGate_gate_iff.mp hgate)⟩
    · rintro ⟨hm, hread⟩
      rw [if_neg hm, (extractReleaseMetric_message w).mpr hread]
      refine ⟨?_, fun metric' => ?_, fun hcause => nomatch hcause⟩
      · exact ⟨fun hobl => absurd hobl (not_proposesObligation_gate metric),
          fun hcause => nomatch hcause⟩
      · rw [proposesGate_gate_iff, Cause.gateBelow.injEq]

/-- A release raises exactly with a cause against it, and feedback understands the causes exactly when
    the name that the text quotes does not get in the way. -/
theorem understood_iff :
    ((∃ e, (o.gated eip).evaluateRelease eip.name o.metrics eip.telemetryRequirements.required =
        .error e) ↔ ∃ cause, o.RefusedFor eip cause) ∧
    (Understood L w o eip ↔ ∀ cause, o.RefusedFor eip cause → cause.Readable L eip.name) := by
  refine ⟨⟨fun ⟨e, he⟩ => ReleaseManager.refused_of_error he, ?_⟩, ?_⟩
  · rintro ⟨cause, hcause⟩
    obtain ⟨e, he, -⟩ := hcause.raised
    exact ⟨e, he⟩
  · exact forall₂_congr fun _ h => understoodFrom_iff h

end Understanding

/-! ## A metric with an apostrophe -/

/-- Only ASCII characters have a lower case in ASCII. -/
theorem toLower_of_not_ascii {c : Char} (h : ¬ c.toNat < 128) : c.toLower = c := by
  unfold Char.toLower
  refine dif_neg fun hupper => ?_
  have h90 : c.toNat ≤ 90 := hupper.2
  omega

/-- Lower case as in ASCII. -/
def asciiLowering : Lowering where
  lower t := t.map Char.toLower
  table c := [plainSigma c.toLower]
  lower_eq t := by
    rw [List.map_map, ← List.map_eq_flatMap]
    rfl
  ascii c hc := by
    have hall : ∀ n < 128, [plainSigma (Char.ofNat n).toLower] = [(Char.ofNat n).toLower] := by
      decide +kernel
    have hthis := hall c.toNat hc
    rwa [Char.ofNat_toNat] at hthis
  other c d hd hascii halpha := by
    have hall : ∀ n < 128, (plainSigma (Char.ofNat n).toLower).isAlpha = false →
        plainSigma (Char.ofNat n).toLower = Char.ofNat n := by
      decide +kernel
    obtain rfl := List.mem_singleton.mp hd
    by_cases hc : c.toNat < 128
    · have hthis := hall c.toNat hc
      rw [Char.ofNat_toNat] at hthis
      exact hthis halpha
    · -- the letter that a sigma becomes is not ASCII either
      rw [toLower_of_not_ascii hc] at hascii ⊢
      unfold plainSigma at hascii ⊢
      split
      · rename_i hsigma
        rw [if_pos hsigma] at hascii
        exact absurd hascii (by decide)
      · rfl

/-- The two numbers of the run below. -/
def sampleWriter : FloatWriter where
  repr q := if q = 1 / 2 then "0.5" else "0.95"
  chars q := by
    split <;> decide +kernel

/-- The flag is on and the metric of the only gate is low. -/
def lowOrchestrator : VADOrchestrator Unit where
  releaseManager := { flags := [("feedback-test", true)] }
  releaseMetrics := some [("user's latency", 1 / 2)]

def lowEip : EIP :=
  { feedbackEip with
    releaseRequirements := { required := true, gates := ["user's latency"] }
    telemetryRequirements := { required := true } }

/-- The metric is read up to its apostrophe. -/
theorem apostrophe_not_understood :
    ¬ Understood asciiLowering sampleWriter lowOrchestrator lowEip := by
  intro h
  have hrefused : lowOrchestrator.RefusedFor lowEip (.gateBelow "user's latency") :=
    @ReleaseManager.Refused.gateBelow _ _ _ [] [] ⟨"user's latency", 19 / 20⟩ (1 / 2) rfl rfl
      (fun g hg => nomatch hg) rfl (by decide +kernel)
  have hgate := ((h _ hrefused).gate "user's latency").mpr rfl
  have herror : (lowOrchestrator.gated lowEip).evaluateRelease lowEip.name lowOrchestrator.metrics
      lowEip.telemetryRequirements.required =
        .error (.rollback "user's latency" (1 / 2) (19 / 20)) := by
    decide +kernel
  have hmissing : ¬ mentions asciiLowering "missing telemetry"
      ((ReleaseError.rollback "user's latency" (1 / 2) (19 / 20)).message sampleWriter.repr) := by
    decide +kernel
  have hread : extractReleaseMetric
      ((ReleaseError.rollback "user's latency" (1 / 2) (19 / 20)).message sampleWriter.repr) =
        "user" := by
    decide +kernel
  rw [proposals_of_error herror, if_neg hmissing, if_pos (mentions_rollback ..), hread,
    proposesGate_gate_iff] at hgate
  exact absurd hgate (by decide)

end Vad
