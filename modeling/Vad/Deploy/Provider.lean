/-
  The fake deployment provider (`vad/deploy/providers/fake.py`), and what its targets hold after any
  sequence of deployments and rollbacks.

  Each record keeps the artifact that its target held when it was applied, and a rollback puts that
  one back, whatever was deployed to the target since and whether or not the record is rolled back
  already (`older_rolled_back`).

  1. **Expected** — the artifact that a target should hold, read off the records themselves: that of
     the last one still applied, or what the target held at the start.
  2. **The invariant** — `Consistent`: every target holds what is expected, and so does what each
     applied record would put back, judged by the records in front of it.
  3. **The result** — `deployments_compose`: a run whose rollbacks take the newest deployment of a
     target first keeps the invariant; a blocked rollback changes nothing, in any run.
-/
import Vad.Lib.Dict
import Vad.Lib.Text

namespace Vad

/-! ## Plans and records -/

inductive DeploymentEnvironment where
  | development | staging | production
deriving DecidableEq, Repr

def DeploymentEnvironment.value : DeploymentEnvironment → String
  | development => "development"
  | staging => "staging"
  | production => "production"

inductive DeploymentStrategy where
  | dryRun | blueGreen | canary | rolling
deriving DecidableEq, Repr

def DeploymentStrategy.value : DeploymentStrategy → String
  | dryRun => "dry-run"
  | blueGreen => "blue-green"
  | canary => "canary"
  | rolling => "rolling"

/-- The field of `RollbackPolicy` that the provider reads. -/
structure RollbackPolicy where
  enabled : Bool := true
deriving DecidableEq, Repr

/-- The fields of `DeploymentTarget` that the provider reads. -/
structure DeploymentTarget where
  targetId : String
  environment : DeploymentEnvironment
  strategy : DeploymentStrategy
  artifactDigest : String
  rollback : RollbackPolicy
deriving DecidableEq, Repr

structure DeploymentPlan where
  planId : String
  target : DeploymentTarget
deriving DecidableEq, Repr

/-- The `status` of a record. -/
inductive DeploymentStatus where
  | applied | rolledBack
deriving DecidableEq, Repr

/-- What `apply` records and answers. -/
structure DeploymentRecord where
  event : String := "deployment_apply"
  provider : String := "fake"
  deploymentId : String
  planId : String
  targetId : String
  environment : String
  strategy : String
  priorArtifactDigest : Option String
  artifactDigest : String
  status : DeploymentStatus := .applied
  rollbackEnabled : Bool
deriving DecidableEq, Repr

/-- What `dry_run` answers. -/
structure DryRunEvent where
  event : String := "deployment_dry_run"
  provider : String := "fake"
  planId : String
  targetId : String
  environment : String
  strategy : String
  artifactDigest : String
  wouldReplaceArtifact : Option String
  sideEffects : Bool := false
deriving DecidableEq, Repr

inductive RollbackStatus where
  | blocked | rolledBack
deriving DecidableEq, Repr

/-- What `rollback` answers; the entries that an answer lacks are `none`. -/
structure RollbackEvent where
  event : String := "deployment_rollback"
  provider : String := "fake"
  deploymentId : String
  targetId : Option String := none
  status : RollbackStatus
  blocker : Option String := none
  restoredArtifactDigest : Option String := none
deriving DecidableEq, Repr

/-! ## The provider -/

structure FakeDeploymentProvider where
  targets : Dict String := []
  deployments : Dict DeploymentRecord := []
  counter : Nat := 0
deriving DecidableEq, Repr

namespace FakeDeploymentProvider

/-- `f"fake-deployment-{n}"`. -/
def deploymentName (n : Nat) : String := "fake-deployment-" ++ toString n

/-- `FakeDeploymentProvider.dry_run`. -/
def dryRun (p : FakeDeploymentProvider) (plan : DeploymentPlan) : DryRunEvent where
  planId := plan.planId
  targetId := plan.target.targetId
  environment := plan.target.environment.value
  strategy := plan.target.strategy.value
  artifactDigest := plan.target.artifactDigest
  wouldReplaceArtifact := p.targets.get plan.target.targetId

/-- The record that `apply` makes. -/
def recordOf (p : FakeDeploymentProvider) (plan : DeploymentPlan) : DeploymentRecord where
  deploymentId := deploymentName (p.counter + 1)
  planId := plan.planId
  targetId := plan.target.targetId
  environment := plan.target.environment.value
  strategy := plan.target.strategy.value
  priorArtifactDigest := p.targets.get plan.target.targetId
  artifactDigest := plan.target.artifactDigest
  rollbackEnabled := plan.target.rollback.enabled

/-- `FakeDeploymentProvider.apply`. -/
def apply (p : FakeDeploymentProvider) (plan : DeploymentPlan) :
    DeploymentRecord × FakeDeploymentProvider :=
  (p.recordOf plan, {
    targets := p.targets.set plan.target.targetId plan.target.artifactDigest
    deployments := p.deployments.set (deploymentName (p.counter + 1)) (p.recordOf plan)
    counter := p.counter + 1 })

/-- The targets when an artifact is put back, or taken away where there was none. -/
def putBack (targets : Dict String) (targetId : String) : Option String → Dict String
  | none => targets.erase targetId
  | some artifact => targets.set targetId artifact

/-- `FakeDeploymentProvider.rollback`. -/
def rollback (p : FakeDeploymentProvider) (deploymentId : String) :
    RollbackEvent × FakeDeploymentProvider :=
  match p.deployments.get deploymentId with
  | none =>
    ({ deploymentId := deploymentId
       status := .blocked
       blocker := some "deployment not found" }, p)
  | some record =>
    if record.rollbackEnabled = false then
      ({ deploymentId := deploymentId
         targetId := some record.targetId
         status := .blocked
         blocker := some "rollback disabled" }, p)
    else
      ({ deploymentId := deploymentId
         targetId := some record.targetId
         status := .rolledBack
         restoredArtifactDigest := record.priorArtifactDigest },
       { p with
         targets := putBack p.targets record.targetId record.priorArtifactDigest
         deployments := p.deployments.set deploymentId { record with status := .rolledBack } })

/-- A rollback that is blocked changes nothing. -/
theorem rollback_blocked {p : FakeDeploymentProvider} {deploymentId : String}
    (h : (p.rollback deploymentId).1.status = .blocked) : (p.rollback deploymentId).2 = p := by
  unfold rollback at h ⊢
  split
  · rfl
  · split
    · rfl
    · rename_i record hrecord henabled
      rw [hrecord] at h
      simp only [if_neg henabled] at h
      cases h

theorem get_putBack (targets : Dict String) (targetId : String) (prior : Option String)
    (target : String) : (putBack targets targetId prior).get target =
      if targetId = target then prior else targets.get target := by
  cases prior with
  | none => exact Dict.get_erase targets targetId target
  | some artifact => exact Dict.get_set targets targetId target artifact

theorem deploymentName_injective : Function.Injective deploymentName := by
  intro m n h
  exact PyText.toString_injective ((String.append_right_inj _).mp h)

/-! ## What a target should hold -/

/-- The record is one of the target's, and not rolled back. -/
def liveTo (target : String) (e : String × DeploymentRecord) : Bool :=
  decide (e.2.targetId = target) && decide (e.2.status = .applied)

/-- The newest record of the target that is not rolled back. -/
def latestLive (deployments : Dict DeploymentRecord) (target : String) :
    Option (String × DeploymentRecord) := (deployments.filter (liveTo target)).getLast?

/-- The artifact of the newest record that is not rolled back, or what was there at the start. -/
def expected (initial : Dict String) (deployments : Dict DeploymentRecord) (target : String) :
    Option String :=
  match latestLive deployments target with
  | some e => some e.2.artifactDigest
  | none => initial.get target

/-- Every target holds what it should. -/
def Composed (initial : Dict String) (p : FakeDeploymentProvider) : Prop :=
  ∀ target, p.targets.get target = expected initial p.deployments target

section Expected

variable {initial : Dict String} {front back : Dict DeploymentRecord} {target : String}
  {e : String × DeploymentRecord}

theorem expected_concat : expected initial (front ++ [e]) target =
    if liveTo target e = true then some e.2.artifactDigest else expected initial front target := by
  unfold expected latestLive
  rw [List.filter_append]
  by_cases h : liveTo target e = true
  · rw [if_pos h, List.filter_cons_of_pos h, List.filter_nil, List.getLast?_concat]
  · rw [if_neg h, List.filter_cons_of_neg h, List.filter_nil, List.append_nil]

/-- Only the records that are live to the target matter. -/
theorem expected_congr {front' : Dict DeploymentRecord}
    (h : front'.filter (liveTo target) = front.filter (liveTo target)) :
    expected initial front' target = expected initial front target := by
  unfold expected latestLive
  rw [h]

theorem expected_append (h : ∀ x ∈ back, liveTo target x = false) :
    expected initial (front ++ back) target = expected initial front target := by
  refine expected_congr ?_
  have hnone : back.filter (liveTo target) = [] := by
    refine List.filter_eq_nil_iff.mpr fun x hx => ?_
    rw [h x hx]
    exact Bool.false_ne_true
  rw [List.filter_append, hnone, List.append_nil]

/-- Behind the newest live record of a target there is none that is live to it. -/
theorem latestLive_split (hkeys : Dict.KeysNodup (front ++ e :: back))
    (h : latestLive (front ++ e :: back) target = some e) :
    liveTo target e = true ∧ ∀ x ∈ back, liveTo target x = false := by
  unfold latestLive at h
  have hlive : liveTo target e = true := (List.mem_filter.mp (List.mem_of_getLast? h)).2
  refine ⟨hlive, fun x hx => ?_⟩
  by_contra hxlive
  have hnonempty : back.filter (liveTo target) ≠ [] := by
    intro hnil
    rw [List.filter_eq_nil_iff] at hnil
    exact hnil x hx (by simpa using hxlive)
  -- then the last live record stands behind `e`, and has its key
  rw [List.filter_append, List.filter_cons_of_pos hlive, List.getLast?_append_of_ne_nil _ (by simp),
    List.getLast?_cons, List.getLast?_eq_some_getLast hnonempty] at h
  have hlast : (back.filter (liveTo target)).getLast hnonempty = e := Option.some.inj h
  have hback : e ∈ back := List.mem_of_mem_filter (hlast ▸ List.getLast_mem hnonempty)
  unfold Dict.KeysNodup at hkeys
  rw [List.map_append, List.map_cons, List.nodup_append] at hkeys
  exact (List.nodup_cons.mp hkeys.2.1).1 (List.mem_map_of_mem hback)

end Expected

/-! ## Runs -/

/-- A call of a client. -/
inductive ProviderCall where
  | apply (plan : DeploymentPlan)
  | rollback (deploymentId : String)
deriving DecidableEq, Repr

def step (p : FakeDeploymentProvider) : ProviderCall → FakeDeploymentProvider
  | .apply plan => (p.apply plan).2
  | .rollback deploymentId => (p.rollback deploymentId).2

/-- The provider after a sequence of calls. -/
def run (p : FakeDeploymentProvider) (calls : List ProviderCall) : FakeDeploymentProvider :=
  calls.foldl step p

/-- A provider without a history. -/
def start (initial : Dict String) : FakeDeploymentProvider where
  targets := initial

/-- A call takes the newest first: what it asks to roll back, if it can be, is the newest live
    deployment of its target. -/
def NewestFirst (p : FakeDeploymentProvider) : ProviderCall → Prop
  | .apply _ => True
  | .rollback deploymentId => ∀ record, p.deployments.get deploymentId = some record →
      record.rollbackEnabled = true →
        latestLive p.deployments record.targetId = some (deploymentId, record)

/-- Every call of the sequence takes the newest first, when it comes. -/
def InTurn (p : FakeDeploymentProvider) : List ProviderCall → Prop
  | [] => True
  | call :: rest => NewestFirst p call ∧ InTurn (p.step call) rest

/-- The invariant of a run in which every call takes the newest first. -/
structure Consistent (initial : Dict String) (p : FakeDeploymentProvider) : Prop where
  composed : Composed initial p
  prior : ∀ front e back, p.deployments = front ++ e :: back → e.2.status = .applied →
    e.2.priorArtifactDigest = expected initial front e.2.targetId
  keys : p.deployments.KeysNodup
  names : ∀ e ∈ p.deployments, ∃ n, n ≤ p.counter ∧ e.1 = deploymentName n

section Runs

variable {initial : Dict String} {p : FakeDeploymentProvider}

theorem consistent_start (initial : Dict String) : Consistent initial (start initial) where
  composed _ := rfl
  prior front e back h := absurd h (by simp [start])
  keys := List.nodup_nil
  names e he := absurd he List.not_mem_nil

theorem Consistent.apply (h : Consistent initial p) (plan : DeploymentPlan) :
    Consistent initial (p.apply plan).2 := by
  have hfresh : deploymentName (p.counter + 1) ∉ p.deployments.map Prod.fst := by
    intro hin
    obtain ⟨e, he, hname⟩ := List.mem_map.mp hin
    obtain ⟨n, hn, hkey⟩ := h.names e he
    have heq := deploymentName_injective (hkey.symm.trans hname)
    omega
  have hdeployments : (p.apply plan).2.deployments =
      p.deployments ++ [(deploymentName (p.counter + 1), p.recordOf plan)] :=
    Dict.set_of_absent _ hfresh
  constructor
  · intro target
    rw [hdeployments, expected_concat]
    show Dict.get (p.targets.set plan.target.targetId plan.target.artifactDigest) target = _
    rw [Dict.get_set, ← h.composed target]
    by_cases htarget : plan.target.targetId = target
    · rw [if_pos htarget]
      exact (if_pos (by simp [liveTo, recordOf, htarget])).symm
    · rw [if_neg htarget]
      exact (if_neg (by simp [liveTo, recordOf, htarget])).symm
  · intro front e back hsplit happlied
    rw [hdeployments] at hsplit
    rcases List.eq_nil_or_concat back with rfl | ⟨back, last, rfl⟩
    · -- the new record: what it keeps is what the target held
      obtain ⟨rfl, hlast⟩ := List.append_inj' hsplit rfl
      cases hlast
      exact h.composed plan.target.targetId
    · have hold : p.deployments = front ++ e :: back := by
        rw [List.concat_eq_append, ← List.cons_append, ← List.append_assoc] at hsplit
        exact (List.append_inj' hsplit rfl).1
      exact h.prior front e back hold happlied
  · exact Dict.keysNodup_set h.keys _ _
  · intro e he
    rw [hdeployments] at he
    rcases List.mem_append.mp he with he | he
    · obtain ⟨n, hn, hkey⟩ := h.names e he
      exact ⟨n, Nat.le_succ_of_le hn, hkey⟩
    · cases List.mem_singleton.mp he
      exact ⟨p.counter + 1, Nat.le_refl _, rfl⟩

/-- Rolling back the newest live deployment of a target. -/
theorem Consistent.rollback_newest (h : Consistent initial p) {deploymentId : String}
    {record : DeploymentRecord} (hget : p.deployments.get deploymentId = some record)
    (hnewest : latestLive p.deployments record.targetId = some (deploymentId, record)) :
    Consistent initial { p with
      targets := putBack p.targets record.targetId record.priorArtifactDigest
      deployments := p.deployments.set deploymentId { record with status := .rolledBack } } := by
  obtain ⟨front, back, hsplit, hfront⟩ := Dict.split_of_get hget
  have hkeys := h.keys
  rw [hsplit] at hnewest hkeys
  obtain ⟨hlive, hback⟩ := latestLive_split hkeys hnewest
  have happlied : record.status = .applied := by
    unfold liveTo at hlive
    exact of_decide_eq_true (Bool.and_eq_true_iff.mp hlive).2
  have hdeployments : p.deployments.set deploymentId { record with status := .rolledBack } =
      front ++ (deploymentId, { record with status := .rolledBack }) :: back := by
    rw [hsplit]
    exact Dict.set_of_split _ hfront
  -- the record is live to its own target only, and now to none
  have hdead (target : String) :
      liveTo target (deploymentId, { record with status := .rolledBack }) = false := by
    simp [liveTo]
  have hother {target : String} (htarget : record.targetId ≠ target) :
      liveTo target (deploymentId, record) = false := by
    simp [liveTo, htarget]
  constructor
  · intro target
    rw [hdeployments]
    show (putBack p.targets record.targetId record.priorArtifactDigest).get target = _
    rw [get_putBack]
    by_cases htarget : record.targetId = target
    · rw [if_pos htarget, h.prior front _ back hsplit happlied]
      subst htarget
      refine (expected_append fun x hx => ?_).symm
      rcases List.mem_cons.mp hx with rfl | hx
      · exact hdead _
      · exact hback x hx
    · rw [if_neg htarget, h.composed target, hsplit]
      refine (expected_congr ?_).symm
      rw [List.filter_append, List.filter_append, List.filter_cons_of_neg (by rw [hdead]; nofun),
        List.filter_cons_of_neg (by rw [hother htarget]; nofun)]
  · intro front' e back' hsplit' hstatus
    rw [hdeployments] at hsplit'
    have hne : e ≠ (deploymentId, { record with status := .rolledBack }) := by
      rintro rfl
      cases hstatus
    rcases List.append_eq_append_iff.mp hsplit' with ⟨c, rfl, hrest⟩ | ⟨c, rfl, hrest⟩
    · -- `e` stands behind the record, in whose place nothing changes for other targets
      cases c with
      | nil => exact absurd (List.cons.inj hrest).1.symm hne
      | cons x c =>
        obtain ⟨rfl, rfl⟩ := List.cons.inj hrest
        have htarget : record.targetId ≠ e.2.targetId := by
          intro heq
          have hdead' := hback e (List.mem_append_right _ List.mem_cons_self)
          rw [heq] at hdead'
          simp [liveTo, hstatus] at hdead'
        have hold := h.prior (front ++ (deploymentId, record) :: c) e back'
          (by rw [hsplit, List.append_assoc]; rfl) hstatus
        rw [hold]
        refine expected_congr ?_
        rw [List.filter_append, List.filter_append,
          List.filter_cons_of_neg (by rw [hother htarget]; nofun),
          List.filter_cons_of_neg (by rw [hdead]; nofun)]
    · -- `e` stands in front of it
      cases c with
      | nil => exact absurd (List.cons.inj hrest).1 hne
      | cons x c =>
        obtain ⟨rfl, rfl⟩ := List.cons.inj hrest
        exact h.prior front' e (c ++ (deploymentId, record) :: back)
          (by rw [hsplit, List.append_assoc]; rfl) hstatus
  · exact Dict.keysNodup_set h.keys _ _
  · intro e he
    rw [hdeployments] at he
    have hold (e' : String × DeploymentRecord) (he' : e' ∈ front ++ (deploymentId, record) :: back) :
        ∃ n, n ≤ p.counter ∧ e'.1 = deploymentName n := h.names e' (hsplit ▸ he')
    rcases List.mem_append.mp he with he | he
    · exact hold e (List.mem_append_left _ he)
    · rcases List.mem_cons.mp he with rfl | he
      · exact hold (deploymentId, record) (List.mem_append_right _ List.mem_cons_self)
      · exact hold e (List.mem_append_right _ (List.mem_cons_of_mem _ he))

/-- **One call**: the invariant is kept by every call that takes the newest first. -/
theorem Consistent.step (h : Consistent initial p) {call : ProviderCall}
    (hturn : NewestFirst p call) : Consistent initial (p.step call) := by
  cases call with
  | apply plan => exact h.apply plan
  | rollback deploymentId =>
    show Consistent initial (p.rollback deploymentId).2
    unfold FakeDeploymentProvider.rollback
    split
    · exact h
    · rename_i record hget
      split
      · exact h
      · rename_i henabled
        exact h.rollback_newest hget (hturn record hget (Bool.not_eq_false _ ▸ henabled))

/-- **A run**: the invariant is kept by every sequence of such calls. -/
theorem Consistent.run (calls : List ProviderCall) : ∀ {p : FakeDeploymentProvider},
    Consistent initial p → InTurn p calls → Consistent initial (p.run calls) := by
  induction calls with
  | nil => exact fun h _ => h
  | cons call rest ih => exact fun h hturn => ih (h.step hturn.1) hturn.2

/-- Whatever the targets held at the start: after every sequence of calls in which a rollback takes
    the newest live deployment of its target, every target holds the artifact of its newest
    deployment that is not rolled back, or what it held at the start; and after any sequence of
    calls, a rollback that is blocked changes nothing. -/
theorem deployments_compose (initial : Dict String) (calls : List ProviderCall) :
    (InTurn (start initial) calls → Composed initial ((start initial).run calls)) ∧
    ∀ deploymentId, (((start initial).run calls).rollback deploymentId).1.status = .blocked →
      (((start initial).run calls).rollback deploymentId).2 = (start initial).run calls :=
  ⟨fun hturn => ((consistent_start initial).run calls hturn).composed,
    fun _ hblocked => rollback_blocked hblocked⟩

end Runs

/-! ## An older deployment rolled back -/

section Sample

/-- A plan that deploys an artifact of one repeated digit. -/
def samplePlan (digit : Char) : DeploymentPlan where
  planId := "plan"
  target := {
    targetId := "staging-api"
    environment := .staging
    strategy := .blueGreen
    artifactDigest := String.ofList (List.replicate 64 digit)
    rollback := {} }

/-- Two deployments, and a rollback of the first: the target is empty, where the second artifact
    should be. -/
theorem older_rolled_back : ¬ Composed [] ((start []).run
    [.apply (samplePlan 'a'), .apply (samplePlan 'b'), .rollback "fake-deployment-1"]) := by
  intro h
  have hgone : ((start []).run [.apply (samplePlan 'a'), .apply (samplePlan 'b'),
      .rollback "fake-deployment-1"]).targets.get "staging-api" = none := by decide
  have hlive : expected [] ((start []).run [.apply (samplePlan 'a'), .apply (samplePlan 'b'),
      .rollback "fake-deployment-1"]).deployments "staging-api" =
        some (String.ofList (List.replicate 64 'b')) := by decide
  rw [h "staging-api", hlive] at hgone
  cases hgone

end Sample

end FakeDeploymentProvider

end Vad
