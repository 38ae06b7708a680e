/-
  Model routing under a budget (`vad/router/routing.py`, `vad/router/budget.py`).

  1. **The code** — a call counts itself against the depth limit, puts the models into the order of
     the request, and takes the first that the policy allows and that the rest of the budget pays for
     (`Router.route`).  A charge that turns out too high, and a decision with a negative cost, raise
     after they have been made.

  2. **One call** (`Router.RouteSpec`) — with costs that are not negative nothing raises late: the
     loop finds the first able model of the order (`tryAll_eq`), which is a choice among the models
     as the provider lists them (`choice_of_find`).

  3. **All calls** (`RoutingState.run_respects`) — routers that share one budget manager: an
     invariant of the manager (`BudgetManager.Kept`) and what the routers have recorded.

  Costs and budgets are exact rationals.
-/
import Mathlib.Algebra.BigOperators.Group.Finset.Piecewise
import Mathlib.Algebra.Order.Field.Rat
import Mathlib.Tactic.Ring
import Vad.ControlPlane.Model
import Vad.Lib.Dict
import Vad.Lib.Latest

namespace Vad

/-! ## Models and requests -/

structure ModelInfo where
  name : String
  tier : String := "tier1"
  costPer1kTokens : Rat
deriving DecidableEq, Repr

structure RouteRequest where
  riskTier : String := "low"
  purpose : String := "general"
deriving DecidableEq, Repr

structure RouteDecision where
  selectedModel : String
  selectedTier : String
  estimatedTokens : Int
  estimatedCost : Rat
  reason : String
deriving DecidableEq, Repr

instance : Model RouteDecision where
  name := "RouteDecision"
  normalize := id
  checks d := [("estimated_tokens", decide (0 ≤ d.estimatedTokens)),
    ("estimated_cost", decide (0 ≤ d.estimatedCost))]
  normalize_idem _ := rfl

structure RouteEvidenceEvent where
  event : String := "route_decision"
  selectedModel : Option String := none
  selectedTier : Option String := none
  estimatedTokens : Int := 0
  estimatedCost : Rat := 0
  reason : String
  policyDecision : Option PolicyDecision := none
deriving DecidableEq, Repr

instance : Model RouteEvidenceEvent where
  name := "RouteEvidenceEvent"
  normalize := id
  checks e := [("estimated_tokens", decide (0 ≤ e.estimatedTokens)),
    ("estimated_cost", decide (0 ≤ e.estimatedCost))]
  normalize_idem _ := rfl

/-! ## The budget -/

structure BudgetManager where
  maxBudget : Rat
  maxDepth : Int
  spent : Rat := 0
  currentDepth : Int := 0
deriving DecidableEq, Repr

/-- `BudgetManager.charge`: the amount is spent even if that is too much. -/
def BudgetManager.charge (b : BudgetManager) (amount : Rat) :
    BudgetManager × Except PyError Unit :=
  let charged := { b with spent := b.spent + amount }
  if charged.spent > charged.maxBudget then (charged, .error (.valueError "Token budget exhausted"))
  else (charged, .ok ())

/-- `BudgetManager.increment_depth`. -/
def BudgetManager.incrementDepth (b : BudgetManager) : BudgetManager × Except PyError Unit :=
  let deeper := { b with currentDepth := b.currentDepth + 1 }
  if deeper.currentDepth > deeper.maxDepth then
    (deeper, .error (.valueError "Loop depth exhausted"))
  else (deeper, .ok ())

/-! ## The router -/

/-- A router; its models and what its policy says are parameters of the calls. -/
structure Router where
  policyPath : String := "policies/vad.rego"
  log : List (String × String) := []
  decisions : List (Checked RouteDecision) := []
  evidenceEvents : List (Checked RouteEvidenceEvent) := []

/-- High risk and verification. -/
def RouteRequest.verified (request : RouteRequest) : Bool :=
  decide (request.riskTier = "high") || decide (request.purpose = "verification")

/-- `_route_reason`. -/
def routeReason (request : RouteRequest) (index : Nat) : String :=
  if request.verified then "verifier-approved tier required"
  else if request.purpose = "formatting" then "low-risk formatting uses cheapest allowed tier"
  else if index = 0 then "within budget" else "fallback due to budget"

/-- `sorted(models, key=cost)`. -/
def cheapestFirst (models : List ModelInfo) : List ModelInfo :=
  models.insertionSort fun a b => a.costPer1kTokens ≤ b.costPer1kTokens

/-- `sorted(models, key=cost, reverse=True)`, which leaves equal models in their order. -/
def dearestFirst (models : List ModelInfo) : List ModelInfo :=
  models.insertionSort fun a b => b.costPer1kTokens ≤ a.costPer1kTokens

/-- `Router._ordered_candidates`. -/
def orderedCandidates (models : List ModelInfo) (request : RouteRequest) : List ModelInfo :=
  if request.verified then dearestFirst (models.filter fun m => m.tier = "tier2")
  else if request.purpose = "formatting" then cheapestFirst models
  else dearestFirst models

def expectedTokens : Int := 1000

/-- What a model is expected to cost. -/
def ModelInfo.estimatedCost (m : ModelInfo) : Rat :=
  (expectedTokens : Rat) / 1000 * m.costPer1kTokens

/-- `evidence_events.append(...)`. -/
def Router.record (router : Router) (event : RouteEvidenceEvent) : Except PyError Router :=
  (Model.build event).map fun e => { router with evidenceEvents := router.evidenceEvents ++ [e] }

/-- `policy.evaluate_decision`, of a policy file and an input. -/
abbrev Verdicts : Type := String → Dict Json → PolicyDecision

/-- What the policy says about a tier. -/
def Router.verdict (router : Router) (policy : Verdicts) (tier : String) : PolicyDecision :=
  policy router.policyPath [("action", .text "use_model"), ("model_tier", .text tier)]

/-- The result of a call, with the router and the budget that it leaves. -/
abbrev Routed : Type := (Router × BudgetManager) × Except PyError String

/-- The decision that is recorded for a model. -/
def chosenDecision (request : RouteRequest) (index : Nat) (model : ModelInfo) : RouteDecision where
  selectedModel := model.name
  selectedTier := model.tier
  estimatedTokens := expectedTokens
  estimatedCost := model.estimatedCost
  reason := routeReason request index

/-- The event that is recorded for it. -/
def chosenEvent (request : RouteRequest) (index : Nat) (model : ModelInfo)
    (decision : PolicyDecision) : RouteEvidenceEvent where
  selectedModel := some model.name
  selectedTier := some model.tier
  estimatedTokens := expectedTokens
  estimatedCost := model.estimatedCost
  reason := routeReason request index
  policyDecision := some decision

/-- A model is taken: charged, logged and recorded. -/
def Router.select (router : Router) (budget : BudgetManager) (request : RouteRequest) (index : Nat)
    (model : ModelInfo) (decision : PolicyDecision) : Routed :=
  match budget.charge model.estimatedCost with
  | (budget, .error e) => ((router, budget), .error e)
  | (budget, .ok ()) =>
    let router := { router with log := router.log ++ [("route", model.name)] }
    match Model.build (chosenDecision request index model) with
    | .error e => ((router, budget), .error e)
    | .ok chosen =>
      let router := { router with decisions := router.decisions ++ [chosen] }
      match router.record (chosenEvent request index model decision) with
      | .error e => ((router, budget), .error e)
      | .ok router => ((router, budget), .ok model.name)

/-- The loop of `route` over the candidates, from the one at `index` on. -/
def Router.tryAll (policy : Verdicts) (request : RouteRequest) (budget : BudgetManager) :
    Nat → List ModelInfo → Router → Routed
  | _, [], router =>
    match router.record { event := "route_exhausted", reason := "Token budget exhausted" } with
    | .error e => ((router, budget), .error e)
    | .ok router => ((router, budget), .error (.valueError "Token budget exhausted"))
  | index, model :: rest, router =>
    if (router.verdict policy model.tier).allow = false then
      match router.record {
        event := "route_denied"
        selectedModel := some model.name
        selectedTier := some model.tier
        reason := "model tier denied by policy"
        policyDecision := some (router.verdict policy model.tier) } with
      | .error e => ((router, budget), .error e)
      | .ok router => router.tryAll policy request budget (index + 1) rest
    else if budget.spent + model.estimatedCost ≤ budget.maxBudget then
      router.select budget request index model (router.verdict policy model.tier)
    else router.tryAll policy request budget (index + 1) rest

/-- `Router.route`, with the models that the provider lists and what the policy says. -/
def Router.route (router : Router) (models : List ModelInfo) (policy : Verdicts)
    (request : RouteRequest) (budget : BudgetManager) : Routed :=
  match budget.incrementDepth with
  | (budget, .error e) => ((router, budget), .error e)
  | (budget, .ok ()) =>
    if orderedCandidates models request = [] then
      ((router, budget), .error (.valueError "No registered models available"))
    else router.tryAll policy request budget 0 (orderedCandidates models request)

/-! ## What a call is for -/

/-- High risk and verification need a model of tier 2. -/
def RouteRequest.Suits (request : RouteRequest) (m : ModelInfo) : Prop :=
  request.verified = true → m.tier = "tier2"

/-- `a` comes strictly before `b` in the order of the request. -/
def RouteRequest.Before (request : RouteRequest) (a b : ModelInfo) : Prop :=
  if request.verified = false ∧ request.purpose = "formatting" then
    a.costPer1kTokens < b.costPer1kTokens
  else b.costPer1kTokens < a.costPer1kTokens

/-- The policy allows the model and the rest of the budget pays for it. -/
def Router.able (router : Router) (policy : Verdicts) (budget : BudgetManager) (m : ModelInfo) :
    Bool :=
  (router.verdict policy m.tier).allow &&
    decide (budget.spent + m.estimatedCost ≤ budget.maxBudget)

/-- `m` suits, is able, and comes before the other suitable and able models: strictly before those
    that the provider lists earlier. -/
def Choice (request : RouteRequest) (able : ModelInfo → Bool) (models : List ModelInfo)
    (m : ModelInfo) : Prop :=
  request.Suits m ∧ able m = true ∧ ∃ front back, models = front ++ m :: back ∧
    (∀ b ∈ front, request.Suits b → able b = true → request.Before m b) ∧
    ∀ b ∈ back, request.Suits b → able b = true → ¬ request.Before b m

theorem mem_orderedCandidates {models : List ModelInfo} {request : RouteRequest} {m : ModelInfo} :
    m ∈ orderedCandidates models request ↔ m ∈ models ∧ request.Suits m := by
  unfold orderedCandidates RouteRequest.Suits dearestFirst cheapestFirst
  cases request.verified with
  | true => simp [List.mem_insertionSort]
  | false =>
    rw [if_neg (by decide)]
    split <;> simp [List.mem_insertionSort]

section Orders

/-- The two orders, as `≤`. -/
instance : Std.Total fun a b : ModelInfo => a.costPer1kTokens ≤ b.costPer1kTokens :=
  ⟨fun _ _ => le_total _ _⟩

instance : IsTrans ModelInfo fun a b => a.costPer1kTokens ≤ b.costPer1kTokens :=
  ⟨fun _ _ _ => le_trans⟩

instance : Std.Total fun a b : ModelInfo => b.costPer1kTokens ≤ a.costPer1kTokens :=
  ⟨fun _ _ => le_total _ _⟩

instance : IsTrans ModelInfo fun a b => b.costPer1kTokens ≤ a.costPer1kTokens :=
  ⟨fun _ _ _ hab hbc => le_trans hbc hab⟩

/-- The first able model of the order is a choice among the models as they are listed. -/
theorem choice_of_find {request : RouteRequest} {able : ModelInfo → Bool}
    {models : List ModelInfo} {m : ModelInfo}
    (h : (orderedCandidates models request).find? able = some m) :
    Choice request able models m := by
  have hsuits := (mem_orderedCandidates.mp (List.mem_of_find?_eq_some h)).2
  have hable : able m = true := List.find?_some h
  refine ⟨hsuits, hable, ?_⟩
  unfold orderedCandidates dearestFirst cheapestFirst at h
  unfold RouteRequest.Suits RouteRequest.Before
  cases hverified : request.verified with
  | true =>
    -- the models of tier 2 of the sorted list are the sorted models of tier 2
    rw [if_pos hverified, ← Latest.filter_insertionSort, List.find?_filter] at h
    obtain ⟨front, back, hsplit, -, hfront, hback⟩ := Latest.find?_insertionSort h
    refine ⟨front, back, hsplit, fun b hb htier hb' => ?_, fun b hb htier hb' => ?_⟩
    · rw [if_neg (by simp)]
      exact not_le.mp (hfront b hb (by simp [htier rfl, hb']))
    · rw [if_neg (by simp)]
      exact not_lt.mpr (hback b hb (by simp [htier rfl, hb']))
  | false =>
    rw [if_neg (by simp [hverified])] at h
    by_cases hformatting : request.purpose = "formatting"
    · rw [if_pos hformatting] at h
      obtain ⟨front, back, hsplit, -, hfront, hback⟩ := Latest.find?_insertionSort h
      refine ⟨front, back, hsplit, fun b hb _ hb' => ?_, fun b hb _ hb' => ?_⟩
      · rw [if_pos ⟨rfl, hformatting⟩]
        exact not_le.mp (hfront b hb hb')
      · rw [if_pos ⟨rfl, hformatting⟩]
        exact not_lt.mpr (hback b hb hb')
    · rw [if_neg hformatting] at h
      obtain ⟨front, back, hsplit, -, hfront, hback⟩ := Latest.find?_insertionSort h
      refine ⟨front, back, hsplit, fun b hb _ hb' => ?_, fun b hb _ hb' => ?_⟩
      · rw [if_neg fun hboth => hformatting hboth.2]
        exact not_le.mp (hfront b hb hb')
      · rw [if_neg fun hboth => hformatting hboth.2]
        exact not_lt.mpr (hback b hb hb')

end Orders

/-! ## The loop -/

section Loop

variable {policy : Verdicts} {request : RouteRequest} {budget : BudgetManager}

theorem ModelInfo.estimatedCost_eq (m : ModelInfo) : m.estimatedCost = m.costPer1kTokens := by
  have hone : (expectedTokens : Rat) / 1000 = 1 := by decide +kernel
  unfold ModelInfo.estimatedCost
  rw [hone, one_mul]

/-- An event with a cost that is not negative is recorded. -/
theorem Router.record_ok {event : RouteEvidenceEvent} (htokens : 0 ≤ event.estimatedTokens)
    (hcost : 0 ≤ event.estimatedCost) (router : Router) :
    ∃ e, router.record event =
      .ok { router with evidenceEvents := router.evidenceEvents ++ [e] } := by
  have hvalid : Model.Valid event := by
    refine ⟨rfl, failedFields_eq_nil.mpr fun c hc => ?_⟩
    rcases List.mem_cons.mp hc with rfl | hc
    · exact decide_eq_true htokens
    · rw [List.mem_singleton.mp hc]
      exact decide_eq_true hcost
  refine ⟨⟨event, hvalid⟩, ?_⟩
  unfold Router.record
  rw [Model.build_of_valid hvalid]
  rfl

theorem chosenDecision_valid {index : Nat} {m : ModelInfo} (hcost : 0 ≤ m.estimatedCost) :
    Model.Valid (chosenDecision request index m) := by
  have htokens : (0 : Int) ≤ expectedTokens := by decide
  refine ⟨rfl, failedFields_eq_nil.mpr fun c hc => ?_⟩
  rcases List.mem_cons.mp hc with rfl | hc
  · exact decide_eq_true htokens
  · rw [List.mem_singleton.mp hc]
    exact decide_eq_true hcost

/-- The manager after a charge. -/
def BudgetManager.charged (b : BudgetManager) (m : ModelInfo) : BudgetManager :=
  { b with spent := b.spent + m.estimatedCost }

/-- The router recorded a decision for the model, and nothing else. -/
def Router.Recorded (router after : Router) (m : ModelInfo) : Prop :=
  after.policyPath = router.policyPath ∧ ∃ d : Checked RouteDecision,
    after.decisions = router.decisions ++ [d] ∧ d.1.selectedModel = m.name ∧
      d.1.selectedTier = m.tier ∧ d.1.estimatedCost = m.estimatedCost

/-- A model that the budget pays for is charged and recorded. -/
theorem select_ok {index : Nat} {m : ModelInfo} {decision : PolicyDecision}
    (hcost : 0 ≤ m.estimatedCost) (hfits : budget.spent + m.estimatedCost ≤ budget.maxBudget)
    (router : Router) :
    ∃ after, router.select budget request index m decision =
      ((after, budget.charged m), .ok m.name) ∧ router.Recorded after m := by
  have hcharge : budget.charge m.estimatedCost = (budget.charged m, .ok ()) := by
    unfold BudgetManager.charge
    exact if_neg (not_lt.mpr hfits)
  have htokens : (0 : Int) ≤ expectedTokens := by decide
  have hbuild := Model.build_of_valid (@chosenDecision_valid request index m hcost)
  unfold Router.select
  rw [hcharge]
  dsimp only
  rw [hbuild]
  dsimp only
  obtain ⟨e, hrecord⟩ := @Router.record_ok (chosenEvent request index m decision) htokens hcost
    { router with
      log := router.log ++ [("route", m.name)]
      decisions :=
        router.decisions ++ [⟨chosenDecision request index m, chosenDecision_valid hcost⟩] }
  rw [hrecord]
  exact ⟨_, rfl, rfl, _, rfl, rfl, rfl, rfl⟩

/-- What the loop has to do: take the first able model and record that, or raise. -/
inductive TookFirst (policy : Verdicts) (budget : BudgetManager) (models : List ModelInfo)
    (router : Router) : Routed → Prop where
  | took {m : ModelInfo} {after : Router} :
    models.find? (router.able policy budget) = some m → router.Recorded after m →
      TookFirst policy budget models router ((after, budget.charged m), .ok m.name)
  | raised {after : Router} :
    models.find? (router.able policy budget) = none → after.policyPath = router.policyPath →
      after.decisions = router.decisions →
        TookFirst policy budget models router
          ((after, budget), .error (.valueError "Token budget exhausted"))

/-- A model that is passed over changes nothing, whatever else the router has recorded. -/
theorem TookFirst.cons {models : List ModelInfo} {m : ModelInfo} {router router' : Router}
    {after : Routed} (h : TookFirst policy budget models router' after)
    (hm : router.able policy budget m = false) (hpath : router'.policyPath = router.policyPath)
    (hdecisions : router'.decisions = router.decisions) :
    TookFirst policy budget (m :: models) router after := by
  have hable : router'.able policy budget = router.able policy budget := by
    unfold Router.able Router.verdict
    rw [hpath]
  have hfind : (m :: models).find? (router.able policy budget) =
      models.find? (router'.able policy budget) := by
    rw [hable]
    exact List.find?_cons_of_neg (by simp [hm])
  cases h with
  | took hfound hrecorded =>
    refine .took (hfind.trans hfound) ?_
    unfold Router.Recorded at hrecorded ⊢
    rwa [hpath, hdecisions] at hrecorded
  | raised hnone hpath' hdecisions' =>
    exact .raised (hfind.trans hnone) (hpath'.trans hpath) (hdecisions'.trans hdecisions)

/-- The loop takes the first able model. -/
theorem tryAll_tookFirst {models : List ModelInfo} (hcosts : ∀ m ∈ models, 0 ≤ m.costPer1kTokens)
    (index : Nat) (router : Router) :
    TookFirst policy budget models router (router.tryAll policy request budget index models) := by
  induction models generalizing index router with
  | nil =>
    obtain ⟨e, hrecord⟩ := @Router.record_ok
      { event := "route_exhausted", reason := "Token budget exhausted" } le_rfl le_rfl router
    unfold Router.tryAll
    rw [hrecord]
    exact .raised rfl rfl rfl
  | cons m rest ih =>
    have hcost : 0 ≤ m.estimatedCost := m.estimatedCost_eq ▸ hcosts m (List.mem_cons_self ..)
    have hrest := fun m' hm' => hcosts m' (List.mem_cons_of_mem m hm')
    unfold Router.tryAll
    by_cases hallow : (router.verdict policy m.tier).allow = false
    · obtain ⟨e, hrecord⟩ := @Router.record_ok {
        event := "route_denied"
        selectedModel := some m.name
        selectedTier := some m.tier
        reason := "model tier denied by policy"
        policyDecision := some (router.verdict policy m.tier) } le_rfl le_rfl router
      have hable : router.able policy budget m = false := by
        unfold Router.able
        rw [hallow, Bool.false_and]
      rw [if_pos hallow, hrecord]
      dsimp only
      exact (ih hrest (index + 1) _).cons hable rfl rfl
    · rw [if_neg hallow]
      by_cases hfits : budget.spent + m.estimatedCost ≤ budget.maxBudget
      · have hable : router.able policy budget m = true := by
          unfold Router.able
          rw [decide_eq_true hfits, Bool.and_true]
          simpa using hallow
        obtain ⟨after, hselect, hrecorded⟩ := @select_ok request budget index m
          (router.verdict policy m.tier) hcost hfits router
        rw [if_pos hfits, hselect]
        exact .took (List.find?_cons_of_pos hable) hrecorded
      · have hable : router.able policy budget m = false := by
          unfold Router.able
          rw [decide_eq_false hfits, Bool.and_false]
        rw [if_neg hfits]
        exact (ih hrest (index + 1) router).cons hable rfl rfl

end Loop

/-! ## A call -/

section Call

variable {models : List ModelInfo} {policy : Verdicts} {request : RouteRequest}
  {budget : BudgetManager} {router : Router}

/-- The manager after the depth check. -/
def BudgetManager.deeper (b : BudgetManager) : BudgetManager :=
  { b with currentDepth := b.currentDepth + 1 }

/-- The call gets past the depth check. -/
def BudgetManager.hasDepth (b : BudgetManager) : Bool := b.incrementDepth.2.isOk

theorem incrementDepth_eq (b : BudgetManager) : b.incrementDepth =
    (b.deeper, if b.hasDepth then .ok () else .error (.valueError "Loop depth exhausted")) := by
  unfold BudgetManager.hasDepth BudgetManager.incrementDepth
  by_cases h : b.currentDepth + 1 > b.maxDepth
  · rw [if_pos h]
    rfl
  · rw [if_neg h]
    rfl

theorem hasDepth_iff {b : BudgetManager} : b.hasDepth = true ↔ b.currentDepth + 1 ≤ b.maxDepth := by
  unfold BudgetManager.hasDepth BudgetManager.incrementDepth
  by_cases h : b.currentDepth + 1 > b.maxDepth
  · rw [if_pos h]
    exact ⟨fun h' => (nomatch h'), fun h' => absurd h' (not_le.mpr h)⟩
  · rw [if_neg h]
    exact ⟨fun _ => not_lt.mp h, fun _ => rfl⟩

/-- What a call does: it stops at the depth check; or there is no suitable model; or it returns the
    name of a choice, charges its cost and records it; or there is no choice.  In all the cases but
    the third, nothing is spent and no decision recorded. -/
inductive RouteSpec (router : Router) (models : List ModelInfo) (policy : Verdicts)
    (request : RouteRequest) (budget : BudgetManager) : Routed → Prop where
  | tooDeep {after : Router} : budget.hasDepth = false → after.decisions = router.decisions →
    RouteSpec router models policy request budget
      ((after, budget.deeper), .error (.valueError "Loop depth exhausted"))
  | noModels {after : Router} : budget.hasDepth = true → (∀ m ∈ models, ¬ request.Suits m) →
    after.decisions = router.decisions →
    RouteSpec router models policy request budget
      ((after, budget.deeper), .error (.valueError "No registered models available"))
  | chosen {after : Router} {m : ModelInfo} : budget.hasDepth = true →
    Choice request (router.able policy budget) models m → router.Recorded after m →
    RouteSpec router models policy request budget ((after, budget.deeper.charged m), .ok m.name)
  | exhausted {after : Router} : budget.hasDepth = true → (∃ m ∈ models, request.Suits m) →
    (∀ m ∈ models, request.Suits m → router.able policy budget m = false) →
    after.decisions = router.decisions →
    RouteSpec router models policy request budget
      ((after, budget.deeper), .error (.valueError "Token budget exhausted"))

theorem route_spec (hcosts : ∀ m ∈ models, 0 ≤ m.costPer1kTokens) :
    RouteSpec router models policy request budget (router.route models policy request budget) := by
  -- whether a model is able does not depend on the depth
  have hable : router.able policy budget.deeper = router.able policy budget := rfl
  unfold Router.route
  rw [incrementDepth_eq]
  cases hdepth : budget.hasDepth with
  | false => exact .tooDeep hdepth rfl
  | true =>
    show RouteSpec router models policy request budget (if _ then _ else _)
    by_cases hnone : orderedCandidates models request = []
    · rw [if_pos hnone]
      refine .noModels hdepth (fun m hm hsuits => ?_) rfl
      have hin := mem_orderedCandidates.mpr ⟨hm, hsuits⟩
      rw [hnone] at hin
      cases hin
    · rw [if_neg hnone]
      have htook := @tryAll_tookFirst policy request budget.deeper (orderedCandidates models request)
        (fun m hm => hcosts m (mem_orderedCandidates.mp hm).1) 0 router
      show RouteSpec router models policy request budget
        (router.tryAll policy request budget.deeper 0 (orderedCandidates models request))
      generalize router.tryAll policy request budget.deeper 0 (orderedCandidates models request) =
        after at htook ⊢
      cases htook with
      | took hfound hrecorded => exact .chosen hdepth (choice_of_find (hable ▸ hfound)) hrecorded
      | raised hnotfound hpath hdecisions =>
        obtain ⟨m, hm⟩ := List.exists_mem_of_ne_nil _ hnone
        refine .exhausted hdepth ⟨m, mem_orderedCandidates.mp hm⟩ (fun m' hm' hsuits => ?_)
          hdecisions
        have hnot := List.find?_eq_none.mp hnotfound m' (mem_orderedCandidates.mpr ⟨hm', hsuits⟩)
        rw [hable] at hnot
        simpa using hnot

section Spec

variable {out : Routed} (h : RouteSpec router models policy request budget out)

include h

theorem RouteSpec.returned {name : String} (hname : out.2 = .ok name) :
    ∃ m, Choice request (router.able policy budget) models m ∧ name = m.name ∧
      out.1.2.spent = budget.spent + m.estimatedCost := by
  cases h with
  | chosen _ hchoice _ => exact ⟨_, hchoice, (Except.ok.inj hname).symm, rfl⟩
  | tooDeep _ _ => cases hname
  | noModels _ _ _ => cases hname
  | exhausted _ _ _ _ => cases hname

theorem RouteSpec.unspent {e : PyError} (he : out.2 = .error e) :
    out.1.2.spent = budget.spent := by
  cases h with
  | chosen _ _ _ => cases he
  | tooDeep _ _ => rfl
  | noModels _ _ _ => rfl
  | exhausted _ _ _ _ => rfl

theorem RouteSpec.failed (hdepth : budget.hasDepth = true)
    (hmodels : ∃ m ∈ models, request.Suits m) :
    (∃ e, out.2 = .error e) ↔ ¬ ∃ m, Choice request (router.able policy budget) models m := by
  cases h with
  | tooDeep hnot _ =>
    rw [hdepth] at hnot
    cases hnot
  | noModels _ hnone _ =>
    obtain ⟨m, hm, hsuits⟩ := hmodels
    exact absurd hsuits (hnone m hm)
  | chosen _ hchoice _ =>
    exact ⟨fun ⟨e, he⟩ => (nomatch he), fun hnone => absurd ⟨_, hchoice⟩ hnone⟩
  | exhausted _ _ hnone _ =>
    refine ⟨fun _ => ?_, fun _ => ⟨_, rfl⟩⟩
    rintro ⟨m, hsuits, hable, front, back, hsplit, -, -⟩
    have hm : m ∈ models := hsplit ▸ List.mem_append_right front (List.mem_cons_self ..)
    rw [hnone m hm hsuits] at hable
    cases hable

/-- The limits are left alone and the depth counts the call. -/
theorem RouteSpec.limits : out.1.2.maxBudget = budget.maxBudget ∧
    out.1.2.maxDepth = budget.maxDepth ∧ out.1.2.currentDepth = budget.currentDepth + 1 := by
  cases h <;> exact ⟨rfl, rfl, rfl⟩

theorem RouteSpec.spent_le (hspent : budget.spent ≤ budget.maxBudget) :
    out.1.2.spent ≤ budget.maxBudget := by
  cases h with
  | @chosen after m _ hchoice _ =>
    have hable := hchoice.2.1
    unfold Router.able at hable
    rw [Bool.and_eq_true, decide_eq_true_eq] at hable
    exact hable.2
  | tooDeep _ _ => exact hspent
  | noModels _ _ _ => exact hspent
  | exhausted _ _ _ _ => exact hspent

/-- What is spent is what the decisions cost that are recorded. -/
theorem RouteSpec.recorded : ∃ new : List (Checked RouteDecision),
    out.1.1.decisions = router.decisions ++ new ∧
      out.1.2.spent = budget.spent + (new.map fun d => d.1.estimatedCost).sum := by
  cases h with
  | tooDeep _ hsame => exact ⟨[], by rw [hsame, List.append_nil], (add_zero _).symm⟩
  | noModels _ _ hsame => exact ⟨[], by rw [hsame, List.append_nil], (add_zero _).symm⟩
  | exhausted _ _ _ hsame => exact ⟨[], by rw [hsame, List.append_nil], (add_zero _).symm⟩
  | @chosen after m _ _ hrecorded =>
    obtain ⟨-, d, hd, -, -, hcost⟩ := hrecorded
    refine ⟨[d], hd, ?_⟩
    show budget.spent + m.estimatedCost = budget.spent + (d.1.estimatedCost + 0)
    rw [hcost, add_zero]

end Spec

end Call

/-! ## Routers that share a budget -/

structure RouteCall (ι : Type) where
  router : ι
  models : List ModelInfo
  policy : Verdicts
  request : RouteRequest

structure RoutingState (ι : Type) where
  budget : BudgetManager
  routers : ι → Router

namespace RoutingState

variable {ι : Type} [DecidableEq ι]

def outcome (s : RoutingState ι) (c : RouteCall ι) : Routed :=
  (s.routers c.router).route c.models c.policy c.request s.budget

/-- One call of `route`. -/
def call (s : RoutingState ι) (c : RouteCall ι) : RoutingState ι where
  budget := (s.outcome c).1.2
  routers := Function.update s.routers c.router (s.outcome c).1.1

def run (s : RoutingState ι) (calls : List (RouteCall ι)) : RoutingState ι := calls.foldl call s

/-- The number of calls that get past the depth check. -/
def passes (s : RoutingState ι) : List (RouteCall ι) → Nat
  | [] => 0
  | c :: rest => (if s.budget.hasDepth then 1 else 0) + (s.call c).passes rest

/-- The costs of the decisions that a router has recorded. -/
def total (s : RoutingState ι) (i : ι) : Rat :=
  ((s.routers i).decisions.map fun d => d.1.estimatedCost).sum

/-- What is promised of a call. -/
structure CallSpec (s : RoutingState ι) (c : RouteCall ι) : Prop where
  /-- The name that is returned is that of a choice, and its cost is charged. -/
  returned : ∀ name, (s.outcome c).2 = .ok name → ∃ m,
    Choice c.request ((s.routers c.router).able c.policy s.budget) c.models m ∧ name = m.name ∧
      (s.call c).budget.spent = s.budget.spent + m.estimatedCost
  /-- A call past the depth check that has a candidate fails only without a choice. -/
  failed : s.budget.hasDepth = true → (∃ m ∈ c.models, c.request.Suits m) →
    ((∃ e, (s.outcome c).2 = .error e) ↔
      ¬ ∃ m, Choice c.request ((s.routers c.router).able c.policy s.budget) c.models m)
  unspent : ∀ e, (s.outcome c).2 = .error e → (s.call c).budget.spent = s.budget.spent

/-- What is promised of a sequence of calls. -/
structure RespectsBudget (start : RoutingState ι) (calls : List (RouteCall ι)) : Prop where
  spent_le : (start.run calls).budget.spent ≤ start.budget.maxBudget
  passes_le : (start.passes calls : Int) ≤ start.budget.maxDepth
  each : ∀ before c after, calls = before ++ c :: after → CallSpec (start.run before) c
  /-- What is spent is what the decisions cost that were recorded since the start. -/
  spent_eq : ∀ t : Finset ι, (∀ c ∈ calls, c.router ∈ t) →
    (start.run calls).budget.spent = ∑ i ∈ t, ((start.run calls).total i - start.total i)
  kept : ∀ i, (start.routers i).decisions <+: ((start.run calls).routers i).decisions

/-- The costs of the models that a call is offered are not negative. -/
def Costed (c : RouteCall ι) : Prop := ∀ m ∈ c.models, 0 ≤ m.costPer1kTokens

/-! ### One call -/

section Step

variable {s : RoutingState ι} {c : RouteCall ι}

theorem call_spec (h : Costed c) : CallSpec s c where
  returned _ hname := (route_spec h).returned hname
  failed hdepth hmodels := (route_spec h).failed hdepth hmodels
  unspent _ he := (route_spec h).unspent he

/-- The manager's limits are still those of the start, and hold. -/
structure Kept (start s : RoutingState ι) : Prop where
  maxBudget : s.budget.maxBudget = start.budget.maxBudget
  maxDepth : s.budget.maxDepth = start.budget.maxDepth
  spent_le : s.budget.spent ≤ s.budget.maxBudget

theorem Kept.call {start : RoutingState ι} (hkept : Kept start s) (h : Costed c) :
    Kept start (s.call c) := by
  have hspec : RouteSpec (s.routers c.router) c.models c.policy c.request s.budget (s.outcome c) :=
    route_spec h
  obtain ⟨hbudget, hdepth, -⟩ := hspec.limits
  refine ⟨hbudget.trans hkept.maxBudget, hdepth.trans hkept.maxDepth, ?_⟩
  exact (hspec.spent_le hkept.spent_le).trans (le_of_eq hbudget.symm)

/-- What a call spends is what the decisions cost that its router records. -/
theorem call_total (h : Costed c) (i : ι) :
    (s.routers i).decisions <+: ((s.call c).routers i).decisions ∧
      (s.call c).total i - s.total i =
        if i = c.router then (s.call c).budget.spent - s.budget.spent else 0 := by
  have hspec : RouteSpec (s.routers c.router) c.models c.policy c.request s.budget (s.outcome c) :=
    route_spec h
  by_cases hi : i = c.router
  · obtain ⟨new, hnew, hspent⟩ := hspec.recorded
    have hrouter : (s.call c).routers i = (s.outcome c).1.1 := by
      rw [hi]
      exact Function.update_self ..
    have hbudget : (s.call c).budget.spent = (s.outcome c).1.2.spent := rfl
    have hdecisions : ((s.call c).routers i).decisions = (s.routers i).decisions ++ new := by
      rw [hrouter, hnew, hi]
    refine ⟨⟨new, hdecisions.symm⟩, ?_⟩
    unfold total
    rw [if_pos hi, hdecisions, List.map_append, List.sum_append, hbudget, hspent]
    ring
  · have hrouter : (s.call c).routers i = s.routers i := Function.update_of_ne hi ..
    unfold total
    rw [if_neg hi, hrouter, sub_self]
    exact ⟨List.prefix_rfl, rfl⟩

end Step

/-! ### A sequence of calls -/

section Run

variable {s : RoutingState ι} {calls : List (RouteCall ι)}

theorem Kept.run {start : RoutingState ι} (hkept : Kept start s) (h : ∀ c ∈ calls, Costed c) :
    Kept start (s.run calls) := by
  induction calls generalizing s with
  | nil => exact hkept
  | cons c rest ih =>
    exact ih (hkept.call (h c (List.mem_cons_self ..)))
      fun c' hc' => h c' (List.mem_cons_of_mem c hc')

/-- Each call uses up one of the depths that are left. -/
theorem passes_le (h : ∀ c ∈ calls, Costed c) :
    (s.passes calls : Int) ≤ max 0 (s.budget.maxDepth - s.budget.currentDepth) := by
  induction calls generalizing s with
  | nil => exact le_max_left _ _
  | cons c rest ih =>
    have hspec : RouteSpec (s.routers c.router) c.models c.policy c.request s.budget
        (s.outcome c) :=
      route_spec (h c (List.mem_cons_self ..))
    have hrest := @ih (s.call c) fun c' hc' => h c' (List.mem_cons_of_mem c hc')
    obtain ⟨-, hmax, hdepth⟩ := hspec.limits
    have hmax' : (s.call c).budget.maxDepth = s.budget.maxDepth := hmax
    have hdepth' : (s.call c).budget.currentDepth = s.budget.currentDepth + 1 := hdepth
    rw [hmax', hdepth'] at hrest
    unfold passes
    by_cases hpast : s.budget.hasDepth = true
    · have hle := hasDepth_iff.mp hpast
      rw [if_pos hpast]
      push_cast
      omega
    · rw [if_neg hpast]
      push_cast
      omega

/-- What is spent is what the recorded decisions cost. -/
theorem spent_eq_sum (h : ∀ c ∈ calls, Costed c) {t : Finset ι} (ht : ∀ c ∈ calls, c.router ∈ t) :
    (s.run calls).budget.spent - s.budget.spent = ∑ i ∈ t, ((s.run calls).total i - s.total i) := by
  induction calls generalizing s with
  | nil =>
    show s.budget.spent - s.budget.spent = ∑ i ∈ t, (s.total i - s.total i)
    simp
  | cons c rest ih =>
    have hc := h c (List.mem_cons_self ..)
    have hrest := @ih (s.call c) (fun c' hc' => h c' (List.mem_cons_of_mem c hc'))
      fun c' hc' => ht c' (List.mem_cons_of_mem c hc')
    have hfirst : (s.call c).budget.spent - s.budget.spent =
        ∑ i ∈ t, ((s.call c).total i - s.total i) := by
      rw [Finset.sum_congr rfl fun i _ => (call_total hc i).2, Finset.sum_ite_eq',
        if_pos (ht c (List.mem_cons_self ..))]
    have hrun : s.run (c :: rest) = (s.call c).run rest := rfl
    rw [hrun]
    calc ((s.call c).run rest).budget.spent - s.budget.spent
        = (((s.call c).run rest).budget.spent - (s.call c).budget.spent) +
            ((s.call c).budget.spent - s.budget.spent) := by ring
      _ = ∑ i ∈ t, (((s.call c).run rest).total i - (s.call c).total i) +
            ∑ i ∈ t, ((s.call c).total i - s.total i) := by rw [hrest, hfirst]
      _ = ∑ i ∈ t, (((s.call c).run rest).total i - s.total i) := by
          rw [← Finset.sum_add_distrib]
          exact Finset.sum_congr rfl fun i _ => by ring

theorem decisions_kept (h : ∀ c ∈ calls, Costed c) (i : ι) :
    (s.routers i).decisions <+: ((s.run calls).routers i).decisions := by
  induction calls generalizing s with
  | nil => exact List.prefix_rfl
  | cons c rest ih =>
    have hfirst := (@call_total ι _ s c (h c (List.mem_cons_self ..)) i).1
    exact hfirst.trans (@ih (s.call c) fun c' hc' => h c' (List.mem_cons_of_mem c hc'))

end Run

/-- Routers that share a fresh budget manager keep to it, and take the first model that they can. -/
theorem run_respects (routers : ι → Router) {maxBudget : Rat} {maxDepth : Int}
    (hbudget : 0 ≤ maxBudget) (hdepth : 0 ≤ maxDepth) {calls : List (RouteCall ι)}
    (hcosts : ∀ c ∈ calls, Costed c) :
    RespectsBudget ⟨{ maxBudget := maxBudget, maxDepth := maxDepth }, routers⟩ calls := by
  have hkept := @Kept.run ι _ ⟨{ maxBudget, maxDepth }, routers⟩ calls _ ⟨rfl, rfl, hbudget⟩ hcosts
  refine ⟨hkept.spent_le.trans (le_of_eq hkept.maxBudget), ?_, ?_, ?_, decisions_kept hcosts⟩
  · have hpasses := @passes_le ι _ ⟨{ maxBudget, maxDepth }, routers⟩ calls hcosts
    have hmax : max 0 (maxDepth - 0) = maxDepth := by omega
    exact hpasses.trans (le_of_eq hmax)
  · rintro before c after rfl
    exact call_spec (hcosts c (List.mem_append_right before (List.mem_cons_self ..)))
  · intro t ht
    have hsum := @spent_eq_sum ι _ ⟨{ maxBudget, maxDepth }, routers⟩ calls hcosts t ht
    exact (sub_zero _).symm.trans hsum

/-- Two calls: the second gets the cheaper model that still fits. -/
theorem run_respects_fallback : RespectsBudget
    (⟨{ maxBudget := 3 / 20, maxDepth := 5 }, fun _ => {}⟩ : RoutingState Unit)
    (List.replicate 2 {
      router := ()
      models := [⟨"expensive-model", "tier2", 1 / 10⟩, ⟨"cheap-model", "tier1", 1 / 100⟩]
      policy := fun _ _ => { allow := true }
      request := {} }) :=
  run_respects _ (by decide +kernel) (by decide) fun c hc m hm => by
    obtain rfl := (List.mem_replicate.mp hc).2
    rcases List.mem_cons.mp hm with rfl | hm
    · decide +kernel
    · rw [List.mem_singleton.mp hm]
      decide +kernel

end RoutingState

end Vad
