import QuantAgent.Features.Candidate
import QuantAgent.Lib.PyJoin
import QuantAgent.Lib.Binary64

namespace QuantAgent.Campaign
open QuantAgent.Features
set_option autoImplicit true

inductive SelectionMode where
  | standard
  | automatic
  | userDefined
deriving DecidableEq, Repr

/-- The entries of the `risk_constraints` dictionary that the nodes read, each under its type. -/
structure RiskConstraints (F : Type) where
  maxPositionPct : Option F := none
  stopLossPct : Option F := none
  takeProfitPct : Option F := none
  trailingStopPct : Option F := none
  mediumMomentumWeight : Option F := none
  rebalanceIntervalDays : Option ℕ := none
  holdingDays : Option ℕ := none
  researchSnapshotHash : Option String := none
  sealedCandidateIds : Option String := none
  sealedCandidateSignatures : Option String := none

/-- `ai_graph.schemas.StrategySpec` -/
structure StrategySpec (F : Type) [PyFloat F] where
  strategyId : String
  entryConditions : List (DescribedCondition F)
  exitConditions : List (DescribedCondition F)
  indicators : List String
  riskConstraints : RiskConstraints F
  assumptions : List String
  selectionMode : SelectionMode
  entry_ne : entryConditions ≠ []

/-- `^qb-v2-[a-z0-9-]+$` -/
def CatalogIdPattern (id : String) : Prop :=
  ∃ rest, rest ≠ [] ∧ id.toList = "qb-v2-".toList ++ rest ∧
    ∀ c ∈ rest, c.isLower ∨ c.isDigit ∨ c = '-'

/-- `^[0-9a-f]{64}$` -/
def HexDigest (s : String) : Prop :=
  s.length = 64 ∧ ∀ c ∈ s.toList, c.isDigit ∨ c ∈ ['a', 'b', 'c', 'd', 'e', 'f']

/-- `StrategyBlueprintTemplate`: one formula of the catalogue, as the engine executes it. -/
structure StrategyBlueprintTemplate (F : Type) [PyFloat F] where
  catalogId : String
  profile : Profile
  entryConditions : List (DescribedCondition F)
  exitConditions : List (DescribedCondition F)
  rankingMetric : String
  rankingDirection : RankingDirection
  executionMode : ExecutionMode
  executionSignature : String
  requiredData : List String
  /-- The lookback and the threshold are fixed by the formula, so no request moves them. -/
  lookback : ℕ
  threshold : F
  id_pattern : CatalogIdPattern catalogId
  signature_pattern : HexDigest executionSignature
  entry_ne : entryConditions ≠ []

/-- `strategy_blueprint_catalog()` -/
structure BlueprintCatalog (F : Type) [PyFloat F] where
  version : String
  fingerprint : String
  templates : List (StrategyBlueprintTemplate F)
  ids_unique : (templates.map StrategyBlueprintTemplate.catalogId).Nodup

/-- `{item.catalog_id: item for item in strategy_blueprint_catalog()}.get(id)` -/
def BlueprintCatalog.get? [PyFloat F] (catalog : BlueprintCatalog F) (id : String) :
    Option (StrategyBlueprintTemplate F) :=
  catalog.templates.find? fun template => template.catalogId = id

structure ExplorationCandidateRefV2 where
  catalogId : String
  executionSignature : String
  id_pattern : CatalogIdPattern catalogId
  signature_pattern : HexDigest executionSignature

structure ExplorationExecutionSpecV2 where
  policyVersion : String
  policyHash : String
  catalogVersion : String
  catalogHash : String
  candidates : List ExplorationCandidateRefV2
  two_le : 2 ≤ candidates.length
  le_ten : candidates.length ≤ 10
  ids_unique : (candidates.map ExplorationCandidateRefV2.catalogId).Nodup

/-- `ActiveExplorationPolicyV2`, with the fields of its policy. -/
structure ActiveExplorationPolicyV2 (F : Type) where
  policyVersion : String
  policyHash : String
  catalogVersion : String
  catalogHash : String
  candidateCount : ℕ
  maxPositions : ℕ
  rebalanceIntervalDays : ℕ
  stopLossPct : F
  takeProfitPct : F
  trailingStopPct : F
  two_le : 2 ≤ candidateCount
  le_ten : candidateCount ≤ 10
  positions_pos : 1 ≤ maxPositions
  positions_le : maxPositions ≤ 1000
  rebalance_bounds : 5 ≤ rebalanceIntervalDays ∧ rebalanceIntervalDays ≤ 63

section Policy
variable {F : Type} [PyFloat F]

/-- `validate_active_exploration_policy` -/
def validateActiveExplorationPolicy (catalog : BlueprintCatalog F)
    (record : ActiveExplorationPolicyV2 F) : Except String Unit := do
  unless record.catalogVersion = catalog.version do throw "exploration_catalog_version_stale"
  unless record.catalogHash = catalog.fingerprint do throw "exploration_catalog_hash_stale"

/-- The checks of one candidate, after the identities of those before it. -/
def validateCandidateRef (catalog : BlueprintCatalog F) (seen : List String)
    (candidate : ExplorationCandidateRefV2) : Except String (List String) :=
  if candidate.catalogId = "" ∨ candidate.catalogId ∈ seen then
    throw "exploration_candidate_catalog_stale"
  else
    match catalog.get? candidate.catalogId with
    | none => throw "exploration_candidate_catalog_stale"
    | some template =>
      if candidate.executionSignature = template.executionSignature then
        pure (candidate.catalogId :: seen)
      else throw "exploration_candidate_signature_stale"

/-- `validate_exploration_spec_against_policy` -/
def validateExplorationSpecAgainstPolicy (catalog : BlueprintCatalog F)
    (spec : ExplorationExecutionSpecV2) (record : ActiveExplorationPolicyV2 F) :
    Except String Unit := do
  validateActiveExplorationPolicy catalog record
  unless spec.policyVersion = record.policyVersion do throw "exploration_policy_version_stale"
  unless spec.policyHash = record.policyHash do throw "exploration_policy_hash_stale"
  unless spec.catalogVersion = record.catalogVersion do throw "exploration_catalog_version_stale"
  unless spec.catalogHash = record.catalogHash do throw "exploration_catalog_hash_stale"
  unless spec.candidates.length = record.candidateCount do throw "exploration_candidate_count_stale"
  let _ ← spec.candidates.foldlM (validateCandidateRef catalog) []

end Policy

/-- `ResearchCandidateV3` -/
structure ResearchCandidateV3 (F : Type) [PyFloat F] where
  candidateId : String
  entryConditions : List (DescribedCondition F)
  exitConditions : List (DescribedCondition F)
  holdingDays : Option ℕ
  rebalanceIntervalDays : Option ℕ
  stopLossPct : Option F
  trailingStopPct : Option F
  takeProfitPct : Option F
  maxPositions : Option ℕ
  requiredMetrics : List String
  assumptions : List String
  counterHypothesis : String
  entry_ne : entryConditions ≠ []
  entry_le : entryConditions.length ≤ 6
  exit_le : exitConditions.length ≤ 6
  holding_bounds : ∀ n ∈ holdingDays, 1 ≤ n ∧ n ≤ 250
  rebalance_bounds : ∀ n ∈ rebalanceIntervalDays, 5 ≤ n ∧ n ≤ 63
  positions_bounds : ∀ n ∈ maxPositions, 1 ≤ n ∧ n ≤ 50
  required_ne : requiredMetrics ≠ []
  states_an_exit : exitConditions ≠ [] ∨ holdingDays.isSome

/-- `ResearchCandidateExecutionSpecV3`, whose list of candidates holds exactly one. -/
structure ResearchCandidateExecutionSpecV3 (F : Type) [PyFloat F] where
  researchSnapshotHash : String
  candidate : ResearchCandidateV3 F
  snapshot_pattern : HexDigest researchSnapshotHash

end QuantAgent.Campaign
