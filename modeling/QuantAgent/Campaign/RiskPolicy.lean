import QuantAgent.Campaign.Specs

namespace QuantAgent.Campaign
open QuantAgent.Features
set_option autoImplicit true

inductive RiskFamily where
  | defensive
  | momentum
  | trend
deriving DecidableEq, Repr

/-- `_RESEARCH_RISK_FAMILY_MARKERS`; what no family claims is `trend`. -/
def riskFamilyMarkers : List (RiskFamily × List String) :=
  [(.defensive,
      ["rsi", "stoch", "williams", "cci", "zscore", "bollinger", "mfi", "return_5d", "drawdown",
        "loss_streak", "ulcer", "per", "pbr", "eps", "dividend", "earnings", "roe",
        "operating_margin", "operating_income", "revenue", "debt_to_equity", "up_streak",
        "growth_streak", "volatility"]),
    (.momentum,
      ["momentum", "relative_strength", "return_", "sharpe_", "sortino_", "price_volume_score",
        "close_to_high", "r_squared"])]

/-- The names one condition reads, as its author spelled them. -/
def conditionNames [PyFloat F] (condition : DescribedCondition F) : List String :=
  match condition.right with
  | .metric right => [pyLower condition.left, pyLower right]
  | _ => [pyLower condition.left]

def familyOfNames (names : List String) : RiskFamily :=
  (riskFamilyMarkers.findSome? fun (family, markers) =>
    if names.any fun name => markers.any fun marker => pyContains marker name then some family
    else none).getD .trend

section Policy
variable {F : Type} [NumPy F] [NextFloat F]

/-- `_research_risk_family` -/
def researchRiskFamily (candidate : ResearchCandidateV3 F) : RiskFamily :=
  let names := candidate.entryConditions.flatMap conditionNames
  if names.any fun name => name ≠ "" then familyOfNames names
  else familyOfNames (candidate.requiredMetrics.map pyLower)

/-- Stop loss, trailing stop and number of positions. -/
structure RiskDefaults (F : Type) where
  stopLossPct : F
  trailingStopPct : F
  maxPositions : ℕ

/-- `_RESEARCH_RISK_DEFAULTS` -/
def researchRiskDefaults : RiskFamily → RiskDefaults F
  | .defensive => ⟨decimal 25 2, decimal 30 2, 20⟩
  | .momentum => ⟨decimal 15 2, decimal 25 2, 10⟩
  | .trend => ⟨decimal 15 2, decimal 25 2, 15⟩

/-- `_position_pct_for` -/
def positionPctFor (maxPositions : ℕ) : F := pyMin 1 (NextFloat.nextUp (1 / lit maxPositions))

/-- `_research_risk_policy`: the constraints a researched rule runs under. -/
def researchRiskPolicy (candidate : ResearchCandidateV3 F) : RiskConstraints F :=
  let defaults : RiskDefaults F := researchRiskDefaults (researchRiskFamily candidate)
  { maxPositionPct := some (positionPctFor (candidate.maxPositions.getD defaults.maxPositions))
    stopLossPct := some (candidate.stopLossPct.getD defaults.stopLossPct)
    trailingStopPct := some (candidate.trailingStopPct.getD defaults.trailingStopPct)
    takeProfitPct := some (candidate.takeProfitPct.getD (lit 10)) }

/-- `_RESEARCH_RISK_FAMILY_LABELS` -/
def riskFamilyLabel : RiskFamily → String
  | .defensive => "평균회귀·가치·퀄리티·저변동"
  | .momentum => "모멘텀·로테이션"
  | .trend => "추세 교차"

/-- A control of the policy: its text, and whether the research stated it. -/
def riskControls (candidate : ResearchCandidateV3 F) : List (String × Bool) :=
  let defaults : RiskDefaults F := researchRiskDefaults (researchRiskFamily candidate)
  [("손절 " ++ PyFloat.percentText (candidate.stopLossPct.getD defaults.stopLossPct),
      candidate.stopLossPct.isSome),
    ("고점 대비 추적손절 " ++
        PyFloat.percentText (candidate.trailingStopPct.getD defaults.trailingStopPct),
      candidate.trailingStopPct.isSome),
    (match candidate.takeProfitPct with
      | none => "익절 미설정(사실상 해제)"
      | some takeProfit => "익절 " ++ PyFloat.percentText takeProfit,
      candidate.takeProfitPct.isSome),
    ("최대 " ++ toString (candidate.maxPositions.getD defaults.maxPositions) ++ "종목",
      candidate.maxPositions.isSome)]

/-- The notes `_research_risk_policy` discloses. -/
def riskNotes (candidate : ResearchCandidateV3 F) : List String :=
  let stated := (riskControls candidate).filterMap fun (text, named) => if named then some text else none
  let assumed := (riskControls candidate).filterMap fun (text, named) => if named then none else some text
  (if stated = [] then [] else ["리서치가 지정한 리스크 정책: " ++ ", ".intercalate stated]) ++
    (if assumed = [] then []
    else
      ["리서치가 값을 제시하지 않아 진입 지표 계열(" ++
          riskFamilyLabel (researchRiskFamily candidate) ++ ")의 기본값을 적용: " ++
        ", ".intercalate assumed])

/-- `_strategy_spec_from_execution_spec` on a researched candidate; `digest` is the spec's own. -/
def strategyOfResearch (digest : String) (spec : ResearchCandidateExecutionSpecV3 F) :
    StrategySpec F where
  strategyId := "researched_" ++ digest
  entryConditions := spec.candidate.entryConditions
  exitConditions := spec.candidate.exitConditions
  indicators := spec.candidate.requiredMetrics.eraseDups
  riskConstraints :=
    { researchRiskPolicy spec.candidate with
      researchSnapshotHash := some spec.researchSnapshotHash
      holdingDays := spec.candidate.holdingDays
      rebalanceIntervalDays := spec.candidate.rebalanceIntervalDays }
  assumptions := spec.candidate.assumptions ++
    ["AI 웹 리서치로 전략 의미를 정규화하고, 조건과 근거를 성과 조회 전에 봉인함",
      "반대 가설: " ++ spec.candidate.counterHypothesis] ++ riskNotes spec.candidate
  selectionMode := .userDefined
  entry_ne := spec.candidate.entry_ne

/-- The same on an exploration: the templates of its candidates, the first one's conditions. -/
def strategyOfExploration (digest : String) (catalog : BlueprintCatalog F)
    (policy : ActiveExplorationPolicyV2 F) (spec : ExplorationExecutionSpecV2) :
    Except PyError (StrategySpec F) := do
  let templates ← spec.candidates.mapM fun candidate =>
    match catalog.get? candidate.catalogId with
    | some template => pure template
    | none => throw (PyError.keyError candidate.catalogId)
  match templates with
  | [] => throw .indexError
  | first :: _ =>
    pure
      { strategyId := "exploration_" ++ digest
        entryConditions := first.entryConditions
        exitConditions := first.exitConditions
        indicators := (templates.flatMap StrategyBlueprintTemplate.requiredData).eraseDups
        riskConstraints :=
          { maxPositionPct := some (PyFloat.round 8 (1 / lit policy.maxPositions))
            stopLossPct := some policy.stopLossPct
            takeProfitPct := some policy.takeProfitPct
            trailingStopPct := some policy.trailingStopPct
            rebalanceIntervalDays := some policy.rebalanceIntervalDays
            sealedCandidateIds := some (pyJoin ','
              (spec.candidates.map ExplorationCandidateRefV2.catalogId))
            sealedCandidateSignatures := some (pyJoin ','
              (spec.candidates.map ExplorationCandidateRefV2.executionSignature)) }
        assumptions :=
          ["성과 조회 전에 정책과 후보군을 고정함",
            "모든 후보에 같은 PIT 데이터, 비용, 검증 구간을 적용함",
            "개인별 매매 추천이 아닌 과거 데이터 연구임"]
        selectionMode := .automatic
        entry_ne := first.entry_ne }

end Policy

end QuantAgent.Campaign
