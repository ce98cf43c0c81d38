import QuantAgent.Campaign.Provenance
import QuantAgent.Lib.PyText
import Mathlib.Data.List.TakeWhile

namespace QuantAgent.Campaign
set_option autoImplicit true

/-- `needle in haystack` -/
def pyIn (needle haystack : String) : Bool := decide (needle.toList <:+: haystack.toList)

/-- The characters of a number that is formatted. -/
def numeralChars : List Char := "0123456789.+-e%infa".toList

/-- How floats are formatted, by the format. -/
structure Formats (F : Type) where
  general : F → String
  fixed : ℕ → F → String
  percent : ℕ → F → String
  general_chars : ∀ x, ∀ c ∈ (general x).toList, c ∈ numeralChars
  fixed_chars : ∀ n x, ∀ c ∈ (fixed n x).toList, c ∈ numeralChars
  percent_chars : ∀ n x, ∀ c ∈ (percent n x).toList, c ∈ numeralChars

/-- `backtest_payload["benchmark"]["primary"]`; its return is none where it is not a number. -/
structure PrimaryBenchmark (F : Type) where
  available : Bool
  returnValue : Option F
  unavailableReason : Option String

/-- What the gate reads of a result: the result, the trade count its engine summary has, if any, the
selection mode and the benchmarks of its payload. -/
structure GateBacktest (F : Type) [PyFloat F] where
  result : CandidateBacktestResult F
  tradeCount : Option F
  automatic : Bool
  primary : Option (PrimaryBenchmark F)
  auxiliaryReturn : Option F

structure PerformanceUnavailable where
  reasonCode : String
  tradingDays : Option ℤ
  minimumTradingDays : Option ℤ
  tickerCount : Option ℤ
  minimumTickers : Option ℤ

structure FreshnessEvidence where
  noRecommendation : Bool
  reason : Option String

/-- `state["objective_floor"]` -/
structure ObjectiveFloor where
  mode : String
  cleared : Bool
  reasons : List String

/-- What the gate reads of the graph's state; a payload that does not validate is an error. -/
structure GateState (F : Type) [PyFloat F] where
  freshnessEvidence : Option FreshnessEvidence
  backtest : Option (Except Unit (GateBacktest F))
  objectiveFloor : Option ObjectiveFloor
  strategyValidated : Option Bool

structure RecommendationGate where
  validated : Bool
  reason : String
  verificationComplete : Bool := true
  unmetObjectiveCriteria : List String := []
  unmetDataRequirements : List String := []

section Texts
variable {F : Type} [NumPy F] (fmt : Formats F)

/-- `PROXY_BENCHMARK_JUDGEMENT_SUFFIX` -/
def proxySuffix : String := "(유니버스 동일가중 프록시 — 공식 지수 아님 기준)"

/-- The benchmark return that the total return is compared with. -/
def parsedBenchmark (metrics : BacktestMetrics F) (benchmarkReturn : Option F) : Option F :=
  benchmarkReturn.or do
    let selection ← metrics.inSampleBenchmarkReturn
    let lockbox ← metrics.outSampleBenchmarkReturn
    pure ((1 + selection) * (1 + lockbox) - 1)

/-- The texts of `_benchmark_objective_reasons`. -/
def BenchmarkReason.text (metrics : BacktestMetrics F) (benchmarkReturn : Option F) :
    BenchmarkReason → String
  | aggregateUnavailable => "walk-forward benchmark aggregate is unavailable"
  | noPeriods => "63거래일 벤치마크 비교 구간이 없습니다"
  | lockboxUnavailable => "walk-forward final lockbox benchmark aggregate is unavailable"
  | noLockboxPeriods => "최종 미사용 구간에 63거래일 벤치마크 비교 구간이 없습니다"
  | lossRate =>
    "최종 미사용 구간의 벤치마크 패배 비율 " ++
      fmt.percent 1 (metrics.outSampleBenchmarkPeriodLossRate.getD 0) ++ " >= 50%"
  | excessUnavailable => "walk-forward final lockbox excess return is unavailable"
  | excess =>
    "최종 미사용 구간 초과수익률 " ++ fmt.percent 2 (metrics.outSampleExcessReturn.getD 0) ++ " <= 0%"
  | officialUnavailable => "official benchmark aggregate is unavailable"
  | totalReturn =>
    "전체 수익률 " ++ fmt.percent 2 metrics.totalReturn ++ " <= 벤치마크 " ++
      fmt.percent 2 ((parsedBenchmark metrics benchmarkReturn).getD 0)

/-- The texts of `objective_floor_reasons`. -/
def FloorReason.text (tradeCount : F) (metrics : BacktestMetrics F) (benchmarkReturn : Option F) :
    FloorReason → String
  | .tradeCount => "거래 수 " ++ fmt.general tradeCount ++ "건이 최소 5건에 미달합니다"
  | .sharpeUnavailable => "미사용 구간 Sharpe 를 계산하지 못했습니다"
  | .sharpe =>
    "미사용 구간 Sharpe " ++ fmt.fixed 2 (metrics.outSampleSharpe.getD 0) ++ " 가 기준 0 에 미달합니다"
  | .drawdown => "최대 낙폭 " ++ fmt.percent 1 metrics.maxDrawdown ++ " 가 한도 -50% 를 넘습니다"
  | .adjustedSharpe =>
    "탐색 폭 보정 Sharpe " ++ fmt.fixed 2 metrics.selectionAdjustedSharpe ++ " 가 기준 0 에 미달합니다"
  | .noBenchmark => "공식 KOSPI/KOSDAQ TR 벤치마크도, 유니버스 동일가중 프록시도 확보하지 못했습니다"
  | .benchmark proxy reason =>
    if proxy then reason.text fmt metrics benchmarkReturn ++ " " ++ proxySuffix
    else reason.text fmt metrics benchmarkReturn

end Texts

namespace GateBacktest
variable {F : Type} [NumPy F]

/-- `_summary_float_default(engine_summary, "effective_trade_count", 0.0)` -/
def effectiveTradeCount (run : GateBacktest F) : F := run.tradeCount.getD 0

/-- The official benchmark, if it is available, with its return if that is a number. -/
def officialBenchmark (run : GateBacktest F) : Option (Option F) :=
  run.primary.bind fun primary => if primary.available then some primary.returnValue else none

/-- The return that `objective_floor_reasons` hands to the benchmark checks. -/
def benchmarkReturn (run : GateBacktest F) : Option F :=
  match run.officialBenchmark with
  | some official => official
  | none => run.auxiliaryReturn

/-- The metrics of the floor; none without a selected candidate's own. -/
def metrics? (run : GateBacktest F) : Option (BacktestMetrics F) :=
  run.result.selected.metrics.map (floorMetrics run.result)

/-- `objective_floor_reasons` on the result, whatever session it comes from. -/
def floorReasons (run : GateBacktest F) (session : Session F) : List FloorReason :=
  objectiveFloorReasons
    { session with
      primaryBenchmark := run.officialBenchmark
      auxiliaryReturn := run.auxiliaryReturn }
    run.automatic { run.result with effectiveTradeCount := run.effectiveTradeCount }

/-- The texts that `backtest_node` publishes of it. -/
def floorTexts (run : GateBacktest F) (fmt : Formats F) (session : Session F)
    (metrics : BacktestMetrics F) : List String :=
  (run.floorReasons session).map (FloorReason.text fmt run.effectiveTradeCount metrics run.benchmarkReturn)

end GateBacktest

section Gate
variable {F : Type} [NumPy F] (fmt : Formats F)

/-- `_DATA_GAP_REASON_MARKERS` -/
def dataGapReasonMarkers : List String := ["is unavailable", "계산할 수 없음", "비교 구간이 없습니다"]

/-- `_is_data_gap_reason` -/
def isDataGapReason (reason : String) : Bool := dataGapReasonMarkers.any fun marker => pyIn marker reason

/-- `_benchmark_input_gaps` -/
def benchmarkInputGaps (run : GateBacktest F) : List String :=
  if !run.automatic then []
  else if run.officialBenchmark.isSome then []
  else
    let stated := pyStrip ((run.primary.bind PrimaryBenchmark.unavailableReason).getD "")
    let detail := if stated = "" then "" else " (" ++ stated ++ ")"
    ["공식 KOSPI/KOSDAQ TR 벤치마크 시계열이 아직 적재되지 않아 벤치마크 대비 검증을 완료하지 못했습니다" ++ detail]

/-- `_gate_reason` -/
def gateReason (validated : Bool) (shortfalls gaps : List String) : String :=
  if validated && gaps.isEmpty then "objective gate를 모두 통과해 오늘의 추천을 유지합니다."
  else if validated then
    "측정된 objective 지표는 모두 통과했지만, 검증에 필요한 데이터가 없어 검증을 끝내지 못했습니다: " ++
      "; ".intercalate gaps
  else if !shortfalls.isEmpty && !gaps.isEmpty then
    "objective 조건 미충족: " ++ ", ".intercalate shortfalls ++ " / 그리고 아직 검증하지 못한 항목: " ++
      "; ".intercalate gaps
  else if !shortfalls.isEmpty then "objective 조건 미충족: " ++ ", ".intercalate shortfalls
  else
    "성과가 기준에 미달한 것이 아니라, 검증에 필요한 데이터가 아직 없어 판정을 내리지 못했습니다: " ++
      "; ".intercalate gaps

/-- `_objective_gate_reasons`; its benchmark checks get no benchmark return. -/
def objectiveGateReasons (metrics : BacktestMetrics F) (tradeCount : F) (automatic : Bool) : List String :=
  (check (tradeCount < lit 5)
    ("거래 횟수 " ++ fmt.fixed 0 tradeCount ++ "회로 MIN_OBJECTIVE_TRADES=5 조건 미달")) ++
  (match metrics.outSampleSharpe with
    | none => ["워크포워드 외부 샤프비율을 신뢰성 있게 계산할 수 없음"]
    | some sharpe => check (sharpe < 0) ("보유 구간 외부 샤프비율 " ++ fmt.fixed 4 sharpe ++ " < 0.00")) ++
  (check (metrics.maxDrawdown < -decimal 5 1)
    ("최대 낙폭 " ++ fmt.fixed 4 metrics.maxDrawdown ++ " < -0.50 (리스크 허용치 미달)")) ++
  (if automatic then
    (benchmarkObjectiveReasons metrics none).map (BenchmarkReason.text fmt metrics none)
  else [])

def factText (fact : Option ℤ) : String := (fact.map toString).getD "None"

/-- `_insufficient_input_reason` -/
def insufficientInputReason (performance : PerformanceUnavailable) : String :=
  if performance.reasonCode = "insufficient_reliability" then
    "입력 기간·유니버스가 최소 기준에 미달해 추천을 생성하지 않습니다. (거래일 " ++
      factText performance.tradingDays ++ "일 / 최소 " ++ factText performance.minimumTradingDays ++
      "일, 종목 " ++ factText performance.tickerCount ++ "개 / 최소 " ++
      factText performance.minimumTickers ++ "개)"
  else
    "공개 가능한 백테스트 성과가 없어 추천 규칙 통과 여부를 판단할 수 없습니다. (" ++
      performance.reasonCode ++ ")"

/-- `_minimum_input_gaps` -/
def minimumInputGaps (performance : PerformanceUnavailable) : List String :=
  let gap := fun (observedKey requiredKey : String) (observed required : Option ℤ) =>
    match observed, required with
    | some o, some r =>
      check (o < r) (observedKey ++ ":" ++ toString o ++ " < " ++ requiredKey ++ ":" ++ toString r)
    | _, _ => []
  ["performance_unavailable:" ++ performance.reasonCode] ++
    gap "trading_days" "minimum_trading_days" performance.tradingDays performance.minimumTradingDays ++
    gap "ticker_count" "minimum_tickers" performance.tickerCount performance.minimumTickers

/-- The reasons the gate judges on, its verdict, and whether it is that of the floor's own policy. -/
def gateVerdict (state : GateState F) (run : GateBacktest F) (metrics : BacktestMetrics F) :
    List String × Bool × Bool :=
  match state.objectiveFloor, state.strategyValidated with
  | some floor, some validated =>
    (floor.reasons.filter fun reason => pyStrip reason ≠ "", validated,
      pyLower (pyStrip floor.mode) == "report_only" && !floor.cleared)
  | _, _ =>
    let reasons := objectiveGateReasons fmt metrics run.effectiveTradeCount run.automatic
    (reasons, reasons.isEmpty, false)

/-- `_recommendation_gate` -/
def recommendationGate (state : GateState F) (performance : Option PerformanceUnavailable) :
    Option RecommendationGate :=
  if state.freshnessEvidence.any FreshnessEvidence.noRecommendation then
    some
      { validated := false
        reason := ((state.freshnessEvidence.bind FreshnessEvidence.reason).filter (· ≠ "")).getD
          "freshness 한계를 확인할 수 없어 추천을 생성하지 않습니다." }
  else
    match performance with
    | some performance =>
      some
        { validated := false
          reason := insufficientInputReason performance
          verificationComplete := false
          unmetDataRequirements := minimumInputGaps performance }
    | none =>
      match state.backtest with
      | none => none
      | some (.error ()) =>
        some
          { validated := false
            reason := "백테스트 결과를 해석할 수 없어 추천 규칙 통과 여부를 판단할 수 없습니다." }
      | some (.ok run) =>
        match run.metrics? with
        | none =>
          some
            { validated := false
              reason := "검증 대상 백테스트 지표가 없어 추천 규칙 통과 여부를 판단할 수 없습니다." }
        | some metrics =>
          let verdict := gateVerdict fmt state run metrics
          let shortfalls := verdict.1.filter fun item => !isDataGapReason item
          let gaps := benchmarkInputGaps run ++ verdict.1.filter isDataGapReason
          some
            { validated := verdict.2.1
              reason :=
                if verdict.2.2 then
                  "백테스트 목표 기준은 아직 충족하지 못했지만 report_only 정책에 따라 추천을 차단하지 않습니다: " ++
                    "; ".intercalate verdict.1
                else gateReason verdict.2.1 shortfalls gaps
              verificationComplete := gaps.isEmpty
              unmetObjectiveCriteria := shortfalls
              unmetDataRequirements := gaps }

end Gate

/-- The characters that every marker has one of, and that of the benchmark's input gap. -/
def markerChars : List Char := ['v', '음', '없', '적']

/-- A text without any of these characters. -/
def Unmarked (text : String) : Prop := ∀ c ∈ markerChars, c ∉ text.toList

instance (text : String) : Decidable (Unmarked text) :=
  inferInstanceAs (Decidable (∀ c ∈ markerChars, c ∉ text.toList))

theorem Unmarked.append (h : Unmarked a) (h' : Unmarked b) : Unmarked (a ++ b) := by
  intro c hc hmem
  rw [String.toList_append, List.mem_append] at hmem
  rcases hmem with hmem | hmem
  · exact h c hc hmem
  · exact h' c hc hmem

theorem unmarked_numeral {text : String} (h : ∀ c ∈ text.toList, c ∈ numeralChars) : Unmarked text := by
  have hdisjoint : ∀ c ∈ markerChars, c ∉ numeralChars := by decide
  exact fun c hc hmem => hdisjoint c hc (h c hmem)

theorem not_pyIn {needle haystack : String} {c : Char} (hneedle : c ∈ needle.toList)
    (hhaystack : c ∉ haystack.toList) : pyIn needle haystack = false :=
  decide_eq_false fun hpart => hhaystack (hpart.subset hneedle)

theorem Unmarked.not_gap {text : String} (h : Unmarked text) : isDataGapReason text = false := by
  have hv := h 'v' (by decide)
  have heum := h '음' (by decide)
  have heop := h '없' (by decide)
  simp only [isDataGapReason, dataGapReasonMarkers, List.any_cons, List.any_nil, Bool.or_false,
    Bool.or_eq_false_iff]
  exact ⟨not_pyIn (by decide) hv, not_pyIn (by decide) heum, not_pyIn (by decide) heop⟩

theorem pyIn_append (h : pyIn needle a = true) : pyIn needle (a ++ b) = true := by
  obtain ⟨front, back, hsplit⟩ := of_decide_eq_true h
  refine decide_eq_true ⟨front, back ++ b.toList, ?_⟩
  rw [String.toList_append, ← hsplit, List.append_assoc, List.append_assoc, List.append_assoc]

theorem isDataGapReason_append (h : isDataGapReason a = true) : isDataGapReason (a ++ b) = true := by
  obtain ⟨marker, hmarker, hin⟩ := List.any_eq_true.mp h
  exact List.any_eq_true.mpr ⟨marker, hmarker, pyIn_append hin⟩

theorem gap_of_marker (marker : String) (h : marker ∈ dataGapReasonMarkers)
    (hin : pyIn marker text = true) : isDataGapReason text = true :=
  List.any_eq_true.mpr ⟨marker, h, hin⟩

/-- A text that is more than blanks. -/
def Solid (text : String) : Prop := ∃ c ∈ text.toList, isPySpace c = false

theorem Solid.append_left (h : Solid a) : Solid (a ++ b) := by
  obtain ⟨c, hmem, hc⟩ := h
  refine ⟨c, ?_, hc⟩
  rw [String.toList_append]
  exact List.mem_append_left _ hmem

theorem Solid.pyStrip_ne_empty {s : String} (h : Solid s) : pyStrip s ≠ "" := by
  obtain ⟨c, hmem, hc⟩ := h
  intro hstrip
  have hnil := congrArg String.toList hstrip
  rw [pyStrip, String.toList_ofList, String.toList_empty, List.reverse_eq_nil_iff,
    List.dropWhile_eq_nil_iff] at hnil
  rw [← List.takeWhile_append_dropWhile (p := isPySpace) (l := s.toList), List.mem_append] at hmem
  rcases hmem with hfront | hback
  · rw [List.mem_takeWhile_imp hfront] at hc
    cases hc
  · rw [hnil c (List.mem_reverse.mpr hback)] at hc
    cases hc

/-- A benchmark check whose input did not arrive. -/
def BenchmarkReason.missing : BenchmarkReason → Bool
  | aggregateUnavailable | noPeriods | lockboxUnavailable | noLockboxPeriods | excessUnavailable
  | officialUnavailable => true
  | lossRate | excess | totalReturn => false

section Classifier
variable {F : Type} [NumPy F] {fmt : Formats F} {metrics : BacktestMetrics F} {benchmarkReturn : Option F}
  {tradeCount : F}

theorem BenchmarkReason.isDataGapReason_text (reason : BenchmarkReason) :
    isDataGapReason (reason.text fmt metrics benchmarkReturn) = reason.missing ∧
      (reason.missing = false → Unmarked (reason.text fmt metrics benchmarkReturn)) := by
  have hpercent : ∀ n x, Unmarked (fmt.percent n x) := fun n x => unmarked_numeral (fmt.percent_chars n x)
  have hmeasured : reason.missing = false → Unmarked (reason.text fmt metrics benchmarkReturn) := by
    intro h
    cases reason with
    | lossRate =>
      have hhead : Unmarked "최종 미사용 구간의 벤치마크 패배 비율 " := by decide +kernel
      have htail : Unmarked " >= 50%" := by decide +kernel
      exact (hhead.append (hpercent _ _)).append htail
    | excess =>
      have hhead : Unmarked "최종 미사용 구간 초과수익률 " := by decide +kernel
      have htail : Unmarked " <= 0%" := by decide +kernel
      exact (hhead.append (hpercent _ _)).append htail
    | totalReturn =>
      have hhead : Unmarked "전체 수익률 " := by decide +kernel
      have hmiddle : Unmarked " <= 벤치마크 " := by decide +kernel
      exact ((hhead.append (hpercent _ _)).append hmiddle).append (hpercent _ _)
    | _ => cases h
  refine ⟨?_, hmeasured⟩
  cases reason with
  | lossRate | excess | totalReturn => exact (hmeasured rfl).not_gap
  | noPeriods =>
    have hin : pyIn "비교 구간이 없습니다" "63거래일 벤치마크 비교 구간이 없습니다" = true := by
      decide +kernel
    exact gap_of_marker _ (by decide) hin
  | noLockboxPeriods =>
    have hin : pyIn "비교 구간이 없습니다" "최종 미사용 구간에 63거래일 벤치마크 비교 구간이 없습니다" = true := by
      decide +kernel
    exact gap_of_marker _ (by decide) hin
  | aggregateUnavailable =>
    have hin : pyIn "is unavailable" "walk-forward benchmark aggregate is unavailable" = true := by
      decide +kernel
    exact gap_of_marker _ (by decide) hin
  | lockboxUnavailable =>
    have hin : pyIn "is unavailable" "walk-forward final lockbox benchmark aggregate is unavailable" = true := by
      decide +kernel
    exact gap_of_marker _ (by decide) hin
  | excessUnavailable =>
    have hin : pyIn "is unavailable" "walk-forward final lockbox excess return is unavailable" = true := by
      decide +kernel
    exact gap_of_marker _ (by decide) hin
  | officialUnavailable =>
    have hin : pyIn "is unavailable" "official benchmark aggregate is unavailable" = true := by
      decide +kernel
    exact gap_of_marker _ (by decide) hin

example : isDataGapReason "전체 수익률 5% <= 벤치마크 6%" = false := by decide +kernel

/-- The reasons that the markers find. -/
def FloorReason.marked : FloorReason → Bool
  | .benchmark _ reason => reason.missing
  | _ => false

theorem FloorReason.isDataGapReason_text (fmt : Formats F) (tradeCount : F) (metrics : BacktestMetrics F)
    (benchmarkReturn : Option F) (reason : FloorReason) :
    isDataGapReason (reason.text fmt tradeCount metrics benchmarkReturn) = reason.marked ∧
      (reason.marked = false → Unmarked (reason.text fmt tradeCount metrics benchmarkReturn)) := by
  have hmeasured : reason.marked = false →
      Unmarked (reason.text fmt tradeCount metrics benchmarkReturn) := by
    intro h
    have hbelow : Unmarked " 가 기준 0 에 미달합니다" := by decide +kernel
    cases reason with
    | tradeCount =>
      have hhead : Unmarked "거래 수 " := by decide +kernel
      have htail : Unmarked "건이 최소 5건에 미달합니다" := by decide +kernel
      exact (hhead.append (unmarked_numeral (fmt.general_chars _))).append htail
    | sharpe =>
      have hhead : Unmarked "미사용 구간 Sharpe " := by decide +kernel
      exact (hhead.append (unmarked_numeral (fmt.fixed_chars _ _))).append hbelow
    | adjustedSharpe =>
      have hhead : Unmarked "탐색 폭 보정 Sharpe " := by decide +kernel
      exact (hhead.append (unmarked_numeral (fmt.fixed_chars _ _))).append hbelow
    | drawdown =>
      have hhead : Unmarked "최대 낙폭 " := by decide +kernel
      have htail : Unmarked " 가 한도 -50% 를 넘습니다" := by decide +kernel
      exact (hhead.append (unmarked_numeral (fmt.percent_chars _ _))).append htail
    | sharpeUnavailable =>
      have htext : Unmarked "미사용 구간 Sharpe 를 계산하지 못했습니다" := by decide +kernel
      exact htext
    | noBenchmark =>
      have htext : Unmarked
          "공식 KOSPI/KOSDAQ TR 벤치마크도, 유니버스 동일가중 프록시도 확보하지 못했습니다" := by decide +kernel
      exact htext
    | benchmark proxy reason =>
      have htext : Unmarked (reason.text fmt metrics benchmarkReturn) := reason.isDataGapReason_text.2 h
      cases proxy with
      | false => exact htext
      | true =>
        have hblank : Unmarked " " := by decide +kernel
        have hsuffix : Unmarked proxySuffix := by decide +kernel
        exact (htext.append hblank).append hsuffix
  refine ⟨?_, hmeasured⟩
  cases reason with
  | benchmark proxy reason =>
    have htext : isDataGapReason (reason.text fmt metrics benchmarkReturn) = reason.missing :=
      reason.isDataGapReason_text.1
    cases hmissing : reason.missing with
    | false => exact (hmeasured hmissing).not_gap.trans hmissing.symm
    | true =>
      rw [hmissing] at htext
      have hgap : isDataGapReason (FloorReason.text fmt tradeCount metrics benchmarkReturn
          (.benchmark proxy reason)) = true := by
        cases proxy with
        | false => exact htext
        | true => exact isDataGapReason_append (isDataGapReason_append htext)
      exact hgap.trans hmissing.symm
  | _ => exact (hmeasured rfl).not_gap

example : isDataGapReason "거래 수 3건이 최소 5건에 미달합니다" = false := by decide +kernel

theorem BenchmarkReason.solid_text (reason : BenchmarkReason) :
    Solid (reason.text fmt metrics benchmarkReturn) := by
  cases reason with
  | aggregateUnavailable =>
    have htext : Solid "walk-forward benchmark aggregate is unavailable" :=
      ⟨'w', by decide +kernel, by decide⟩
    exact htext
  | noPeriods =>
    have htext : Solid "63거래일 벤치마크 비교 구간이 없습니다" :=
      ⟨'거', by decide +kernel, by decide⟩
    exact htext
  | lockboxUnavailable =>
    have htext : Solid "walk-forward final lockbox benchmark aggregate is unavailable" :=
      ⟨'w', by decide +kernel, by decide⟩
    exact htext
  | noLockboxPeriods =>
    have htext : Solid "최종 미사용 구간에 63거래일 벤치마크 비교 구간이 없습니다" :=
      ⟨'최', by decide +kernel, by decide⟩
    exact htext
  | lossRate =>
    have hhead : Solid "최종 미사용 구간의 벤치마크 패배 비율 " := ⟨'최', by decide +kernel, by decide⟩
    exact hhead.append_left.append_left
  | excessUnavailable =>
    have htext : Solid "walk-forward final lockbox excess return is unavailable" :=
      ⟨'w', by decide +kernel, by decide⟩
    exact htext
  | excess =>
    have hhead : Solid "최종 미사용 구간 초과수익률 " := ⟨'최', by decide +kernel, by decide⟩
    exact hhead.append_left.append_left
  | officialUnavailable =>
    have htext : Solid "official benchmark aggregate is unavailable" :=
      ⟨'o', by decide +kernel, by decide⟩
    exact htext
  | totalReturn =>
    have hhead : Solid "전체 수익률 " := ⟨'전', by decide +kernel, by decide⟩
    exact hhead.append_left.append_left.append_left

/-- No reason is blank. -/
theorem FloorReason.solid_text (reason : FloorReason) :
    Solid (reason.text fmt tradeCount metrics benchmarkReturn) := by
  cases reason with
  | tradeCount =>
    have hhead : Solid "거래 수 " := ⟨'거', by decide +kernel, by decide⟩
    exact hhead.append_left.append_left
  | sharpeUnavailable =>
    have htext : Solid "미사용 구간 Sharpe 를 계산하지 못했습니다" :=
      ⟨'미', by decide +kernel, by decide⟩
    exact htext
  | sharpe =>
    have hhead : Solid "미사용 구간 Sharpe " := ⟨'미', by decide +kernel, by decide⟩
    exact hhead.append_left.append_left
  | drawdown =>
    have hhead : Solid "최대 낙폭 " := ⟨'최', by decide +kernel, by decide⟩
    exact hhead.append_left.append_left
  | adjustedSharpe =>
    have hhead : Solid "탐색 폭 보정 Sharpe " := ⟨'탐', by decide +kernel, by decide⟩
    exact hhead.append_left.append_left
  | noBenchmark =>
    have htext : Solid "공식 KOSPI/KOSDAQ TR 벤치마크도, 유니버스 동일가중 프록시도 확보하지 못했습니다" :=
      ⟨'공', by decide +kernel, by decide⟩
    exact htext
  | benchmark proxy reason =>
    cases proxy with
    | false => exact reason.solid_text
    | true => exact reason.solid_text.append_left.append_left

end Classifier

section Benchmark
variable {F : Type} [NumPy F] {metrics : BacktestMetrics F} {benchmarkReturn : Option F}

/-- An input of the benchmark checks did not arrive, other than the loss rate. -/
def BenchmarkInputMissing (metrics : BacktestMetrics F) (benchmarkReturn : Option F) : Prop :=
  metrics.benchmarkPeriodCount.getD 0 = 0 ∨ metrics.outSampleBenchmarkPeriodCount.getD 0 = 0 ∨
    metrics.outSampleExcessReturn = none ∨ parsedBenchmark metrics benchmarkReturn = none

omit [NumPy F] in
theorem missing_periods (metrics : BacktestMetrics F) :
    (∃ reason ∈ (match metrics.benchmarkPeriodCount with
        | none => [BenchmarkReason.aggregateUnavailable]
        | some count => check (count = 0) .noPeriods), reason.missing = true) ↔
      metrics.benchmarkPeriodCount.getD 0 = 0 := by
  cases metrics.benchmarkPeriodCount with
  | none => simp [BenchmarkReason.missing]
  | some count => by_cases h : count = 0 <;> simp [check, h, BenchmarkReason.missing]

theorem missing_lockbox (metrics : BacktestMetrics F) :
    (∃ reason ∈ (match metrics.outSampleBenchmarkPeriodCount with
        | none => [BenchmarkReason.lockboxUnavailable]
        | some 0 => [.noLockboxPeriods]
        | some _ =>
          match metrics.outSampleBenchmarkPeriodLossRate with
          | some rate => check (decimal 5 1 ≤ rate) .lossRate
          | none => []), reason.missing = true) ↔
      metrics.outSampleBenchmarkPeriodCount.getD 0 = 0 := by
  cases metrics.outSampleBenchmarkPeriodCount with
  | none => simp [BenchmarkReason.missing]
  | some count =>
    cases count with
    | zero => simp [BenchmarkReason.missing]
    | succ count =>
      cases metrics.outSampleBenchmarkPeriodLossRate with
      | none => simp
      | some rate => by_cases h : decimal 5 1 ≤ rate <;> simp [check, h, BenchmarkReason.missing]

theorem missing_excess (metrics : BacktestMetrics F) :
    (∃ reason ∈ (match metrics.outSampleExcessReturn with
        | none => [BenchmarkReason.excessUnavailable]
        | some excess => check (excess ≤ 0) .excess), reason.missing = true) ↔
      metrics.outSampleExcessReturn = none := by
  cases metrics.outSampleExcessReturn with
  | none => simp [BenchmarkReason.missing]
  | some excess => by_cases h : excess ≤ 0 <;> simp [check, h, BenchmarkReason.missing]

theorem missing_benchmark (metrics : BacktestMetrics F) (benchmarkReturn : Option F) :
    (∃ reason ∈ (match parsedBenchmark metrics benchmarkReturn with
        | none => [BenchmarkReason.officialUnavailable]
        | some benchmark => check (metrics.totalReturn ≤ benchmark) .totalReturn),
          reason.missing = true) ↔
      parsedBenchmark metrics benchmarkReturn = none := by
  cases parsedBenchmark metrics benchmarkReturn with
  | none => simp [BenchmarkReason.missing]
  | some benchmark =>
    by_cases h : metrics.totalReturn ≤ benchmark <;> simp [check, h, BenchmarkReason.missing]

/-- The benchmark checks give a reason for a missing input exactly when one is missing. -/
theorem benchmarkObjectiveReasons_missing :
    (∃ reason ∈ benchmarkObjectiveReasons metrics benchmarkReturn, reason.missing = true) ↔
      BenchmarkInputMissing metrics benchmarkReturn := by
  have hparts : benchmarkObjectiveReasons metrics benchmarkReturn =
      _ ++ _ ++ _ ++
        (match parsedBenchmark metrics benchmarkReturn with
        | none => [BenchmarkReason.officialUnavailable]
        | some benchmark => check (metrics.totalReturn ≤ benchmark) .totalReturn) := rfl
  have happend : ∀ xs ys : List BenchmarkReason, (∃ reason ∈ xs ++ ys, reason.missing = true) ↔
      (∃ reason ∈ xs, reason.missing = true) ∨ ∃ reason ∈ ys, reason.missing = true := by
    intro xs ys
    simp only [List.mem_append, or_and_right, exists_or]
  have hmissing := or_congr (or_congr (or_congr (missing_periods metrics) (missing_lockbox metrics))
    (missing_excess metrics)) (missing_benchmark metrics benchmarkReturn)
  rw [hparts, happend, happend, happend]
  exact hmissing.trans (or_assoc.trans or_assoc)

end Benchmark

namespace GateBacktest
variable {F : Type} [NumPy F] {run : GateBacktest F} {session : Session F} {metrics : BacktestMetrics F}

/-- Whether a reason of the floor was produced because its input was missing. -/
def missing (run : GateBacktest F) : FloorReason → Bool
  | .tradeCount => run.tradeCount.isNone
  | .sharpeUnavailable | .noBenchmark => true
  | .sharpe | .drawdown | .adjustedSharpe => false
  | .benchmark _ reason => reason.missing

/-- An input of the floor's checks did not arrive. -/
def InputMissing (run : GateBacktest F) (metrics : BacktestMetrics F) : Prop :=
  run.tradeCount = none ∨ metrics.outSampleSharpe = none ∨
    (run.automatic ∧
      (run.officialBenchmark = none ∨ metrics.outSampleBenchmarkPeriodLossRate = none ∨
        BenchmarkInputMissing metrics run.benchmarkReturn))

/-- The inputs whose absence the gate's markers do not find are there: the trade count, the Sharpe
ratio, one of the two benchmarks, and the loss rate unless another benchmark input is missing too. -/
def Attributable (run : GateBacktest F) (metrics : BacktestMetrics F) : Prop :=
  run.tradeCount ≠ none ∧ metrics.outSampleSharpe ≠ none ∧
    (run.automatic →
      (run.officialBenchmark ≠ none ∨ run.auxiliaryReturn ≠ none) ∧
      (run.officialBenchmark ≠ none → metrics.outSampleBenchmarkPeriodLossRate = none →
        BenchmarkInputMissing metrics run.benchmarkReturn))

/-- The reasons of an automatic run about its benchmark. -/
def benchmarkReasons (run : GateBacktest F) (metrics : BacktestMetrics F) : List FloorReason :=
  if run.automatic then
    match run.officialBenchmark, run.auxiliaryReturn with
    | some primary, _ => (benchmarkObjectiveReasons metrics primary).map (.benchmark false)
    | none, some proxy => (benchmarkObjectiveReasons metrics (some proxy)).map (.benchmark true)
    | none, none => [.noBenchmark]
  else []

theorem floorReasons_eq (hmetrics : run.metrics? = some metrics) :
    run.floorReasons session =
      check (run.effectiveTradeCount < lit 5) .tradeCount ++
      (match metrics.outSampleSharpe with
        | none => [.sharpeUnavailable]
        | some sharpe => check (sharpe < 0) .sharpe) ++
      check (metrics.maxDrawdown < -decimal 5 1) .drawdown ++
      check ((readyAggregate run.result).isNone ∧ metrics.selectionAdjustedSharpe < 0) .adjustedSharpe ++
      run.benchmarkReasons metrics := by
  obtain ⟨selected, hselected, rfl⟩ := Option.map_eq_some_iff.mp hmetrics
  unfold floorReasons objectiveFloorReasons
  rw [hselected]
  rfl

/-- What a run about its benchmark lacks, once it has one of the two. -/
theorem benchmarkReasons_missing (metrics : BacktestMetrics F) (hmode : run.automatic = true)
    (hbenchmark : run.officialBenchmark ≠ none ∨ run.auxiliaryReturn ≠ none) :
    ∃ proxy, run.benchmarkReasons metrics =
      (benchmarkObjectiveReasons metrics run.benchmarkReturn).map (.benchmark proxy) := by
  rw [benchmarkReasons, if_pos hmode]
  cases hofficial : run.officialBenchmark with
  | some primary => exact ⟨false, by rw [benchmarkReturn, hofficial]⟩
  | none =>
    cases hproxy : run.auxiliaryReturn with
    | none => exact absurd hproxy (hbenchmark.resolve_left fun h => h hofficial)
    | some proxy => exact ⟨true, by rw [benchmarkReturn, hofficial, hproxy]⟩

theorem mem_floorReasons_tradeCount (hmetrics : run.metrics? = some metrics) (hzero : (0 : F) < lit 5)
    (h : run.tradeCount = none) : FloorReason.tradeCount ∈ run.floorReasons session := by
  rw [floorReasons_eq hmetrics, effectiveTradeCount, h]
  simp [check, hzero]

theorem mem_floorReasons_sharpe (hmetrics : run.metrics? = some metrics)
    (h : metrics.outSampleSharpe = none) : FloorReason.sharpeUnavailable ∈ run.floorReasons session := by
  rw [floorReasons_eq hmetrics, h]
  simp

theorem mem_floorReasons_noBenchmark (hmetrics : run.metrics? = some metrics) (hmode : run.automatic = true)
    (hofficial : run.officialBenchmark = none) (hproxy : run.auxiliaryReturn = none) :
    FloorReason.noBenchmark ∈ run.floorReasons session := by
  rw [floorReasons_eq hmetrics, benchmarkReasons, if_pos hmode, hofficial, hproxy]
  simp

/-- A reason that the markers find is one of an automatic run's benchmark checks. -/
theorem marked_floorReasons (hmetrics : run.metrics? = some metrics) :
    (∃ reason ∈ run.floorReasons session, reason.marked = true) ↔
      ∃ reason ∈ run.benchmarkReasons metrics, reason.marked = true := by
  constructor
  · rintro ⟨reason, hmem, hmarked⟩
    refine ⟨reason, ?_, hmarked⟩
    rw [floorReasons_eq hmetrics, List.mem_append] at hmem
    rcases hmem with hmem | hmem
    · exfalso
      cases reason with
      | benchmark proxy reason =>
        cases hsharpe : metrics.outSampleSharpe <;> simp [check, hsharpe] at hmem
      | _ => cases hmarked
    · exact hmem
  · rintro ⟨reason, hmem, hmarked⟩
    refine ⟨reason, ?_, hmarked⟩
    rw [floorReasons_eq hmetrics]
    exact List.mem_append_right _ hmem

/-- Among the reasons of an attributable run, the markers find the missing inputs. -/
theorem marked_eq_missing (hmetrics : run.metrics? = some metrics) (h : run.Attributable metrics)
    {reason : FloorReason} (hmem : reason ∈ run.floorReasons session) :
    reason.marked = run.missing reason := by
  obtain ⟨htrades, hsharpe, hbenchmark⟩ := h
  obtain ⟨sharpe, hsharpe⟩ := Option.ne_none_iff_exists'.mp hsharpe
  cases reason with
  | tradeCount =>
    obtain ⟨count, hcount⟩ := Option.ne_none_iff_exists'.mp htrades
    rw [missing, hcount]
    rfl
  | sharpeUnavailable =>
    rw [floorReasons_eq hmetrics, hsharpe] at hmem
    cases hmode : run.automatic with
    | false => simp [check, benchmarkReasons, hmode] at hmem
    | true =>
      obtain ⟨proxy, hreasons⟩ := benchmarkReasons_missing metrics hmode (hbenchmark hmode).1
      simp [check, hreasons] at hmem
  | noBenchmark =>
    rw [floorReasons_eq hmetrics, hsharpe] at hmem
    cases hmode : run.automatic with
    | false => simp [check, benchmarkReasons, hmode] at hmem
    | true =>
      obtain ⟨proxy, hreasons⟩ := benchmarkReasons_missing metrics hmode (hbenchmark hmode).1
      simp [check, hreasons] at hmem
  | sharpe | drawdown | adjustedSharpe | benchmark proxy reason => rfl

/-- The markers find one of the benchmark checks' reasons exactly when one of their inputs is missing. -/
theorem marked_benchmarkReasons (hmode : run.automatic = true)
    (hbenchmark : run.officialBenchmark ≠ none ∨ run.auxiliaryReturn ≠ none) :
    (∃ reason ∈ run.benchmarkReasons metrics, reason.marked = true) ↔
      BenchmarkInputMissing metrics run.benchmarkReturn := by
  obtain ⟨proxy, hreasons⟩ := benchmarkReasons_missing metrics hmode hbenchmark
  rw [hreasons, ← benchmarkObjectiveReasons_missing]
  constructor
  · rintro ⟨reason, hmem, hmarked⟩
    obtain ⟨benchmark, hbenchmark, rfl⟩ := List.mem_map.mp hmem
    exact ⟨benchmark, hbenchmark, hmarked⟩
  · rintro ⟨benchmark, hmem, hmissing⟩
    exact ⟨.benchmark proxy benchmark, List.mem_map_of_mem hmem, hmissing⟩

end GateBacktest

/-- The state that `backtest_node` hands over: the result, with the floor's reasons for it. -/
def handOver {F : Type} [NumPy F] (fmt : Formats F) (session : Session F) (mode : String)
    (validated : Bool) (run : GateBacktest F) (metrics : BacktestMetrics F) (state : GateState F) :
    GateState F :=
  { state with
    backtest := some (.ok run)
    strategyValidated := some validated
    objectiveFloor :=
      some
        { mode := mode
          cleared := (run.floorTexts fmt session metrics).isEmpty
          reasons := run.floorTexts fmt session metrics } }

/-- Every reason is with the missing inputs exactly when its input was missing, and with the missed
criteria exactly when a number missed its threshold; verification is complete exactly when no input
was missing. -/
def Truthful {F : Type} [NumPy F] (fmt : Formats F) (session : Session F) (run : GateBacktest F)
    (metrics : BacktestMetrics F) (gate : RecommendationGate) : Prop :=
  (∀ reason ∈ run.floorReasons session,
    (reason.text fmt run.effectiveTradeCount metrics run.benchmarkReturn ∈ gate.unmetDataRequirements ↔
      run.missing reason = true) ∧
    (reason.text fmt run.effectiveTradeCount metrics run.benchmarkReturn ∈ gate.unmetObjectiveCriteria ↔
      run.missing reason = false)) ∧
  (gate.verificationComplete = true ↔ ¬ run.InputMissing metrics)

section Handed
variable {F : Type} [NumPy F] {fmt : Formats F} {session : Session F} {run : GateBacktest F}
  {metrics : BacktestMetrics F} {state : GateState F} {mode : String} {validated : Bool}

theorem gapText_marked {text : String} (h : text ∈ benchmarkInputGaps run) : ¬ Unmarked text := by
  intro hunmarked
  have hmark : '적' ∈
      "공식 KOSPI/KOSDAQ TR 벤치마크 시계열이 아직 적재되지 않아 벤치마크 대비 검증을 완료하지 못했습니다".toList := by
    decide +kernel
  unfold benchmarkInputGaps at h
  split at h
  · cases h
  · split at h
    · cases h
    · rw [List.mem_singleton.mp h] at hunmarked
      refine hunmarked '적' (by decide) ?_
      rw [String.toList_append]
      exact List.mem_append_left _ hmark

/-- What the gate makes of a result that `backtest_node` handed over. -/
theorem recommendationGate_handOver (fmt : Formats F) (session : Session F) (mode : String)
    (validated : Bool)
    (hfresh : state.freshnessEvidence.any FreshnessEvidence.noRecommendation = false)
    (hmetrics : run.metrics? = some metrics) :
    ∃ gate, recommendationGate fmt (handOver fmt session mode validated run metrics state) none = some gate ∧
      gate.unmetObjectiveCriteria =
        (run.floorTexts fmt session metrics).filter (fun text => !isDataGapReason text) ∧
      gate.unmetDataRequirements =
        benchmarkInputGaps run ++ (run.floorTexts fmt session metrics).filter isDataGapReason ∧
      gate.verificationComplete = gate.unmetDataRequirements.isEmpty := by
  have hsolid : (run.floorTexts fmt session metrics).filter (fun text => pyStrip text ≠ "") =
      run.floorTexts fmt session metrics := by
    rw [List.filter_eq_self]
    intro text htext
    obtain ⟨reason, -, rfl⟩ := List.mem_map.mp htext
    exact decide_eq_true reason.solid_text.pyStrip_ne_empty
  have hreasons : (gateVerdict fmt (handOver fmt session mode validated run metrics state) run metrics).1 =
      run.floorTexts fmt session metrics := hsolid
  have hgate : ∃ gate,
      recommendationGate fmt (handOver fmt session mode validated run metrics state) none = some gate ∧
      gate.unmetObjectiveCriteria =
        (gateVerdict fmt (handOver fmt session mode validated run metrics state) run metrics).1.filter
          (fun text => !isDataGapReason text) ∧
      gate.unmetDataRequirements = benchmarkInputGaps run ++
        (gateVerdict fmt (handOver fmt session mode validated run metrics state) run metrics).1.filter
          isDataGapReason ∧
      gate.verificationComplete = gate.unmetDataRequirements.isEmpty := by
    have hnot : (handOver fmt session mode validated run metrics state).freshnessEvidence.any
        FreshnessEvidence.noRecommendation = false := hfresh
    have hbacktest : (handOver fmt session mode validated run metrics state).backtest =
        some (.ok run) := rfl
    rw [recommendationGate, hnot, hbacktest]
    simp only [hmetrics]
    exact ⟨_, rfl, rfl, rfl, rfl⟩
  rw [hreasons] at hgate
  exact hgate

/-- Where a reason's text lands is where the markers put it. -/
theorem mem_requirements {reason : FloorReason} (hmem : reason ∈ run.floorReasons session) :
    (reason.text fmt run.effectiveTradeCount metrics run.benchmarkReturn ∈
      benchmarkInputGaps run ++ (run.floorTexts fmt session metrics).filter isDataGapReason ↔
        reason.marked = true) ∧
    (reason.text fmt run.effectiveTradeCount metrics run.benchmarkReturn ∈
      (run.floorTexts fmt session metrics).filter (fun text => !isDataGapReason text) ↔
        reason.marked = false) := by
  have htext : reason.text fmt run.effectiveTradeCount metrics run.benchmarkReturn ∈
      run.floorTexts fmt session metrics := List.mem_map_of_mem hmem
  obtain ⟨hmarked, hunmarked⟩ := reason.isDataGapReason_text fmt run.effectiveTradeCount metrics
    run.benchmarkReturn
  rw [List.mem_append, List.mem_filter, List.mem_filter, hmarked]
  constructor
  · constructor
    · rintro (hgap | ⟨-, h⟩)
      · cases h : reason.marked with
        | true => rfl
        | false => exact absurd (hunmarked h) (gapText_marked hgap)
      · exact h
    · exact fun h => .inr ⟨htext, h⟩
  · rw [Bool.not_eq_true']
    exact ⟨And.right, fun h => ⟨htext, h⟩⟩

/-- Verification is incomplete when the official benchmark or a checked benchmark input is missing. -/
theorem requirements_ne_nil (hmetrics : run.metrics? = some metrics) :
    benchmarkInputGaps run ++ (run.floorTexts fmt session metrics).filter isDataGapReason ≠ [] ↔
      (run.automatic = true ∧ run.officialBenchmark = none) ∨
        ∃ reason ∈ run.benchmarkReasons metrics, reason.marked = true := by
  have hgaps : benchmarkInputGaps run ≠ [] ↔ run.automatic = true ∧ run.officialBenchmark = none := by
    cases hmode : run.automatic with
    | false => simp [benchmarkInputGaps, hmode]
    | true => cases hofficial : run.officialBenchmark <;> simp [benchmarkInputGaps, hmode, hofficial]
  have hmarked : (run.floorTexts fmt session metrics).filter isDataGapReason ≠ [] ↔
      ∃ reason ∈ run.floorReasons session, reason.marked = true := by
    rw [ne_eq, List.filter_eq_nil_iff, not_forall]
    constructor
    · rintro ⟨text, h⟩
      rw [Classical.not_imp, not_not] at h
      obtain ⟨htext, hgap⟩ := h
      obtain ⟨reason, hmem, rfl⟩ := List.mem_map.mp htext
      exact ⟨reason, hmem, (reason.isDataGapReason_text _ _ _ _).1.symm.trans hgap⟩
    · rintro ⟨reason, hmem, hmarked⟩
      refine ⟨_, fun h => h (List.mem_map_of_mem hmem) ?_⟩
      exact (reason.isDataGapReason_text _ _ _ _).1.trans hmarked
  rw [ne_eq, List.append_eq_nil_iff, not_and_or, ← ne_eq, ← ne_eq, hgaps, hmarked,
    GateBacktest.marked_floorReasons hmetrics]

/-- For an attributable run, verification is incomplete exactly when an input was missing. -/
theorem requirements_of_attributable (hmetrics : run.metrics? = some metrics)
    (h : run.Attributable metrics) :
    benchmarkInputGaps run ++ (run.floorTexts fmt session metrics).filter isDataGapReason ≠ [] ↔
      run.InputMissing metrics := by
  obtain ⟨htrades, hsharpe, hbenchmark⟩ := h
  rw [requirements_ne_nil hmetrics]
  cases hmode : run.automatic with
  | false => simp [GateBacktest.InputMissing, GateBacktest.benchmarkReasons, hmode, htrades, hsharpe]
  | true =>
    obtain ⟨hone, hloss⟩ := hbenchmark hmode
    rw [GateBacktest.marked_benchmarkReasons hmode hone]
    constructor
    · rintro (⟨-, hofficial⟩ | hinput)
      · exact .inr (.inr ⟨hmode, .inl hofficial⟩)
      · exact .inr (.inr ⟨hmode, .inr (.inr hinput)⟩)
    · rintro (hcount | hnone | ⟨-, hofficial | hrate | hinput⟩)
      · exact absurd hcount htrades
      · exact absurd hnone hsharpe
      · exact .inl ⟨rfl, hofficial⟩
      · by_cases hofficial : run.officialBenchmark = none
        · exact .inl ⟨rfl, hofficial⟩
        · exact .inr (hloss hofficial hrate)
      · exact .inr hinput

/-- The gate attributes the failures of a result that `backtest_node` hands over truthfully exactly
when the inputs are there whose absence its markers do not find. -/
theorem gate_truthful_iff
    (hfresh : state.freshnessEvidence.any FreshnessEvidence.noRecommendation = false)
    (hmetrics : run.metrics? = some metrics) (hzero : (0 : F) < lit 5) :
    ∃ gate, recommendationGate fmt (handOver fmt session mode validated run metrics state) none = some gate ∧
      (Truthful fmt session run metrics gate ↔ run.Attributable metrics) := by
  obtain ⟨gate, hgate, hcriteria, hrequirements, hcomplete⟩ :=
    recommendationGate_handOver fmt session mode validated hfresh hmetrics
  refine ⟨gate, hgate, ?_⟩
  rw [Truthful, hcomplete, hcriteria, hrequirements, List.isEmpty_iff]
  constructor
  · rintro ⟨hlands, hverified⟩
    have hagree : ∀ reason ∈ run.floorReasons session, reason.marked = run.missing reason := by
      intro reason hmem
      exact Bool.eq_iff_iff.mpr ((mem_requirements hmem).1.symm.trans (hlands reason hmem).1)
    have hofficial : ∀ h : run.automatic = true,
        run.officialBenchmark ≠ none ∨ run.auxiliaryReturn ≠ none := by
      intro hmode
      by_contra hnone
      rw [not_or, not_not, not_not] at hnone
      cases hagree _ (run.mem_floorReasons_noBenchmark hmetrics hmode hnone.1 hnone.2)
    refine ⟨?_, ?_, fun hmode => ⟨hofficial hmode, ?_⟩⟩
    · intro hnone
      have h := hagree _ (run.mem_floorReasons_tradeCount hmetrics hzero hnone)
      rw [GateBacktest.missing, hnone] at h
      cases h
    · intro hnone
      cases hagree _ (run.mem_floorReasons_sharpe hmetrics hnone)
    · intro hsome hrate
      have hinput : run.InputMissing metrics := .inr (.inr ⟨hmode, .inr (.inl hrate)⟩)
      have hgaps := mt hverified.mp (not_not_intro hinput)
      rcases (requirements_ne_nil hmetrics).mp hgaps with ⟨-, hnone⟩ | hmarked
      · exact absurd hnone hsome
      · exact (GateBacktest.marked_benchmarkReasons hmode (hofficial hmode)).mp hmarked
  · intro h
    refine ⟨?_, (not_iff_comm.mp (requirements_of_attributable hmetrics h)).symm⟩
    intro reason hmem
    rw [← GateBacktest.marked_eq_missing hmetrics h hmem]
    exact mem_requirements hmem

end Handed

section Example

/-- What Python prints for the numbers of the runs below. -/
def shownFormats : Formats (Flt ℚ) where
  general _ := "10"
  fixed _ _ := "-1.00"
  percent _ _ := "-60.0%"
  general_chars _ := by decide
  fixed_chars _ _ := by decide
  percent_chars _ _ := by decide

/-- A hand-picked run of ten trades with the given hold-out Sharpe ratio. -/
def tenTrades (sharpe : Option (Flt ℚ)) : GateBacktest (Flt ℚ) where
  result :=
    { candidates := []
      selected :=
        { candidateId := "c"
          representation := .pythonFallback ""
          validationOk := true
          metrics := some ⟨0, 0, 0, 0, 0, 0, sharpe, 1, 0, none, none, none, none, none, none⟩ }
      objectiveScores := .empty
      effectiveTradeCount := lit 10
      equitySessions := []
      walkForward := none }
  tradeCount := some (lit 10)
  automatic := false
  primary := none
  auxiliaryReturn := none

def tenTradesMetrics (sharpe : Option (Flt ℚ)) : BacktestMetrics (Flt ℚ) :=
  ⟨0, 0, 0, 0, 0, 0, sharpe, 1, 0, none, none, none, none, none, none⟩

def freshState : GateState (Flt ℚ) := ⟨none, none, none, none⟩

theorem gate_truthful_shortfall : (0 : Flt ℚ) < lit 5 ∧
    ∃ gate, recommendationGate shownFormats (handOver shownFormats silentSession "enforced" false
        (tenTrades (some (-1))) (tenTradesMetrics (some (-1))) freshState) none = some gate ∧
      (Truthful shownFormats silentSession (tenTrades (some (-1))) (tenTradesMetrics (some (-1))) gate ↔
        (tenTrades (some (-1))).Attributable (tenTradesMetrics (some (-1)))) :=
  ⟨by decide +kernel, gate_truthful_iff rfl rfl (by decide +kernel)⟩

/-- Without a Sharpe ratio the strategy is said to have failed, and its verification to be complete. -/
theorem sharpe_gap_counted_as_shortfall :
    ∃ gate, recommendationGate shownFormats (handOver shownFormats silentSession "enforced" false
        (tenTrades none) (tenTradesMetrics none) freshState) none = some gate ∧
      "미사용 구간 Sharpe 를 계산하지 못했습니다" ∈ gate.unmetObjectiveCriteria ∧
      gate.verificationComplete = true ∧
      ¬ Truthful shownFormats silentSession (tenTrades none) (tenTradesMetrics none) gate := by
  obtain ⟨gate, hgate, hcriteria, hrequirements, hcomplete⟩ :=
    @recommendationGate_handOver _ _ (tenTrades none) (tenTradesMetrics none) freshState shownFormats
      silentSession "enforced" false rfl rfl
  have hmem : FloorReason.sharpeUnavailable ∈ (tenTrades none).floorReasons silentSession := by
    decide +kernel
  have hlands : FloorReason.text shownFormats (tenTrades none).effectiveTradeCount (tenTradesMetrics none)
      (tenTrades none).benchmarkReturn .sharpeUnavailable ∈ gate.unmetObjectiveCriteria := by
    rw [hcriteria]
    exact (mem_requirements hmem).2.mpr rfl
  refine ⟨gate, hgate, hlands, ?_, ?_⟩
  · rw [hcomplete, hrequirements, List.isEmpty_iff]
    by_contra hgaps
    rcases (requirements_ne_nil rfl).mp hgaps with ⟨hmode, -⟩ | ⟨reason, hreason, -⟩
    · cases hmode
    · cases hreason
  · intro htruthful
    cases (htruthful.1 _ hmem).2.mp hlands

end Example

end QuantAgent.Campaign
