import QuantAgent.Features.ProfileActions
import QuantAgent.Features.RotationActions

namespace QuantAgent.Features
set_option autoImplicit true

namespace PreparedFeatureStore
variable {F : Type} [NumPy F] (S : PreparedFeatureStore F)

/-- `AUTOMATIC_TOURNAMENT_PROFILES` -/
def automaticTournamentProfiles : List Profile :=
  [.relativeMomentumRotation, .riskAdjustedMomentumRotation, .trendLeaderRotation]

/-- `build_ranked_actions` -/
def buildRankedActions (strategyIr : StrategyIR F) (parameters : CandidateParameters F)
    (resetSession stopAfterSession : Option String) : Build F (RankedActions F) :=
  let resetIndex := S.sessionIndex resetSession
  let stopIndex := S.sessionIndex stopAfterSession
  if parameters.profile = .compiledConditions then
    S.compiledActions strategyIr parameters resetIndex stopIndex
  else if parameters.profile ∈ automaticTournamentProfiles then
    S.rotationProfileActions parameters resetIndex stopIndex
  else S.profileActions parameters resetIndex stopIndex

end PreparedFeatureStore

section Samples

def sampleRow (date ticker : String) (close : ℚ) : Row (Flt ℚ) :=
  ((Dict.empty.insert "date" (.text date)).insert "ticker" (.text ticker)).insert "close"
    (.number (.num close))

/-- Two tickers on two days. -/
def sampleRows : List (Row (Flt ℚ)) :=
  [sampleRow "2024-01-02" "005930" 10, sampleRow "2024-01-02" "000660" 20,
    sampleRow "2024-01-03" "005930" 11, sampleRow "2024-01-03" "000660" 19]

def sampleStore : PreparedFeatureStore (Flt ℚ) := ⟨(sampleRows.mapM Row.bar).toOption.getD []⟩

def sampleParameters (profile : Profile) : CandidateParameters (Flt ℚ) :=
  ⟨profile, none, 3, .num 0, .num 0, .num 10, 1, 21, .num (1 / 10), .num (1 / 2)⟩

def sampleIr : StrategyIR (Flt ℚ) :=
  ⟨"sample", "", "", "", [], [], none, .desc, .eventDriven, none⟩

end Samples

end QuantAgent.Features
