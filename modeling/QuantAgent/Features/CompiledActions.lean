import QuantAgent.Features.BookRuns
import QuantAgent.Features.EntryScore

namespace QuantAgent.Features
set_option autoImplicit true

/-- A row that passed the entry conditions: `(index, ticker, close, score)`. -/
structure Eligible (F : Type) where
  index : ℕ
  ticker : String
  close : F
  score : F

/-- What the first loop of a session collects. -/
structure SessionScan (F : Type) where
  states : States F
  eligible : List (Eligible F)
  exits : List (ℕ × String)

/-- `all(test(x) for x in l)`, which stops at the first that fails. -/
def allTrue {F : Type} (test : α → Build F Bool) : List α → Build F Bool
  | [] => pure true
  | a :: rest => do if ← test a then allTrue test rest else pure false

section Rules
variable {F : Type} [NumPy F]

/-- A session in position. -/
def PositionState.mark (state : PositionState F) (close : F) : PositionState F :=
  { state with highest := pyMax state.highest close, sessionsHeld := state.sessionsHeld + 1 }

def entryPriority (entry : Eligible F) : F × String := slotPriority entry.score entry.ticker

def sortEligible (eligible : List (Eligible F)) : List (Eligible F) :=
  pySorted (fun a b => slotBefore (entryPriority a) (entryPriority b)) eligible

/-- The exits, in turn; one that is out already is passed over. -/
def sellExits : List (ℕ × String) → States F → List (Decision F) × States F × List String
  | [], states => ([], states, [])
  | (index, ticker) :: exits, states =>
    if ticker ∈ states then
      let (decisions, states, exited) := sellExits exits (states.erase ticker)
      (.sell index :: decisions, states, ticker :: exited)
    else sellExits exits states

/-- The entries, in turn, while there are slots. -/
def buyEntries (maxPositions : ℕ) (exited : List String) : List (Eligible F) → ℕ → States F →
    List (Decision F) × States F
  | [], _, states => ([], states)
  | entry :: entries, held, states =>
    if maxPositions ≤ held then ([], states)
    else if entry.ticker ∈ exited ∨ entry.ticker ∈ states then
      buyEntries maxPositions exited entries held states
    else
      let (decisions, states) := buyEntries maxPositions exited entries (held + 1)
        (states.insert entry.ticker ⟨entry.close, entry.close, 0⟩)
      (.buy entry.index entry.score :: decisions, states)

end Rules

namespace StrategyIR
variable {F : Type} [NumPy F] (strategyIr : StrategyIR F)

/-- `entry_conditions` of `_compiled_actions` -/
def plainEntries : List (DescribedCondition F) :=
  strategyIr.entryConditions.filter fun item => item.universeRankPct.isNone

def rankConditions : List (DescribedCondition F) :=
  strategyIr.entryConditions.filter fun item => item.universeRankPct.isSome

def plainExits : List (DescribedCondition F) :=
  strategyIr.exitConditions.filter fun item => item.universeRankPct.isNone

def direction : F :=
  match strategyIr.rankingDirection with
  | .asc => -1
  | .desc => 1

end StrategyIR

namespace PreparedFeatureStore
variable {F : Type} [NumPy F] (S : PreparedFeatureStore F) (strategyIr : StrategyIR F)
  (parameters : CandidateParameters F)

/-- What an eligible row ranks by, if it has a value. -/
def eligibleScore (index : ℕ) : Build F (Option F) :=
  match strategyIr.rankingMetric.filter (· ≠ "") with
  | some metric => do
    let measured ← S.currentMetric metric index
    pure (measured.map fun measured => strategyIr.direction * measured)
  | none => do
    let score ← S.defaultEntryScore index
      (fallbackRankMetric (strategyIr.rankConditions.map DescribedCondition.toCondition))
      strategyIr.plainEntries
    pure (some score)

/-- The score of a row that passes the entry conditions. -/
def entryScoreAt (index : ℕ) : Build F (Option F) := do
  let matchesEntry ← allTrue (fun condition => S.conditionMatches condition index) strategyIr.plainEntries
  if matchesEntry then S.eligibleScore strategyIr index else pure none

/-- `exit_match` -/
def exitMatch (index : ℕ) : Build F Bool :=
  if strategyIr.plainExits = [] then pure false
  else allTrue (fun condition => S.conditionMatches condition index) strategyIr.plainExits

/-- The exit of a row, if its ticker is in position and has one. -/
def exitAt (index : ℕ) : Option (PositionState F) → Build F (List (ℕ × String))
  | none => pure []
  | some state => do
    let exitMatch ← S.exitMatch strategyIr index
    let close := S.closeAt index
    let holdingExit := strategyIr.holdingDays.any fun days => decide (days ≤ state.sessionsHeld)
    pure (if exitMatch || trailingStop close state.highest parameters ||
        fixedRiskExit close state.entryClose parameters || holdingExit then
      [(index, S.tickerAt index)] else [])

/-- One row of the first loop of a session. -/
def scanRow (scan : SessionScan F) (index : ℕ) : Build F (SessionScan F) := do
  let ticker := S.tickerAt index
  let close := S.closeAt index
  let state := (scan.states.get? ticker).map fun state => state.mark close
  let score ← S.entryScoreAt strategyIr index
  let exits ← S.exitAt strategyIr parameters index state
  pure {
    states := state.elim scan.states fun state => scan.states.insert ticker state
    eligible := scan.eligible ++ (score.map fun score => ⟨index, ticker, close, score⟩).toList
    exits := scan.exits ++ exits }

/-- One cross-sectional cut of the eligible rows. -/
def rankCut (indices : List ℕ) (eligible : List (Eligible F)) (condition : DescribedCondition F) :
    Build F (List (Eligible F)) := do
  let scored ← indices.foldlM (fun (scored : List (String × F)) index => do
    match ← S.currentMetric condition.left index with
    | some value => pure (scored ++ [(S.tickerAt index, value)])
    | none => pure scored) []
  let top := condition.operator = .gt ∨ condition.operator = .gte
  let scored := sortScored (decide top) scored
  match PyFloat.trunc (lit scored.length * condition.universeRankPct.getD 0) with
  | .error error => throw error
  | .ok share =>
    let kept := (scored.take (max 1 share).toNat).map Prod.fst
    pure (eligible.filter fun entry => entry.ticker ∈ kept)

/-- The day's target of a rotation. -/
def rotationTarget (eligible : List (Eligible F)) : List String :=
  (eligible.take parameters.maxPositions).map Eligible.ticker

/-- The exits of a rotation: what is held and is not in the target. -/
def rotationExits (indices : List ℕ) (states : States F) (target : List String) : List (ℕ × String) :=
  (indices.filter fun index => decide (S.tickerAt index ∈ states ∧ S.tickerAt index ∉ target)).map
    fun index => (index, S.tickerAt index)

/-- What a session does with its eligible rows in order and its exits. -/
def settleSession (rotationDay : Bool) (indices : List ℕ) (eligible : List (Eligible F))
    (exits : List (ℕ × String)) (states : States F) : List (Decision F) × States F :=
  let target := if rotationDay then rotationTarget parameters eligible else []
  let exits := if rotationDay then exits ++ S.rotationExits indices states target else exits
  let (sells, states, exited) := sellExits exits states
  let entries := if rotationDay then eligible.filter fun entry => entry.ticker ∈ target else eligible
  let (buys, states) := buyEntries parameters.maxPositions exited entries states.size states
  (sells ++ buys, states)

/-- One session of `_compiled_actions`. -/
def compiledSession (resetIndex : Option ℕ) : SessionStep F := fun number indices states => do
  let scan ← indices.foldlM (S.scanRow strategyIr parameters) ⟨states, [], []⟩
  let eligible ← strategyIr.rankConditions.foldlM (S.rankCut indices) scan.eligible
  let rotationDay := strategyIr.executionMode == .scheduledRotation &&
    (resetIndex == some number || number % parameters.rebalanceIntervalDays == 0)
  pure (S.settleSession parameters rotationDay indices (sortEligible eligible) scan.exits scan.states)

/-- `_compiled_actions` -/
def compiledActions (resetIndex stopIndex : Option ℕ) : Build F (RankedActions F) :=
  S.generate (S.compiledSession strategyIr parameters resetIndex) resetIndex stopIndex

end PreparedFeatureStore
end QuantAgent.Features
