import QuantAgent.Lib.PyJoin

namespace QuantAgent.StrategyPreferences
set_option autoImplicit true

/-- What Python says of characters and of folding their case. -/
structure CharTables where
  casefold : String → String
  isSpace : Char → Bool
  /-- The value of a character that `\d` matches. -/
  decimal : Char → Option ℕ
  space : isSpace ' ' = true
  decimal_digitChar : ∀ d < 10, decimal d.digitChar = some d
  decimal_space : ∀ c, isSpace c = true → decimal c = none
  letter : ∀ c ∈ ['개', '월', '종', 'n', 's'], isSpace c = false ∧ decimal c = none

inductive RiskStyle where
  | aggressive
  | balanced
  | defensive
deriving DecidableEq

inductive Horizon where
  | short
  | medium
  | long
deriving DecidableEq

structure AutomaticStrategyPreferences where
  riskStyle : RiskStyle
  horizon : Horizon
  maxPositions : ℕ
  rebalanceIntervalDays : ℕ
  stopLossPct : ℚ
  trailingStopPct : ℚ
deriving DecidableEq

def aggressivePreferenceTerms : List (List Char) :=
  ["공격적".toList, "고수익".toList, "수익 극대화".toList, "초과수익".toList, "알파".toList,
    "집중".toList, "강하게".toList, "aggressive".toList, "high return".toList, "outperform".toList,
    "alpha".toList, "concentrated".toList]

def defensivePreferenceTerms : List (List Char) :=
  ["안정적".toList, "안전".toList, "보수적".toList, "저위험".toList, "저변동".toList, "낙폭".toList,
    "손실 최소".toList, "방어".toList, "연금".toList, "defensive".toList, "conservative".toList,
    "low risk".toList, "low volatility".toList, "drawdown".toList]

def shortHorizonTerms : List (List Char) :=
  ["단기".toList, "스윙".toList, "주간".toList, "빠르게".toList, "1개월".toList, "3개월".toList,
    "short term".toList, "swing".toList, "weekly".toList]

def longHorizonTerms : List (List Char) :=
  ["장기".toList, "오래".toList, "저회전".toList, "거래 적게".toList, "1년 이상".toList, "3년".toList,
    "5년".toList, "연금".toList, "long term".toList, "low turnover".toList]

/-- `term in text` -/
def termIn (text term : List Char) : Bool := decide (term <:+: text)

def termScore (text : List Char) (terms : List (List Char)) : ℕ := terms.countP (termIn text)

section
variable (T : CharTables)

/-- `query.casefold().split()` -/
def words (query : String) : List (List Char) :=
  ((T.casefold query).toList.splitOnP T.isSpace).filter fun word => !word.isEmpty

def normalized (query : String) : List Char := joinChars ' ' (words T query)

/-- `(?!\d)` -/
def noDigitNext (s : List Char) : Bool := !s.head?.any fun c => (T.decimal c).isSome

/-- A literal word and what has to match after it. -/
def literal (word : List Char) (next : List Char → Bool) (s : List Char) : Bool :=
  word.isPrefixOf s && next (s.drop word.length)

/-- `종목|names?|stocks?` -/
def plainUnits : List (List Char) :=
  ["종목".toList, "name".toList, "names".toList, "stock".toList, "stocks".toList]

/-- `(?:개(?:\s*종목)?|종목|names?|stocks?)(?!\d)` -/
def unitAt (s : List Char) : Bool :=
  literal "개".toList (fun rest =>
    literal "종목".toList (noDigitNext T) (rest.dropWhile T.isSpace) || noDigitNext T rest) s ||
    plainUnits.any fun unit => literal unit (noDigitNext T) s

/-- `\s*` and the unit. -/
def unitFollows (s : List Char) : Bool := unitAt T (s.dropWhile T.isSpace)

/-- `([3-9]|[12]\d|30)` and what follows. -/
def numberAt : List Char → Option ℕ
  | [] => none
  | [_] => none
  | c :: d :: rest =>
    if c ∈ "3456789".toList ∧ unitFollows T (d :: rest) = true then some (c.toNat - '0'.toNat)
    else match T.decimal d with
      | none => none
      | some e =>
        if unitFollows T rest = false then none
        else if c = '1' then some (10 + e)
        else if c = '2' then some (20 + e)
        else if c = '3' ∧ d = '0' then some 30
        else none

/-- `_POSITION_COUNT_RE` at one place of a text. -/
def positionCountAt (afterDigit : Bool) (s : List Char) : Option ℕ :=
  if afterDigit then none else numberAt T s

/-- `_POSITION_COUNT_RE.search` among the places of a text that goes on with `rest`. -/
def positionCountIn (afterDigit : Bool) : List Char → List Char → Option ℕ
  | [], _ => none
  | c :: s, rest =>
    (positionCountAt T afterDigit (c :: s ++ rest)).or
      (positionCountIn (T.decimal c).isSome s rest)

/-- `_POSITION_COUNT_RE.search` -/
def positionCount (text : List Char) : Option ℕ := positionCountIn T false text []

/-- `infer_automatic_strategy_preferences` -/
def inferAutomaticStrategyPreferences (query : String) : AutomaticStrategyPreferences :=
  let normalized := normalized T query
  let aggressiveScore := termScore normalized aggressivePreferenceTerms
  let defensiveScore := termScore normalized defensivePreferenceTerms
  let requestedPositions := positionCount T normalized
  let aggressiveScore := aggressiveScore + if requestedPositions.any (· ≤ 7) then 1 else 0
  let defensiveScore := defensiveScore + if requestedPositions.any (15 ≤ ·) then 1 else 0
  let riskStyle : RiskStyle :=
    if defensiveScore < aggressiveScore then .aggressive
    else if aggressiveScore < defensiveScore then .defensive
    else .balanced
  let shortScore := termScore normalized shortHorizonTerms
  let longScore := termScore normalized longHorizonTerms
  let horizon : Horizon :=
    if longScore < shortScore then .short else if shortScore < longScore then .long else .medium
  let defaultPositions := match riskStyle with
    | .aggressive => 8
    | .balanced => 10
    | .defensive => 15
  let rebalanceIntervalDays :=
    if ["매주".toList, "weekly".toList].any (termIn normalized) then 5
    else if ["격주".toList, "biweekly".toList].any (termIn normalized) then 10
    else if ["매월".toList, "월간".toList, "monthly".toList].any (termIn normalized) then 21
    else if ["분기".toList, "quarterly".toList].any (termIn normalized) then 63
    else match horizon with
      | .short => 10
      | .medium => 21
      | .long => 42
  let stops : ℚ × ℚ := match riskStyle with
    | .aggressive => (25 / 100, 30 / 100)
    | .balanced => (20 / 100, 25 / 100)
    | .defensive => (12 / 100, 15 / 100)
  { riskStyle
    horizon
    maxPositions := requestedPositions.getD defaultPositions
    rebalanceIntervalDays
    stopLossPct := stops.1
    trailingStopPct := stops.2 }

end

end QuantAgent.StrategyPreferences
