import QuantAgent.Lib.Occurrences
import QuantAgent.Lib.Dict

namespace QuantAgent.RsiRules
set_option autoImplicit true

inductive RsiOperator where
  | lt
  | lte
  | gt
  | gte
deriving DecidableEq

inductive RsiEntrySide where
  | oversold
  | overbought
deriving DecidableEq

structure RsiTradeRules where
  entrySide : RsiEntrySide
  entryThreshold : ℚ
  entryOperator : RsiOperator
  exitThreshold : ℚ
  exitOperator : RsiOperator
deriving DecidableEq

/-- What the group `(30|70)` can hold. -/
inductive RsiThreshold where
  | low
  | high
deriving DecidableEq

namespace RsiThreshold

def digits : RsiThreshold → List Char
  | low => ['3', '0']
  | high => ['7', '0']

def value : RsiThreshold → ℚ
  | low => 30
  | high => 70

def other : RsiThreshold → RsiThreshold
  | low => high
  | high => low

def ofDigits? (s : List Char) : Option RsiThreshold :=
  if s = low.digits then some low else if s = high.digits then some high else none

end RsiThreshold

inductive RsiAction where
  | buy
  | sell
deriving DecidableEq

/-- `_RSI_ACTIONS` -/
def RsiAction.tokens : RsiAction → List (List Char)
  | buy => ["매수".toList, "매입".toList, "구매".toList, "사고".toList, "사다".toList, "buy".toList]
  | sell => ["매도".toList, "매각".toList, "팔고".toList, "팔다".toList, "sell".toList]

section
variable (casefold : String → String) (isSpace isDecimal : Char → Bool)

/-- `re.sub(r"\s+", "", query.casefold())` -/
def normalized (query : String) : List Char := (casefold query).toList.filter fun c => ! isSpace c

/-- `_RSI_THRESHOLD_RE.finditer` from the place `i` on, where `prev` is the character before it. -/
def thresholdMatches (prev : Option Char) (i : ℕ) : List Char → List (ℕ × RsiThreshold)
  | [] => []
  | [_] => []
  | c :: d :: rest =>
    match RsiThreshold.ofDigits? [c, d] with
    | some t =>
      if ! prev.any isDecimal ∧ ! rest.head?.any isDecimal then
        (i, t) :: thresholdMatches (some d) (i + 2) rest
      else thresholdMatches (some c) (i + 1) (d :: rest)
    | none => thresholdMatches (some c) (i + 1) (d :: rest)

/-- The loop of `_rsi_threshold_contexts`: from 12 characters before a number to the next one. -/
def contextsOf (text : List Char) :
    List (ℕ × RsiThreshold) → Dict RsiThreshold (List Char) → Dict RsiThreshold (List Char)
  | [], contexts => contexts
  | [(start, t)], contexts => contexts.insert t (pySlice (start - 12) text.length text)
  | (start, t) :: (next, t') :: rest, contexts =>
    contextsOf text ((next, t') :: rest) (contexts.insert t (pySlice (start - 12) next text))

def rsiThresholdContexts (query : String) : Dict RsiThreshold (List Char) :=
  let text := normalized casefold isSpace query
  contextsOf text (thresholdMatches isDecimal none 0 text) Dict.empty

end

def RsiAction.foundIn (action : RsiAction) (context : List Char) : Bool :=
  action.tokens.any fun token => decide (token <:+: context)

def rsiAction (context : List Char) : Option RsiAction :=
  match RsiAction.buy.foundIn context, RsiAction.sell.foundIn context with
  | true, false => some .buy
  | false, true => some .sell
  | _, _ => none

namespace RsiOperator

def symbol : RsiOperator → List Char
  | lt => ['<']
  | lte => ['<', '=']
  | gt => ['>']
  | gte => ['>', '=']

def word : RsiOperator → List Char
  | lt => "미만".toList
  | lte => "이하".toList
  | gt => "초과".toList
  | gte => "이상".toList

/-- The text before and after the number names the operator. -/
def Named (before after : List Char) (o : RsiOperator) : Prop :=
  o.symbol <:+: before ∨ o.symbol <:+: after ∨ o.word <:+: after

instance (before after : List Char) (o : RsiOperator) : Decidable (Named before after o) :=
  inferInstanceAs (Decidable (_ ∨ _ ∨ _))

end RsiOperator

/-- `before` and `after` of `_rsi_operator`; a number that is not there is at the place -1. -/
def around (context : List Char) (t : RsiThreshold) : List Char × List Char :=
  match rfind t.digits context with
  | some position =>
    (pySlice (position - 8) position context, pySlice (position + 2) (position + 14) context)
  | none => (context.dropLast, pySlice 1 13 context)

def RsiThreshold.defaultOperator : RsiThreshold → RsiOperator
  | low => .lte
  | high => .gte

def rsiOperator (context : List Char) (t : RsiThreshold) : RsiOperator :=
  let (before, after) := around context t
  if RsiOperator.Named before after .lte then .lte
  else if RsiOperator.Named before after .gte then .gte
  else if RsiOperator.Named before after .lt then .lt
  else if RsiOperator.Named before after .gt then .gt
  else t.defaultOperator

def rsiTradeRules (casefold : String → String) (isSpace isDecimal : Char → Bool) (query : String) :
    RsiTradeRules :=
  let contexts := rsiThresholdContexts casefold isSpace isDecimal query
  let lowContext := (contexts.get? .low).getD []
  let highContext := (contexts.get? .high).getD []
  let lowAction := rsiAction lowContext
  let highAction := rsiAction highContext
  if highAction = some .buy ∨ lowAction = some .sell then
    { entrySide := .overbought
      entryThreshold := 70
      entryOperator := rsiOperator highContext .high
      exitThreshold := 30
      exitOperator := rsiOperator lowContext .low }
  else
    { entrySide := .oversold
      entryThreshold := 30
      entryOperator := rsiOperator lowContext .low
      exitThreshold := 70
      exitOperator := rsiOperator highContext .high }

example : rsiTradeRules id (· = ' ') Char.isDigit "RSI가 30미만일때 매도 70이상일때 매수하는 전략" =
    ⟨.overbought, 70, .gte, 30, .lt⟩ := by decide +kernel

end QuantAgent.RsiRules
