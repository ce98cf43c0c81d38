import QuantAgent.Engine.Attribution
import QuantAgent.Engine.Delisting

namespace QuantAgent
set_option autoImplicit true

theorem AppliedCases.priced {book : Book ℚ}
    (h : AppliedCases book ticker position kind book' applied)
    (hb : book.positions.All fun _ => Position.Priced) :
    book'.positions.All fun _ => Position.Priced := by
  cases h with
  | split _ hnew => exact hb.insert ⟨hnew, rfl⟩
  | dividend => exact hb
  | delist => exact hb.erase _

theorem entryShare_priced {position : Position ℚ} (h : position.Priced) (hlt : quantity < position.quantity) :
    Position.Priced { position with
      quantity := position.quantity - quantity
      entryNotional :=
        position.entryNotional - entryShare position.entryNotional quantity position.quantity
      entryCost := cost } := by
  obtain ⟨hheld, hnotional⟩ := h
  have hne : (position.quantity : ℚ) ≠ 0 := Int.cast_ne_zero.mpr hheld.ne'
  refine ⟨sub_pos.mpr hlt, ?_⟩
  simp only [entryShare, rat_ofInt, hnotional]
  push_cast
  field_simp

theorem priced_invariant (spec : StrategySpec ℚ) (config : BacktestRunConfig ℚ) (date : Date)
    (bars : Bars ℚ) : BookInvariant spec config date bars True
      fun _ book => book.positions.All fun _ => Position.Priced where
  action h hcases _ := by
    cases hcases with
    | skipped => exact h
    | applied hdate hpos happ => exact (applyToPosition_cases happ).priced h
  sell h hside hcases := by
    cases hcases with
    | declined => exact h
    | filled hpos hbar hprice hq hle =>
      dsimp only [settleSell]
      split
      · exact h.erase _
      · rename_i hne
        exact h.insert (entryShare_priced (h _ _ hpos) (lt_of_le_of_ne hle hne))
  buy h hside _ hcases := by
    cases hcases with
    | declined => exact h
    | filled hbar hprice hunit hsize => exact h.insert ⟨hsize.pos, rfl⟩
  stale h hcases := by
    cases hcases with
    | counted => exact h
    | writtenOff => exact h.erase _
  silent h _ := h

theorem run_priced {eng : BacktestEngine ℚ} (hdays : days.Pairwise (· < ·))
    (h : traceM (session eng included) eng.initialState days = .ok (s, log)) :
    s.positions.All fun _ => Position.Priced := by
  refine BookInvariant.run (fun date bars => priced_invariant eng.spec eng.config date bars)
    (fun {log book} bars hb => ?_) .empty hdays (fun _ _ _ _ _ _ _ _ _ _ => trivial) h
  refine hb.mapVal fun ticker position hp => ?_
  cases bars.get? ticker <;> exact hp

/-- The price of today's bar, or the last one seen. -/
def Position.mark (bars : Bars ℚ) (price : OhlcvBar ℚ → ℚ) (ticker : Ticker)
    (position : Position ℚ) : ℚ :=
  (bars.get? ticker).elim position.lastPrice price

/-- The mark of a share before the split: today's bar already quotes the split share. -/
def Position.markBefore (bars : Bars ℚ) (price : OhlcvBar ℚ → ℚ) (splitTicker : Ticker)
    (splitRatio : ℚ) (ticker : Ticker) (position : Position ℚ) : ℚ :=
  (bars.get? ticker).elim position.lastPrice fun bar =>
    if ticker = splitTicker then splitRatio * price bar else price bar

/-- A split that moves neither the value of a position nor the equity nor what the book cost. -/
structure ValueKept (bars : Bars ℚ) (price : OhlcvBar ℚ → ℚ) (splitTicker : Ticker)
    (splitRatio : ℚ) (book book' : Book ℚ) : Prop where
  values : book.positions.All fun ticker position => ∃ position',
    book'.positions.get? ticker = some position' ∧
      position'.quantity * position'.mark bars price ticker =
        position.quantity * position.markBefore bars price splitTicker splitRatio ticker
  equity : book'.cash + markedValue bars price book'.positions =
    book.cash + book.positions.sum fun ticker position =>
      position.quantity * position.markBefore bars price splitTicker splitRatio ticker
  costBasis : (book'.positions.sum fun _ => Position.invested) =
    book.positions.sum fun _ => Position.invested

theorem rat_trunc_int {q : ℚ} {n : ℤ} (h : q = n) : PyFloat.trunc q = .ok n := by
  subst h
  rw [rat_trunc]
  split <;> simp

/-- The book after a split into whole shares. -/
def splitBook (book : Book ℚ) (ticker : Ticker) (position : Position ℚ) (shares : ℤ) : Book ℚ :=
  { book with positions := book.positions.insert ticker (splitPosition position shares) }

theorem whole_pos {splitRatio : Positive ℚ} (hheld : 0 < (quantity : ℤ))
    (hwhole : (quantity : ℚ) * splitRatio.val = (shares : ℤ)) : 0 < shares := by
  have hpos : (0 : ℚ) < quantity * splitRatio.val :=
    mul_pos (Int.cast_pos.mpr hheld) splitRatio.property
  rw [hwhole] at hpos
  exact Int.cast_pos.mp hpos

theorem applyCorporateAction_split {book : Book ℚ} (hdate : event.effectiveDate = date)
    (hkind : event.eventType = .split splitRatio)
    (hpos : book.positions.get? event.ticker = some position) (hheld : 0 < position.quantity)
    (hwhole : (position.quantity : ℚ) * splitRatio.val = (shares : ℤ)) :
    applyCorporateAction date book event = .ok (splitBook book event.ticker position shares,
      [.audit (.corporateAction date event.ticker event.sourceVerified
        (.split position.quantity shares))]) := by
  have hshares : ¬shares ≤ 0 := not_le.mpr (whole_pos hheld hwhole)
  rw [applyCorporateAction, if_neg (not_not.mpr hdate), hpos]
  dsimp only
  rw [hkind, applyToPosition, rat_ofInt, rat_trunc_int hwhole, ok_bind, if_neg hshares]
  rfl

theorem splitPosition_invested {position : Position ℚ} (h : position.Priced) (hshares : 0 < shares) :
    (splitPosition position shares).invested = position.invested := by
  have hne : (shares : ℚ) ≠ 0 := Int.cast_ne_zero.mpr hshares.ne'
  simp only [Position.invested, splitPosition, rat_ofInt]
  rw [h.2]
  field_simp

/-- The split shares are worth what the old ones were unless they are marked at the old price. -/
theorem splitPosition_value (bars : Bars ℚ) (price : OhlcvBar ℚ → ℚ) (ticker : Ticker)
    {position : Position ℚ} {splitRatio : Positive ℚ} (hheld : 0 < position.quantity)
    (hwhole : (position.quantity : ℚ) * splitRatio.val = (shares : ℤ)) :
    shares * (splitPosition position shares).mark bars price ticker =
        position.quantity * position.markBefore bars price ticker splitRatio.val ticker ↔
      ticker ∈ bars ∨ splitRatio.val = 1 ∨ position.lastPrice = 0 := by
  have hne : (position.quantity : ℚ) ≠ 0 := Int.cast_ne_zero.mpr hheld.ne'
  unfold Position.mark Position.markBefore
  cases hbar : bars.get? ticker with
  | some bar =>
    have hmem : ticker ∈ bars := Dict.mem_of_get? hbar
    simp only [Option.elim_some, if_true, hmem, true_or, iff_true]
    rw [← hwhole]
    ring
  | none =>
    have hmem : ticker ∉ bars := Dict.get?_eq_none_iff.mp hbar
    simp only [Option.elim_none, hmem, false_or]
    change (shares : ℚ) * position.lastPrice = position.quantity * position.lastPrice ↔ _
    rw [← hwhole, mul_assoc, mul_right_inj' hne, mul_left_eq_self₀]

/-- The split position is the only one whose value can move. -/
theorem valueKept_iff (bars : Bars ℚ) (price : OhlcvBar ℚ → ℚ) {book : Book ℚ}
    {splitRatio : Positive ℚ} (hpriced : book.positions.All fun _ => Position.Priced)
    (hpos : book.positions.get? ticker = some position)
    (hwhole : (position.quantity : ℚ) * splitRatio.val = (shares : ℤ)) :
    ValueKept bars price ticker splitRatio.val book (splitBook book ticker position shares) ↔
      ticker ∈ bars ∨ splitRatio.val = 1 ∨ position.lastPrice = 0 := by
  have hheld := hpriced ticker position hpos
  have hshares := whole_pos hheld.1 hwhole
  have hvalue := splitPosition_value bars price ticker hheld.1 hwhole
  constructor
  · intro h
    obtain ⟨position', hget, hsame⟩ := h.values ticker position hpos
    rw [splitBook, Dict.get?_insert_self] at hget
    cases hget
    exact hvalue.mp hsame
  · intro h
    have hsame := hvalue.mpr h
    have hothers : ∀ t p, t ≠ ticker →
        Position.markBefore bars price ticker splitRatio.val t p = p.mark bars price t := by
      intro t p ht
      simp only [Position.markBefore, Position.mark, if_neg ht]
    have hvalues : book.positions.All fun t p => ∃ p',
        (splitBook book ticker position shares).positions.get? t = some p' ∧
          p'.quantity * p'.mark bars price t =
            p.quantity * p.markBefore bars price ticker splitRatio.val t := by
      intro t p hp
      dsimp only [splitBook]
      rw [Dict.get?_insert]
      by_cases ht : t = ticker
      · subst ht
        cases hpos.symm.trans hp
        exact ⟨_, if_pos rfl, hsame⟩
      · exact ⟨p, (if_neg ht).trans hp, by rw [hothers t p ht]⟩
    refine ⟨hvalues, ?_, ?_⟩
    · rw [markedValue_eq, splitBook]
      congr 1
      have hrest : ((book.positions.erase ticker).sum fun t p =>
          (p.quantity : ℚ) * p.mark bars price t) = (book.positions.erase ticker).sum fun t p =>
          (p.quantity : ℚ) * p.markBefore bars price ticker splitRatio.val t := by
        apply Dict.sum_congr
        intro t p hp
        rw [hothers t p (Dict.mem_erase.mp (Dict.mem_of_get? hp)).1]
      rw [Dict.sum_erase _ hpos, Dict.sum_erase _ hpos] at hrest
      rw [Dict.sum_insert_old _ hpos]
      change _ - position.quantity * position.mark bars price ticker +
        shares * (splitPosition position shares).mark bars price ticker = _
      rw [hsame]
      exact (congrArg (· + _) hrest).trans (sub_add_cancel _ _)
    · rw [splitBook, Dict.sum_insert_old _ hpos, splitPosition_invested hheld hshares]
      ring

theorem actions_priced {book book' : Book ℚ} (hb : book.positions.All fun _ => Position.Priced)
    (h : traceM (applyCorporateAction date) book events = .ok (book', out)) :
    book'.positions.All fun _ => Position.Priced := by
  refine traceM_state (P := fun b => b.positions.All fun _ => Position.Priced) h hb ?_
  intro b event b' o _ hb hst
  cases applyCorporateAction_cases hst with
  | skipped => exact hb
  | applied hdate hpos happ => exact (applyToPosition_cases happ).priced hb

/-- A split that a run comes to: the sessions before it, the actions of the day before it. -/
structure SplitReached (eng : BacktestEngine ℚ) (included : List Ticker) (date : Date)
    (bars : Bars ℚ) (event : CorporateActionEvent ℚ) (splitRatio : Positive ℚ) (book : Book ℚ)
    (position : Position ℚ) : Prop where
  intro ::
  reached : ∃ past rest s log, eng.sessions included = past ++ date :: rest ∧
    traceM (session eng included) eng.initialState past = .ok (s, log) ∧
    ∃ done more audit, eng.spec.backtest.corporateActions = done ++ event :: more ∧
      traceM (applyCorporateAction date) s.book done = .ok (book, audit)
  today : eng.todayBars included date = some bars
  effective : event.effectiveDate = date
  kind : event.eventType = .split splitRatio
  held : book.positions.get? event.ticker = some position

theorem SplitReached.priced {eng : BacktestEngine ℚ}
    (h : SplitReached eng included date bars event splitRatio book position) :
    book.positions.All fun _ => Position.Priced := by
  obtain ⟨past, rest, s, log, hsplit, hpast, done, more, audit, -, hdone⟩ := h.reached
  have hdays := sessions_increasing eng included
  rw [hsplit] at hdays
  exact actions_priced (run_priced (List.pairwise_append.mp hdays).1 hpast) hdone

/-- A split into whole shares keeps all values, unless the held name has no bar on the day and is
marked at a price that still quotes the old share. -/
theorem BacktestEngine.split_value_iff {eng : BacktestEngine ℚ}
    (h : SplitReached eng included date bars event splitRatio book position)
    (hwhole : (position.quantity : ℚ) * splitRatio.val = (shares : ℤ)) :
    ∃ book' out, applyCorporateAction date book event = .ok (book', out) ∧
      ∀ price : OhlcvBar ℚ → ℚ,
        ValueKept bars price event.ticker splitRatio.val book book' ↔
          event.ticker ∈ bars ∨ splitRatio.val = 1 ∨ position.lastPrice = 0 := by
  have hheld := h.priced _ position h.held
  exact ⟨_, _, applyCorporateAction_split h.effective h.kind h.held hheld.1 hwhole,
    fun price => valueKept_iff bars price h.priced h.held hwhole⟩

def doubling : Positive ℚ := ⟨2, by decide +kernel⟩

/-- Two shares for one on the third session. -/
def twoForOne (ticker : Ticker) : CorporateActionEvent ℚ := ⟨.split doubling, ticker, 3, true⟩

def splitEngine (rows : EngineRows ℚ) (ticker : Ticker) : BacktestEngine ℚ :=
  let backtest := { buildSampleSpec.backtest with corporateActions := [twoForOne ticker] }
  .ofRows { buildSampleSpec with backtest } defaultConfig rows none none

/-- What has to be evaluated to see a run come to its split. -/
structure ComesToSplit (rows : EngineRows ℚ) (included : List Ticker) (ticker : Ticker)
    (quoted : Bool) (quantity : ℤ) (lastPrice : ℚ) : Prop where
  sessions : (splitEngine rows ticker).sessions included = [1, 2, 3, 4]
  today : ((splitEngine rows ticker).todayBars included 3).map (fun bars => decide (ticker ∈ bars)) =
    some quoted
  held : (traceM (session (splitEngine rows ticker) included) (splitEngine rows ticker).initialState
    [1, 2]).map (fun r => (r.1.positions.get? ticker).map fun position =>
      (position.quantity, position.lastPrice)) = .ok (some (quantity, lastPrice))

theorem ComesToSplit.reached (h : ComesToSplit rows included ticker quoted quantity lastPrice) :
    ∃ bars book position, SplitReached (splitEngine rows ticker) included 3 bars (twoForOne ticker)
      doubling book position ∧ decide (ticker ∈ bars) = quoted ∧
      position.quantity = quantity ∧ position.lastPrice = lastPrice := by
  obtain ⟨bars, hbars, hquoted⟩ := Option.map_eq_some_iff.mp h.today
  obtain ⟨⟨s, log⟩, hpast, hview⟩ := map_ok_iff.mp h.held
  obtain ⟨position, hpos, hview⟩ := Option.map_eq_some_iff.mp hview
  obtain ⟨hquantity, hlast⟩ := Prod.mk.inj hview
  refine ⟨bars, s.book, position, ⟨?_, hbars, rfl, rfl, hpos⟩, hquoted, hquantity, hlast⟩
  exact ⟨[1, 2], [4], s, log, h.sessions, hpast, [], [], [], rfl, rfl⟩

theorem splitEngine_sample : ∃ included bars book position book' out,
    SplitReached (splitEngine sampleRows "005930") included 3 bars (twoForOne "005930")
      doubling book position ∧
    applyCorporateAction 3 book (twoForOne "005930") = .ok (book', out) ∧
    ValueKept bars OhlcvBar.close "005930" doubling.val book book' := by
  have hcomes : ComesToSplit sampleRows ["005930"] "005930" true 90 115 :=
    ⟨by decide +kernel, by decide +kernel, by decide +kernel⟩
  obtain ⟨bars, book, position, hreached, hquoted, hquantity, -⟩ := hcomes.reached
  have hwhole : (position.quantity : ℚ) * doubling.val = (180 : ℤ) := by
    rw [hquantity]
    decide +kernel
  obtain ⟨book', out, happlied, hiff⟩ := BacktestEngine.split_value_iff hreached hwhole
  exact ⟨["005930"], bars, book, position, book', out, hreached, happlied,
    (hiff OhlcvBar.close).mpr (.inl (of_decide_eq_true hquoted))⟩

/-- A held name without a bar doubles its shares and keeps its mark. -/
theorem splitEngine_inflates : ∃ included bars book position book' out,
    SplitReached (splitEngine haltedRows "000660") included 3 bars (twoForOne "000660")
      doubling book position ∧
    applyCorporateAction 3 book (twoForOne "000660") = .ok (book', out) ∧
    ¬ValueKept bars OhlcvBar.close "000660" doubling.val book book' := by
  have hcomes : ComesToSplit haltedRows ["000660", "005930"] "000660" false 952 106 :=
    ⟨by decide +kernel, by decide +kernel, by decide +kernel⟩
  obtain ⟨bars, book, position, hreached, hquoted, hquantity, hlast⟩ := hcomes.reached
  have hwhole : (position.quantity : ℚ) * doubling.val = (1904 : ℤ) := by
    rw [hquantity]
    decide +kernel
  have hheld := hreached.priced _ position hreached.held
  refine ⟨["000660", "005930"], bars, book, position, _, _, hreached,
    applyCorporateAction_split rfl rfl hreached.held hheld.1 hwhole, ?_⟩
  intro hkept
  have hcases := (valueKept_iff bars OhlcvBar.close hreached.priced hreached.held hwhole).mp hkept
  rcases hcases with hbar | hone | hzero
  · exact absurd hbar (of_decide_eq_false hquoted)
  · exact absurd hone (by decide +kernel)
  · rw [hlast] at hzero
    norm_num at hzero

end QuantAgent
