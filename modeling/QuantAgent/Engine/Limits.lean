import QuantAgent.Engine.Solvency

namespace QuantAgent
set_option autoImplicit true

/-- Cash and the positions at today's opens. -/
def openEquity (bars : Bars ℚ) (book : Book ℚ) : ℚ :=
  book.cash + markedValue bars OhlcvBar.open_ book.positions

/-- What one share of a buy takes from cash before the costs are rounded. -/
def buyUnitCash (costModel : CostModel ℚ) (bar : OhlcvBar ℚ) : ℚ :=
  bar.open_ * (1 + costModel.slippagePct.val) * (1 + costModel.commissionPct.val)

/-- The limits of a strategy around one fill: against the equity the order was sized on, and
against the equity the fill leaves. -/
structure WithinLimits (spec : StrategySpec ℚ) (bars : Bars ℚ) (bar : OhlcvBar ℚ) (quantity : ℤ)
    (book book' : Book ℚ) : Prop where
  count : ∀ maxPositions : ℕ+, spec.positionSizing.maxPositions = some maxPositions →
    book'.positions.size ≤ (maxPositions : ℕ)
  gross : markedValue bars OhlcvBar.open_ book'.positions ≤
    spec.riskControls.maxGrossExposurePct.val * openEquity bars book
  grossAfter : markedValue bars OhlcvBar.open_ book'.positions ≤
    spec.riskControls.maxGrossExposurePct.val * openEquity bars book'
  single : quantity * buyUnitCash spec.backtest.costModel bar ≤
    spec.riskControls.maxSinglePositionPct.val * openEquity bars book
  singleAfter : quantity * bar.open_ ≤
    spec.riskControls.maxSinglePositionPct.val * openEquity bars book'

theorem buyBudget_le (spec : StrategySpec ℚ) (currentEquity positionsValue budget : ℚ) :
    buyBudget spec currentEquity positionsValue budget ≤
        currentEquity * spec.riskControls.maxSinglePositionPct.val ∧
      buyBudget spec currentEquity positionsValue budget ≤
        max 0 (currentEquity * spec.riskControls.maxGrossExposurePct.val - positionsValue) := by
  unfold buyBudget
  simp only [rat_pyMin, rat_pyMax]
  exact ⟨(min_le_left _ _).trans (min_le_right _ _), min_le_right _ _⟩

/-- A fill with the book it leaves and the budget its size respects. -/
structure BudgetedFill (spec : StrategySpec ℚ) (date : Date) (bars : Bars ℚ) (bar : OhlcvBar ℚ)
    (book : Book ℚ) (order : PendingOrder ℚ) (quantity : ℤ) (book' : Book ℚ) : Prop where
  quoted : bars.get? order.ticker = some bar
  room : ∀ maxPositions : ℕ+, spec.positionSizing.maxPositions = some maxPositions →
    book.positions.size < (maxPositions : ℕ)
  unitCash : 0 < buyUnitCash spec.backtest.costModel bar
  pos : 0 < quantity
  budget : ∃ budget, quantity * buyUnitCash spec.backtest.costModel bar ≤
    buyBudget spec (openEquity bars book) (markedValue bars OhlcvBar.open_ book.positions) budget
  cash : ∃ commission, book'.cash = book.cash -
      (quantity * (bar.open_ * (1 + spec.backtest.costModel.slippagePct.val)) + commission) ∧
    costDecimal spec.backtest.costModel
      (quantity * (bar.open_ * (1 + spec.backtest.costModel.slippagePct.val)) *
        spec.backtest.costModel.commissionPct.val) = .ok commission
  positions : ∃ position, book'.positions = book.positions.insert order.ticker position ∧
    position.quantity = quantity

theorem Declined.not_executed (h : Declined date order (e : AuditEvent ℚ)) :
    Entry.audit (.executed date' order' fill) ≠ Entry.audit e := by
  intro heq
  cases heq
  cases h

theorem executeBuy_budgeted {book : Book ℚ}
    (h : executeBuy spec date bars orderCount book order = .ok (book', out))
    (hfill : Entry.audit (.executed date' order' fill) ∈ out) :
    order' = order ∧ date' = date ∧
      ∃ bar, BudgetedFill spec date bars bar book order fill.quantity book' := by
  unfold executeBuy at h
  split at h
  · cases h
    cases List.mem_singleton.mp hfill
  · rename_i hroom
    split at h
    · cases h
    · rename_i bar hbar
      unfold sizeBuy at h
      dsimp only at h
      split at h
      · cases h
        cases List.mem_singleton.mp hfill
      · rename_i hunit
        obtain ⟨budget, -, h⟩ := bind_ok_iff.mp h
        obtain ⟨budgetQuantity, hbudget, h⟩ := bind_ok_iff.mp h
        obtain ⟨cashQuantity, hcash, h⟩ := bind_ok_iff.mp h
        obtain ⟨capacity, -, h⟩ := bind_ok_iff.mp h
        split at h
        · cases h
          cases List.mem_singleton.mp hfill
        · split at h
          · cases h
            cases List.mem_singleton.mp hfill
          · rename_i hq
            obtain ⟨costs, hcosts, h⟩ := bind_ok_iff.mp h
            obtain ⟨commission, hcommission, hcosts⟩ := bind_ok_iff.mp hcosts
            obtain ⟨slippage, -, hcosts⟩ := bind_ok_iff.mp hcosts
            cases hcosts
            cases h
            cases List.mem_singleton.mp hfill
            have hle := capQuantity_le (min (max 0 budgetQuantity) (max 0 cashQuantity)) capacity.1
            have hunit : ¬buyUnitCash spec.backtest.costModel bar ≤ 0 := fun hle => hunit (.inr hle)
            refine ⟨rfl, rfl, bar, hbar, fun maxPositions hmax => ?_, not_le.mp hunit, not_le.mp hq,
              ⟨budget, buy_affordable hunit hbudget (hle.trans (min_le_left _ _)) (not_le.mp hq)⟩,
              ⟨commission, rfl, hcommission⟩, ⟨_, rfl, rfl⟩⟩
            rw [hmax] at hroom
            simpa using hroom

theorem Dict.size_insert_le [DecidableEq κ] (d : Dict κ α) (k : κ) (v : α) :
    (d.insert k v).size ≤ d.size + 1 := by
  by_cases h : k ∈ d
  · rw [Dict.insert, dif_pos h, Dict.size_mapVal]
    exact Nat.le_succ _
  · rw [Dict.size_insert_of_not_mem h]

/-- A share of the equity still covers a holding once a purchase has cost what it is not worth. -/
theorem share_after {share equity equity' held paid worth : ℚ} (hshare : 0 ≤ share ∧ share ≤ 1)
    (hworth : worth ≤ paid) (hpaid : held + paid ≤ share * equity)
    (hleft : equity - paid + worth ≤ equity') : held + worth ≤ share * equity' := by
  have hloss : share * (paid - worth) ≤ paid - worth :=
    mul_le_of_le_one_left (sub_nonneg.mpr hworth) hshare.2
  have hkept : share * (equity - paid + worth) ≤ share * equity' :=
    mul_le_mul_of_nonneg_left hleft hshare.1
  calc held + worth ≤ share * equity - (paid - worth) := by linarith
    _ ≤ share * equity - share * (paid - worth) := by linarith
    _ = share * (equity - paid + worth) := by ring
    _ ≤ share * equity' := hkept

theorem open_le_buyUnitCash (costModel : CostModel ℚ) {bar : OhlcvBar ℚ}
    (hunit : 0 < buyUnitCash costModel bar) : bar.open_ ≤ buyUnitCash costModel bar := by
  have hslippage : (0 : ℚ) ≤ costModel.slippagePct.val := costModel.slippagePct.property
  have hcommission : (0 : ℚ) ≤ costModel.commissionPct.val := costModel.commissionPct.property
  have hrate : 1 ≤ (1 + costModel.slippagePct.val) * (1 + costModel.commissionPct.val) := by
    nlinarith [mul_nonneg hslippage hcommission]
  have hopen : 0 < bar.open_ := by
    rw [buyUnitCash, mul_assoc] at hunit
    exact (mul_pos_iff_of_pos_right (zero_lt_one.trans_le hrate)).mp hunit
  rw [buyUnitCash, mul_assoc]
  exact le_mul_of_one_le_right hopen.le hrate

/-- A fill sized by its budget stays within every limit. -/
theorem BudgetedFill.withinLimits
    (h : BudgetedFill spec date bars bar book order quantity book')
    (hmode : spec.backtest.costModel.roundingMode ≠ .halfUp)
    (hfree : order.ticker ∉ book.positions) : WithinLimits spec bars bar quantity book book' := by
  obtain ⟨position, hpositions, hquantity⟩ := h.positions
  obtain ⟨budget, hbudget⟩ := h.budget
  obtain ⟨commission, hcash, hcommission⟩ := h.cash
  obtain ⟨hsingle, hgross⟩ := buyBudget_le spec (openEquity bars book)
    (markedValue bars OhlcvBar.open_ book.positions) budget
  have hround := costDecimal_le _ (.inl hmode) hcommission
  have hqpos : (0 : ℚ) < quantity := Int.cast_pos.mpr h.pos
  have hpaid : 0 < quantity * buyUnitCash spec.backtest.costModel bar := mul_pos hqpos h.unitCash
  have hworth : quantity * bar.open_ ≤ quantity * buyUnitCash spec.backtest.costModel bar :=
    mul_le_mul_of_nonneg_left (open_le_buyUnitCash _ h.unitCash) hqpos.le
  have hvalue : markedValue bars OhlcvBar.open_ book'.positions =
      markedValue bars OhlcvBar.open_ book.positions + quantity * bar.open_ := by
    rw [markedValue_eq, markedValue_eq, hpositions, Dict.sum_insert_new _ hfree, hquantity, h.quoted]
    rfl
  have hleft : openEquity bars book - quantity * buyUnitCash spec.backtest.costModel bar +
      quantity * bar.open_ ≤ openEquity bars book' := by
    have hunit : quantity * buyUnitCash spec.backtest.costModel bar =
        quantity * (bar.open_ * (1 + spec.backtest.costModel.slippagePct.val)) +
          quantity * (bar.open_ * (1 + spec.backtest.costModel.slippagePct.val)) *
            spec.backtest.costModel.commissionPct.val := by
      rw [buyUnitCash]
      ring
    rw [openEquity, openEquity, hvalue, hcash, hunit]
    linarith
  have hroom : markedValue bars OhlcvBar.open_ book.positions +
      quantity * buyUnitCash spec.backtest.costModel bar ≤
        spec.riskControls.maxGrossExposurePct.val * openEquity bars book := by
    rcases le_max_iff.mp (hbudget.trans hgross) with hzero | hroom
    · exact absurd hpaid (not_lt.mpr hzero)
    · linarith
  have hcap : 0 + quantity * buyUnitCash spec.backtest.costModel bar ≤
      spec.riskControls.maxSinglePositionPct.val * openEquity bars book := by
    rw [zero_add, mul_comm (Subtype.val _)]
    exact hbudget.trans hsingle
  obtain ⟨hgpos, hgone⟩ := spec.riskControls.maxGrossExposurePct.property
  obtain ⟨hspos, hsone⟩ := spec.riskControls.maxSinglePositionPct.property
  refine ⟨fun maxPositions hmax => ?_, ?_, ?_, ?_, ?_⟩
  · rw [hpositions]
    exact (Dict.size_insert_le _ _ _).trans (h.room maxPositions hmax)
  · rw [hvalue]
    linarith
  · rw [hvalue]
    exact share_after ⟨hgpos.le, hgone⟩ hworth hroom hleft
  · rw [zero_add] at hcap
    exact hcap
  · have hafter := share_after ⟨hspos.le, hsone⟩ hworth hcap hleft
    rw [zero_add] at hafter
    exact hafter

/-- A buy that a run fills: the sessions before it, the passes and the buys of the day before it. -/
structure BuyFilled (eng : BacktestEngine ℚ) (included : List Ticker) (date : Date)
    (order : PendingOrder ℚ) (fill : Fill ℚ) (bars : Bars ℚ) (book book' : Book ℚ) : Prop where
  intro ::
  reached : ∃ past rest s log corporate sold sellLog done later before out,
    eng.sessions included = past ++ date :: rest ∧
    traceM (session eng included) eng.initialState past = .ok (s, log) ∧
    eng.todayBars included date = some bars ∧
    applyCorporateActions eng.spec date s.book = .ok corporate ∧
    traceM (executeSell eng.spec date bars) corporate.1
      (sellOrders (executableOrders date bars s.pendingOrders)) = .ok (sold, sellLog) ∧
    buyOrders sold.positions (executableOrders date bars s.pendingOrders) =
      done ++ order :: later ∧
    traceM (executeBuy eng.spec date bars (done ++ order :: later).length) sold done =
      .ok (book, before) ∧
    executeBuy eng.spec date bars (done ++ order :: later).length book order = .ok (book', out) ∧
    Entry.audit (.executed date order fill) ∈ out

/-- The name of the next buy of a session is not held yet. -/
theorem next_buy_free {sold book : Book ℚ}
    (hbuys : ((pending.filter fun order => decide (order.side = .buy)).map
      PendingOrder.ticker).Nodup)
    (hsplit : buyOrders sold.positions (executableOrders date bars pending) = done ++ order :: later)
    (h : traceM (executeBuy spec date bars n) sold done = .ok (book, out)) :
    order.ticker ∉ book.positions := by
  have hmem : order ∈ buyOrders sold.positions (executableOrders date bars pending) :=
    hsplit ▸ List.mem_append_right _ (List.mem_cons_self ..)
  have hnodup : ((buyOrders sold.positions (executableOrders date bars pending)).map
    PendingOrder.ticker).Nodup := buyOrders_nodup hbuys
  rw [hsplit, List.map_append, List.map_cons, List.nodup_append] at hnodup
  have hsub := traceM_run (I := fun done _ b =>
      ∀ t, t ∈ b.positions → t ∈ sold.positions ∨ t ∈ done.map PendingOrder.ticker)
    (d := []) (l := []) h (fun _ ht => .inl ht) ?_
  · intro hheld
    rcases hsub _ hheld with hheld | hheld
    · exact (mem_buyOrders hmem).2 hheld
    · exact hnodup.2.2 _ hheld _ (List.mem_cons_self ..) rfl
  · intro first rest log b other b' o _ hsub hst t ht
    rw [List.map_append, List.mem_append]
    rcases (executeBuy_cases hst).positions t ht with rfl | ht
    · exact .inr (.inr (List.mem_singleton.mpr rfl))
    · exact (hsub t ht).imp_right .inl

theorem BuyFilled.withinLimits {eng : BacktestEngine ℚ}
    (h : BuyFilled eng included date order fill bars book book')
    (hmode : eng.spec.backtest.costModel.roundingMode ≠ .halfUp) :
    ∃ bar, bars.get? order.ticker = some bar ∧
      WithinLimits eng.spec bars bar fill.quantity book book' := by
  obtain ⟨past, rest, s, log, corporate, sold, sellLog, done, later, before, out, hsessions, hpast, -,
    -, -, hsplit, hdone, hstep, hmem⟩ := h.reached
  have hdays := sessions_increasing eng included
  rw [hsessions] at hdays
  have hl := run_lifecycle (List.pairwise_append.mp hdays).1 hpast
  obtain ⟨-, -, bar, hfill⟩ := executeBuy_budgeted hstep hmem
  exact ⟨bar, hfill.quoted, hfill.withinLimits hmode (next_buy_free hl.buys_nodup hsplit hdone)⟩

theorem Silent.not_filled {e : Entry ℚ} (h : Silent e) :
    e ≠ .audit (.executed date order fill) := by
  intro heq
  cases h with
  | declined hd => cases hd <;> cases heq
  | _ => cases heq

theorem writeOffs_not_filled {s : StaleBook ℚ}
    (h : writeOffStalePositions spec config today bars s = .ok r) :
    Entry.audit (.executed date order fill) ∉ r.2 := by
  intro hmem
  unfold writeOffStalePositions at h
  split at h
  · cases h
    cases hmem
  · obtain ⟨_, ticker, _, _, _, _, _, -, -, hstep, hmem⟩ := traceM_mem h hmem
    cases writeOffStalePosition_cases hstep with
    | counted => cases hmem
    | writtenOff =>
      rcases List.mem_cons.mp hmem with heq | hmem
      · cases heq
      · cases List.mem_singleton.mp hmem

/-- A fill of a session is in what its pending orders log. -/
theorem session_fill {eng : BacktestEngine ℚ} (h : session eng included s today = .ok (s', out))
    (hmem : Entry.audit (.executed date order fill) ∈ out) :
    ∃ bars corporate executed, eng.todayBars included today = some bars ∧
      applyCorporateActions eng.spec today s.book = .ok corporate ∧
      executePendingOrders eng.spec today bars corporate.1 s.pendingOrders = .ok executed ∧
      Entry.audit (.executed date order fill) ∈ executed.2 := by
  obtain ⟨bars, corporate, executed, forced, generated, hbars, hcorp, hexec, hforced, hgen, -, -, -,
    rfl⟩ := (session_passes h).passes
  refine ⟨bars, corporate, executed, hbars, hcorp, hexec, ?_⟩
  simp only [List.mem_append] at hmem
  rcases hmem with (((hmem | hmem) | hmem) | hmem) | hmem
  · obtain ⟨_, event, _, _, _, _, _, -, -, hstep, hmem⟩ := traceM_mem hcorp hmem
    cases applyCorporateAction_cases hstep with
    | skipped => cases hmem
    | applied => cases List.mem_singleton.mp hmem
  · exact hmem
  · exact absurd hmem (writeOffs_not_filled hforced)
  · exact absurd rfl ((generateSignalsForDate_queues hgen).silent _ hmem).not_filled
  · cases List.mem_singleton.mp hmem

/-- An executed buy of a session's open comes from the loop over its buys. -/
theorem executePendingOrders_buy {book : Book ℚ} (hside : order.side = .buy)
    (h : executePendingOrders spec today bars book pending = .ok executed)
    (hmem : Entry.audit (.executed date order fill) ∈ executed.2) :
    ∃ sold sellLog done later book₁ before book₂ out,
      traceM (executeSell spec today bars) book (sellOrders (executableOrders today bars pending)) =
        .ok (sold, sellLog) ∧
      buyOrders sold.positions (executableOrders today bars pending) = done ++ order :: later ∧
      traceM (executeBuy spec today bars (done ++ order :: later).length) sold done =
        .ok (book₁, before) ∧
      executeBuy spec today bars (done ++ order :: later).length book₁ order = .ok (book₂, out) ∧
      Entry.audit (.executed date order fill) ∈ out ∧ date = today := by
  obtain ⟨⟨sold, sellLog⟩, hsells, h⟩ := bind_ok_iff.mp h
  obtain ⟨⟨bought, buyLog⟩, hbuys, h⟩ := bind_ok_iff.mp h
  cases h
  simp only [List.mem_append] at hmem
  rcases hmem with (hmem | hmem) | hmem
  · exact absurd rfl (rejected_silent _ hmem).not_filled
  · obtain ⟨before, sell, after, _, _, _, _, hsplit, -, hstep, hmem⟩ := traceM_mem hsells hmem
    have hsplit : sellOrders (executableOrders today bars pending) = before ++ sell :: after := hsplit
    have hin : sell ∈ sellOrders (executableOrders today bars pending) :=
      hsplit ▸ List.mem_append_right _ (List.mem_cons_self ..)
    have hsell : sell.side = .sell := of_decide_eq_true (List.mem_filter.mp hin).2
    cases executeSell_cases hstep with
    | declined hd =>
      exact absurd (List.mem_singleton.mp hmem).symm (Silent.declined hd).not_filled
    | filled =>
      rcases List.mem_cons.mp hmem with heq | hmem
      · cases heq
      · cases List.mem_singleton.mp hmem
        exact absurd (hsell.symm.trans hside) nofun
  · obtain ⟨done, buy, later, book₁, before, book₂, out, hsplit, hdone, hstep, hmem⟩ :=
      traceM_mem hbuys hmem
    obtain ⟨rfl, rfl, -⟩ := executeBuy_budgeted hstep hmem
    dsimp only at hsplit hdone hstep
    rw [hsplit] at hdone hstep
    exact ⟨sold, sellLog, done, later, book₁, before, book₂, out, hsells, hsplit, hdone, hstep, hmem,
      rfl⟩

/-- Every executed buy of a run leaves the book within the limits of its strategy. -/
theorem BacktestEngine.limits_hold {eng : BacktestEngine ℚ}
    (hmode : eng.spec.backtest.costModel.roundingMode ≠ .halfUp)
    (h : eng.trace = .ok (selected, final, log))
    (hfill : Entry.audit (.executed date order fill) ∈ log) (hside : order.side = .buy) :
    ∃ bars book book', BuyFilled eng selected.1 date order fill bars book book' ∧
      ∃ bar, bars.get? order.ticker = some bar ∧
        WithinLimits eng.spec bars bar fill.quantity book book' := by
  obtain ⟨days, hlooped, rfl⟩ := trace_looped h
  have hdays : Entry.audit (.executed date order fill) ∈ days := by
    rcases List.mem_append.mp hfill with hmem | hmem
    · exact hmem
    · exact absurd rfl (expireAtEnd_silent _ _ _ hmem).not_filled
  obtain ⟨past, today, rest, s, pastLog, s', out, hsplit, hpast, hsession, hmem⟩ :=
    traceM_mem hlooped.loop hdays
  obtain ⟨bars, corporate, executed, hbars, hcorp, hexec, hmem⟩ := session_fill hsession hmem
  obtain ⟨sold, sellLog, done, later, book, before, book', buyOut, hsells, hbuys, hdone, hstep, hmem,
    rfl⟩ := executePendingOrders_buy hside hexec hmem
  have hreached : BuyFilled eng selected.1 date order fill bars book book' :=
    ⟨past, rest, s, pastLog, corporate, sold, sellLog, done, later, before, buyOut, hsplit, hpast,
      hbars, hcorp, hsells, hbuys, hdone, hstep, hmem⟩
  exact ⟨bars, book, book', hreached, hreached.withinLimits hmode⟩

theorem AuditEvent.fill_of_outlay {e : AuditEvent ℚ} (h : e.buyOutlay ≠ 0) :
    ∃ date order fill, e = .executed date order fill ∧ order.side = .buy := by
  cases e with
  | executed date order fill =>
    refine ⟨date, order, fill, rfl, ?_⟩
    cases hside : order.side with
    | buy => rfl
    | sell => simp [AuditEvent.buyOutlay, hside] at h
  | _ => exact absurd rfl h

theorem sampleEngine_limits : ∃ selected final log date order fill,
    sampleEngine.trace = .ok (selected, final, log) ∧
    Entry.audit (.executed date order fill) ∈ log ∧ order.side = .buy ∧
    ∃ bars book book', BuyFilled sampleEngine selected.1 date order fill bars book book' ∧
      ∃ bar, bars.get? order.ticker = some bar ∧
        WithinLimits sampleEngine.spec bars bar fill.quantity book book' := by
  have htrace : (sampleEngine.trace.map fun r =>
      (audits r.2.2).any fun e => decide (e.buyOutlay ≠ 0)) = .ok true := by
    decide +kernel
  obtain ⟨⟨selected, final, log⟩, hok, hany⟩ := map_ok_iff.mp htrace
  obtain ⟨e, he, houtlay⟩ := List.any_eq_true.mp hany
  obtain ⟨date, order, fill, rfl, hside⟩ := AuditEvent.fill_of_outlay (of_decide_eq_true houtlay)
  have hfill : Entry.audit (.executed date order fill) ∈ log := by
    obtain ⟨entry, hentry, hout⟩ := List.mem_filterMap.mp he
    cases entry with
    | audit event =>
      cases hout
      exact hentry
    | _ => cases hout
  exact ⟨selected, final, log, date, order, fill, hok, hfill, hside,
    BacktestEngine.limits_hold (by decide +kernel) hok hfill hside⟩

end QuantAgent
