import QuantAgent.Engine.Books

namespace QuantAgent
set_option autoImplicit true

/-- What an executed buy takes from cash. -/
def AuditEvent.buyOutlay : AuditEvent ℚ → ℚ
  | .executed _ order fill =>
    match order.side with
    | .buy => fill.quantity * fill.price + fill.commissionCost
    | .sell => 0
  | _ => 0

/-- What an executed sell brings to cash. -/
def AuditEvent.sellProceeds : AuditEvent ℚ → ℚ
  | .executed _ order fill =>
    match order.side with
    | .buy => 0
    | .sell => fill.quantity * fill.price - fill.commissionCost - fill.taxCost
  | _ => 0

def AuditEvent.dividend : AuditEvent ℚ → ℚ
  | .corporateAction _ _ _ (.cashDividend amount) => amount
  | _ => 0

def AuditEvent.delistRecovery : AuditEvent ℚ → ℚ
  | .corporateAction _ _ _ (.delistRecovery amount) => amount
  | _ => 0

def AuditEvent.writeOffProceeds : AuditEvent ℚ → ℚ
  | .delistedWriteOff _ w => w.quantity * w.exitPrice - w.exitCost
  | _ => 0

/-- The sum of an amount over the audit of a log. -/
def auditTotal (f : AuditEvent ℚ → ℚ) (log : List (Entry ℚ)) : ℚ := ((audits log).map f).sum

/-- What one audit event moves. -/
def AuditEvent.cashFlow (e : AuditEvent ℚ) : ℚ :=
  -e.buyOutlay + e.sellProceeds + e.dividend + e.delistRecovery + e.writeOffProceeds

theorem auditTotal_append (f : AuditEvent ℚ → ℚ) (log out : List (Entry ℚ)) :
    auditTotal f (log ++ out) = auditTotal f log + auditTotal f out := by
  simp [auditTotal]

theorem auditTotal_audit (f : AuditEvent ℚ → ℚ) (e : AuditEvent ℚ) :
    auditTotal f [.audit e] = f e := by
  simp [auditTotal, audits, Entry.audit?]

theorem auditTotal_trade_audit (f : AuditEvent ℚ → ℚ) (r : TradeRecord ℚ) (e : AuditEvent ℚ) :
    auditTotal f [.trade r, .audit e] = f e := auditTotal_audit f e

theorem auditTotal_cashFlow (log : List (Entry ℚ)) :
    auditTotal AuditEvent.cashFlow log =
      -auditTotal AuditEvent.buyOutlay log + auditTotal AuditEvent.sellProceeds log +
        auditTotal AuditEvent.dividend log + auditTotal AuditEvent.delistRecovery log +
        auditTotal AuditEvent.writeOffProceeds log := by
  unfold auditTotal
  induction audits log with
  | nil => simp
  | cons e events ih =>
    simp only [List.map_cons, List.sum_cons, ih, AuditEvent.cashFlow]
    ring

@[simp] theorem cashFlow_executed (order : PendingOrder ℚ) (fill : Fill ℚ) :
    (AuditEvent.executed date order fill).cashFlow =
      match order.side with
      | .buy => -(fill.quantity * fill.price + fill.commissionCost)
      | .sell => fill.quantity * fill.price - fill.commissionCost - fill.taxCost := by
  cases h : order.side <;>
    simp [AuditEvent.cashFlow, AuditEvent.buyOutlay, AuditEvent.sellProceeds, AuditEvent.dividend,
      AuditEvent.delistRecovery, AuditEvent.writeOffProceeds, h]

@[simp] theorem cashFlow_delistedWriteOff (w : WriteOff ℚ) :
    (AuditEvent.delistedWriteOff date w).cashFlow = w.quantity * w.exitPrice - w.exitCost := by
  simp [AuditEvent.cashFlow, AuditEvent.buyOutlay, AuditEvent.sellProceeds, AuditEvent.dividend,
    AuditEvent.delistRecovery, AuditEvent.writeOffProceeds]

@[simp] theorem cashFlow_submitted (order : PendingOrder ℚ) :
    (AuditEvent.submitted order detail).cashFlow = 0 := by
  simp [AuditEvent.cashFlow, AuditEvent.buyOutlay, AuditEvent.sellProceeds, AuditEvent.dividend,
    AuditEvent.delistRecovery, AuditEvent.writeOffProceeds]

@[simp] theorem cashFlow_expiredNoNextSession (order : PendingOrder ℚ) :
    (AuditEvent.expiredNoNextSession date order).cashFlow = 0 := by
  simp [AuditEvent.cashFlow, AuditEvent.buyOutlay, AuditEvent.sellProceeds, AuditEvent.dividend,
    AuditEvent.delistRecovery, AuditEvent.writeOffProceeds]

theorem Declined.cashFlow (h : Declined date order e) : e.cashFlow = 0 := by
  cases h <;>
    simp [AuditEvent.cashFlow, AuditEvent.buyOutlay, AuditEvent.sellProceeds, AuditEvent.dividend,
      AuditEvent.delistRecovery, AuditEvent.writeOffProceeds]

theorem silent_cashFlow (h : ∀ e ∈ out, Silent e) : auditTotal AuditEvent.cashFlow out = 0 := by
  induction out with
  | nil => rfl
  | cons e out ih =>
    have hrest := ih fun e he => h e (List.mem_cons_of_mem _ he)
    rw [← List.singleton_append, auditTotal_append, hrest, add_zero]
    cases h e (List.mem_cons_self ..) with
    | signal => rfl
    | equity => rfl
    | submitted => rw [auditTotal_audit, cashFlow_submitted]
    | declined hd =>
      rw [auditTotal_audit]
      exact hd.cashFlow
    | expiredAtEnd => rw [auditTotal_audit, cashFlow_expiredNoNextSession]

/-- Cash is the initial capital plus what the audit moved. -/
def CashLedger (initialCapital : ℚ) (log : List (Entry ℚ)) (book : Book ℚ) : Prop :=
  book.cash = initialCapital + auditTotal AuditEvent.cashFlow log

theorem cashLedger_step (h : CashLedger initialCapital log book)
    (hstep : (book' : Book ℚ).cash = book.cash + auditTotal AuditEvent.cashFlow out) :
    CashLedger initialCapital (log ++ out) book' := by
  unfold CashLedger at h ⊢
  rw [auditTotal_append, hstep, h, add_assoc]

theorem settleSell_cash (hside : order.side = .sell) :
    (settleSell (F := ℚ) costModel date price position book order quantity costs).1.cash =
      book.cash + auditTotal AuditEvent.cashFlow
        (settleSell costModel date price position book order quantity costs).2 := by
  simp only [settleSell, auditTotal_trade_audit, cashFlow_executed, hside, rat_ofInt]
  ring

theorem settleBuy_cash (hside : order.side = .buy) :
    (settleBuy (F := ℚ) costModel date bar price book order requested quantity costs).1.cash =
      book.cash + auditTotal AuditEvent.cashFlow
        (settleBuy costModel date bar price book order requested quantity costs).2 := by
  simp only [settleBuy, auditTotal_audit, cashFlow_executed, hside, rat_ofInt]
  ring

theorem writeOff_cash :
    (writeOff (F := ℚ) costModel config date s ticker position).1.book.cash =
      s.book.cash + auditTotal AuditEvent.cashFlow
        (writeOff costModel config date s ticker position).2 := by
  simp only [writeOff, auditTotal_trade_audit, cashFlow_delistedWriteOff, rat_ofInt]

theorem AppliedCases.cash {book : Book ℚ}
    (h : AppliedCases book ticker position kind book' applied) :
    book'.cash = book.cash + auditTotal AuditEvent.cashFlow
      [.audit (.corporateAction date ticker verified applied)] := by
  rw [auditTotal_audit]
  cases h <;> simp [AuditEvent.cashFlow, AuditEvent.buyOutlay, AuditEvent.sellProceeds,
    AuditEvent.dividend, AuditEvent.delistRecovery, AuditEvent.writeOffProceeds]

theorem cashLedger_invariant (spec : StrategySpec ℚ) (config : BacktestRunConfig ℚ) (date : Date)
    (bars : Bars ℚ) : BookInvariant spec config date bars True (CashLedger initialCapital) where
  action h hcases _ := by
    apply cashLedger_step h
    cases hcases with
    | skipped => exact (add_zero _).symm
    | applied hdate hpos happ => exact (applyToPosition_cases happ).cash
  sell h hside hcases := by
    apply cashLedger_step h
    cases hcases with
    | declined hd => rw [auditTotal_audit, hd.cashFlow, add_zero]
    | filled => exact settleSell_cash hside
  buy h hside _ hcases := by
    apply cashLedger_step h
    cases hcases with
    | declined hd => rw [auditTotal_audit, hd.cashFlow, add_zero]
    | filled => exact settleBuy_cash hside
  stale h hcases := by
    apply cashLedger_step h
    cases hcases with
    | counted => exact (add_zero _).symm
    | writtenOff => exact writeOff_cash
  silent h hs := by
    apply cashLedger_step h
    rw [silent_cashFlow hs, add_zero]

theorem run_cashLedger {eng : BacktestEngine ℚ} (hdays : days.Pairwise (· < ·))
    (h : traceM (session eng included) eng.initialState days = .ok (s, log)) :
    s.cash = eng.config.initialCapital + auditTotal AuditEvent.cashFlow log := by
  have hbase : CashLedger eng.config.initialCapital [] eng.initialState.book := (add_zero _).symm
  exact BookInvariant.run (fun date bars => cashLedger_invariant eng.spec eng.config date bars)
    (fun _ h => h) hbase hdays (fun _ _ _ _ _ _ _ _ _ _ => trivial) h

/-- The latest close of a ticker over the days, if it had a bar on any. -/
def lastKnownPrice (eng : BacktestEngine ℚ) (included : List Ticker) (days : List Date)
    (ticker : Ticker) : Option ℚ :=
  days.reverse.findSome? fun date =>
    ((eng.todayBars included date).bind (·.get? ticker)).map OhlcvBar.close

/-- The close of a bar of the day, else the price known before it. -/
def closeOr (bars : Bars ℚ) (known : Ticker → Option ℚ) (ticker : Ticker) : Option ℚ :=
  ((bars.get? ticker).map OhlcvBar.close).or (known ticker)

theorem lastKnownPrice_snoc (h : eng.todayBars included date = some bars) (past : List Date) :
    lastKnownPrice eng included (past ++ [date]) =
      closeOr bars (lastKnownPrice eng included past) := by
  funext ticker
  unfold lastKnownPrice closeOr
  rw [List.reverse_append, List.reverse_singleton, List.singleton_append, List.findSome?_cons, h,
    Option.bind_some]
  cases bars.get? ticker <;> rfl

/-- Every position carries its last known price. -/
def PricesKnown (known : Ticker → Option ℚ) (positions : Dict Ticker (Position ℚ)) : Prop :=
  positions.All fun t position => known t = some position.lastPrice

/-- The same while a session goes on, when a fill of the day already carries its close. -/
def PricesToday (bars : Bars ℚ) (known : Ticker → Option ℚ) (book : Book ℚ) : Prop :=
  book.positions.All fun t position =>
    known t = some position.lastPrice ∨ ∃ bar, bars.get? t = some bar ∧ position.lastPrice = bar.close

theorem PricesToday.refresh (h : PricesToday bars known book) :
    PricesKnown (closeOr bars known) (refreshLastPrices bars book.positions) := by
  refine Dict.All.mapVal h fun t position hlast => ?_
  unfold closeOr
  cases hbar : bars.get? t with
  | some bar => rfl
  | none =>
    rcases hlast with hknown | ⟨bar, hb, -⟩
    · exact hknown
    · rw [hbar] at hb
      cases hb

theorem AppliedCases.pricesToday {book : Book ℚ}
    (h : AppliedCases book ticker position kind book' applied)
    (hpos : book.positions.get? ticker = some position) (hp : PricesToday bars known book) :
    PricesToday bars known book' := by
  cases h with
  | split =>
    have hlast := hp _ _ hpos
    exact Dict.All.insert hp hlast
  | dividend => exact hp
  | delist => exact Dict.All.erase hp _

theorem pricesToday_invariant (spec : StrategySpec ℚ) (config : BacktestRunConfig ℚ) (date : Date)
    (bars : Bars ℚ) (known : Ticker → Option ℚ) :
    BookInvariant spec config date bars True fun _ => PricesToday bars known where
  action h hcases _ := by
    cases hcases with
    | skipped => exact h
    | applied hdate hpos happ => exact (applyToPosition_cases happ).pricesToday hpos h
  sell h hside hcases := by
    cases hcases with
    | declined => exact h
    | filled hpos =>
      dsimp only [settleSell]
      split
      · exact Dict.All.erase h _
      · have hlast := h _ _ hpos
        exact Dict.All.insert h hlast
  buy h hside _ hcases := by
    cases hcases with
    | declined => exact h
    | filled hbar => exact Dict.All.insert h (.inr ⟨_, hbar, rfl⟩)
  stale h hcases := by
    cases hcases with
    | counted => exact h
    | writtenOff => exact Dict.All.erase h _
  silent h _ := h

theorem run_pricesKnown {eng : BacktestEngine ℚ} (hdays : days.Pairwise (· < ·))
    (h : traceM (session eng included) eng.initialState days = .ok (s, log)) :
    PricesKnown (lastKnownPrice eng included days) s.positions := by
  have hrun := traceM_run (I := fun done l t =>
    PricesKnown (lastKnownPrice eng included done) t.positions ∧
      traceM (session eng included) eng.initialState done = .ok (t, l)) (d := []) (l := [])
    h ⟨nofun, rfl⟩ ?_
  · exact hrun.1
  · intro done rest l t date t' o hsplit ⟨hknown, hprefix⟩ hst
    have hsplit : days = done ++ date :: rest := hsplit
    have hdone : done.Pairwise (· < ·) := (List.pairwise_append.mp (hsplit ▸ hdays)).1
    obtain ⟨bars, -, -, -, -, hbars, -⟩ := (session_passes hst).passes
    have hI : ∀ bars', eng.todayBars included date = some bars' →
        BookInvariant eng.spec eng.config date bars' True fun _ =>
          PricesToday bars (lastKnownPrice eng included done) := by
      intro bars' hbars'
      cases hbars.symm.trans hbars'
      exact pricesToday_invariant _ _ _ _ _
    have hstart : PricesToday bars (lastKnownPrice eng included done) t.book :=
      fun t p hp => .inl (hknown t p hp)
    obtain ⟨bars', book, before, hbars', hbook, hnext, -⟩ := BookInvariant.session hI
      (run_lifecycle hdone hprefix) hstart hst fun _ _ _ => trivial
    cases hbars.symm.trans hbars'
    refine ⟨?_, traceM_snoc_ok hprefix hst⟩
    have hpos : t'.positions = refreshLastPrices bars book.positions := congrArg Book.positions hnext
    rw [lastKnownPrice_snoc hbars, hpos]
    exact hbook.refresh

theorem markedValue_eq (bars : Bars ℚ) (price : OhlcvBar ℚ → ℚ)
    (positions : Dict Ticker (Position ℚ)) :
    markedValue bars price positions = positions.sum fun t position =>
      position.quantity * (bars.get? t).elim position.lastPrice price :=
  rat_pySum _

/-- The marks of a session's equity are the latest closes. -/
theorem PricesKnown.markedValue (h : PricesKnown (closeOr bars known) positions) :
    markedValue bars OhlcvBar.close positions =
      positions.sum fun t position => position.quantity * ((closeOr bars known t).getD 0) := by
  rw [markedValue_eq]
  apply Dict.sum_congr
  intro t position hpos
  have hlast : closeOr bars known t = some position.lastPrice := h t position hpos
  rw [hlast, Option.getD_some]
  congr 1
  unfold closeOr at hlast
  cases hbar : bars.get? t with
  | none => rfl
  | some bar =>
    rw [hbar] at hlast
    exact Option.some.inj hlast

/-- What the ledger says of the close of one session. -/
structure Reconciled (eng : BacktestEngine ℚ) (included : List Ticker) (past : List Date)
    (date : Date) (s : EngineState ℚ) (log : List (Entry ℚ)) (point : EquityPoint ℚ) : Prop where
  dated : point.date = date
  pointCash : point.cash = s.cash
  cash : s.cash = eng.config.initialCapital - auditTotal AuditEvent.buyOutlay log +
    auditTotal AuditEvent.sellProceeds log + auditTotal AuditEvent.dividend log +
    auditTotal AuditEvent.delistRecovery log + auditTotal AuditEvent.writeOffProceeds log
  equity : ∃ bars, ∃ price : Ticker → ℚ, eng.todayBars included date = some bars ∧
    (∀ t ∈ s.positions, closeOr bars (lastKnownPrice eng included past) t = some (price t)) ∧
    point.totalEquity = s.cash + s.positions.sum fun t position => position.quantity * price t

theorem session_reconciled {eng : BacktestEngine ℚ} (hdays : (past ++ [date]).Pairwise (· < ·))
    (hpast : traceM (session eng included) eng.initialState past = .ok (t, pastLog))
    (hday : session eng included t date = .ok (s, dayLog)) :
    ∃ before point, dayLog = before ++ [.equity point] ∧
      Reconciled eng included past date s (pastLog ++ before) point := by
  have hrun := traceM_snoc_ok hpast hday
  have hcash := run_cashLedger hdays hrun
  have hknown := run_pricesKnown hdays hrun
  obtain ⟨bars, corporate, executed, forced, generated, hbars, -, -, -, -, -, -, -, rfl⟩ :=
    (session_passes hday).passes
  rw [lastKnownPrice_snoc hbars] at hknown
  refine ⟨_, _, rfl, rfl, rfl, ?_, ?_⟩
  · have hequity : ∀ point, auditTotal AuditEvent.cashFlow [Entry.equity point] = 0 := fun _ => rfl
    rw [hcash, ← List.append_assoc, auditTotal_append, hequity, auditTotal_cashFlow]
    ring
  · refine ⟨bars, fun t => (closeOr bars (lastKnownPrice eng included past) t).getD 0, hbars, ?_, ?_⟩
    · intro t ht
      obtain ⟨position, hpos⟩ := Dict.mem_iff_get?.mp ht
      have hlast := hknown t position hpos
      simp only [hlast, Option.getD_some]
    · exact congrArg (s.cash + ·) hknown.markedValue

/-- At every session cash and equity are what the audit and the latest closes say. -/
theorem BacktestEngine.ledger_conserved {eng : BacktestEngine ℚ}
    (h : eng.trace = .ok (selected, final, log))
    (hsplit : eng.sessions selected.1 = past ++ date :: rest) :
    ∃ s before point after,
      traceM (session eng selected.1) eng.initialState (past ++ [date]) =
        .ok (s, before ++ [.equity point]) ∧
      log = before ++ .equity point :: after ∧
      Reconciled eng selected.1 past date s before point := by
  obtain ⟨t, pastLog, s, dayLog, after, hpast, hday, rfl⟩ := trace_at h hsplit
  have hdays : (past ++ [date]).Pairwise (· < ·) := by
    have hall := sessions_increasing eng selected.1
    rw [hsplit, List.append_cons] at hall
    exact (List.pairwise_append.mp hall).1
  obtain ⟨before, point, rfl, hrec⟩ := session_reconciled hdays hpast hday
  refine ⟨s, pastLog ++ before, point, after, ?_, ?_, hrec⟩
  · rw [List.append_assoc]
    exact traceM_snoc_ok hpast hday
  · simp only [List.append_assoc, List.singleton_append]

theorem sampleEngine_ledger : ∃ selected final log past date rest,
    sampleEngine.trace = .ok (selected, final, log) ∧
    sampleEngine.sessions selected.1 = past ++ date :: rest ∧ past.length = 2 ∧
    ∃ s before point, Reconciled sampleEngine selected.1 past date s before point := by
  have htrace : (sampleEngine.trace.map fun r => sampleEngine.sessions r.1.1) = .ok [1, 2, 3, 4] := by
    decide +kernel
  obtain ⟨⟨selected, final, log⟩, hok, hsessions⟩ := map_ok_iff.mp htrace
  have hsplit : sampleEngine.sessions selected.1 = [1, 2] ++ 3 :: [4] := hsessions
  obtain ⟨s, before, point, -, -, -, hrec⟩ := BacktestEngine.ledger_conserved hok hsplit
  exact ⟨selected, final, log, [1, 2], 3, [4], hok, hsplit, rfl, s, before, point, hrec⟩

end QuantAgent
