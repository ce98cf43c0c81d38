import QuantAgent.Engine.Attribution

namespace QuantAgent
set_option autoImplicit true

/-- A line of the stored positions: what the ledger says is held after a fill. -/
structure LedgerPosition (F : Type) where
  date : Date
  ticker : Ticker
  quantity : F
  fillQuantity : F
  side : String
  reason : String

structure StorageRecords (F : Type) where
  signals : List SignalRecord
  orderAudit : List (OrderAuditRecord F)
  fills : List (OrderAuditRecord F)
  positions : List (LedgerPosition F)
  trades : List (TradeRecord F)
  equity : List (EquityPoint F)

structure StorageLedger (F : Type) extends StorageRecords F where
  sourceEventCount : ℕ
  sourceEventHash : String

section
variable {F : Type} [PyFloat F]

/-- `float(fill.get("filled_quantity") or 0)` -/
def OrderAuditRecord.fillQuantity (fill : OrderAuditRecord F) : F :=
  PyFloat.ofInt (fill.filledQuantity.getD 0)

/-- One fill: the quantity of its ticker and the line it adds. -/
def recordFill (s : Dict Ticker F × List (LedgerPosition F)) (fill : OrderAuditRecord F) :
    Dict Ticker F × List (LedgerPosition F) :=
  let change := if fill.side = "buy" then fill.fillQuantity else -fill.fillQuantity
  let quantity := (s.1.get? fill.ticker).getD 0 + change
  (s.1.insert fill.ticker quantity,
    s.2 ++ [⟨fill.date, fill.ticker, quantity, fill.fillQuantity, fill.side, fill.reason⟩])

/-- `_storage_execution_ledger`, where `digest` hashes the records. -/
def storageExecutionLedger (digest : StorageRecords F → String) (result : BacktestResult F) :
    StorageLedger F :=
  let fills := result.orderAudit.filter fun event => decide (event.status = .executed)
  let positions := (fills.foldl recordFill (Dict.empty, [])).2
  let records : StorageRecords F :=
    { signals := result.signals
      orderAudit := result.orderAudit
      fills
      positions
      trades := result.trades
      equity := result.equityCurve }
  { toStorageRecords := records
    sourceEventCount := records.signals.length + records.orderAudit.length + records.fills.length +
      records.positions.length + records.trades.length + records.equity.length
    sourceEventHash := digest records }

/-- The quantity the ledger records last for a ticker. -/
def StorageLedger.lastQuantity (ledger : StorageLedger F) (ticker : Ticker) : F :=
  ((ledger.positions.filter fun position => decide (position.ticker = ticker)).getLast?.map
    (·.quantity)).getD 0

end

/-- The shares of a ticker as the log moves them, and how many of them no fill moved. -/
structure ShareTally where
  held : ℤ
  unfilled : ℤ

/-- The change a fill makes to the shares of a ticker. -/
def fillChange (ticker : Ticker) (order : PendingOrder F) (fill : Fill F) : ℤ :=
  if order.ticker = ticker then
    match order.side with
    | .buy => fill.quantity
    | .sell => -fill.quantity
  else 0

/-- A change without a fill. -/
def ShareTally.moved (t : ShareTally) (quantity : ℤ) : ShareTally :=
  ⟨quantity, t.unfilled + (quantity - t.held)⟩

def tallyStep (ticker : Ticker) (t : ShareTally) : Entry F → ShareTally
  | .audit (.executed _ order fill) => { t with held := t.held + fillChange ticker order fill }
  | .audit (.corporateAction _ name _ (.split _ newQuantity)) =>
    if name = ticker then t.moved newQuantity else t
  | .audit (.corporateAction _ name _ (.delistRecovery _)) => if name = ticker then t.moved 0 else t
  | .audit (.delistedWriteOff _ writeOff) => if writeOff.ticker = ticker then t.moved 0 else t
  | _ => t

def tally (ticker : Ticker) (log : List (Entry F)) : ShareTally := log.foldl (tallyStep ticker) ⟨0, 0⟩

/-- What splits, delistings and write-offs have made of the shares of a ticker in all. -/
def unfilledChange (ticker : Ticker) (log : List (Entry F)) : ℤ := (tally ticker log).unfilled

def heldQuantity (positions : Dict Ticker (Position F)) (ticker : Ticker) : ℤ :=
  ((positions.get? ticker).map (·.quantity)).getD 0

/-- The net fills of a ticker. -/
def netFills (ticker : Ticker) (log : List (Entry F)) : ℤ :=
  (log.map fun
    | .audit (.executed _ order fill) => fillChange ticker order fill
    | _ => 0).sum

theorem tally_append (ticker : Ticker) (log out : List (Entry F)) :
    tally ticker (log ++ out) = out.foldl (tallyStep ticker) (tally ticker log) := List.foldl_append

/-- What is held is what was filled and what changed without a fill. -/
theorem tally_held (ticker : Ticker) (log : List (Entry F)) :
    (tally ticker log).held = netFills ticker log + unfilledChange ticker log := by
  induction log using List.reverseRecOn with
  | nil => rfl
  | append_singleton log e ih =>
    rw [unfilledChange, tally_append, List.foldl_cons, List.foldl_nil, netFills, List.map_append,
      List.sum_append, ← netFills]
    rw [unfilledChange] at ih
    cases e with
    | audit e =>
      cases e with
      | executed date order fill =>
        simp only [tallyStep, List.map_cons, List.map_nil, List.sum_cons, List.sum_nil]
        omega
      | corporateAction date name verified applied =>
        cases applied with
        | split oldQuantity newQuantity =>
          by_cases hname : name = ticker
          · simp [tallyStep, hname, ShareTally.moved, ih]
            ring
          · simp [tallyStep, hname, ih]
        | cashDividend amount => simp [tallyStep, ih]
        | delistRecovery amount =>
          by_cases hname : name = ticker
          · simp [tallyStep, hname, ShareTally.moved, ih]
          · simp [tallyStep, hname, ih]
      | delistedWriteOff date writeOff =>
        by_cases hname : writeOff.ticker = ticker
        · simp [tallyStep, hname, ShareTally.moved, ih]
        · simp [tallyStep, hname, ih]
      | _ => simp [tallyStep, ih]
    | _ => simp [tallyStep, ih]

/-- The log moves the shares that the book holds. -/
def SharesTallied (log : List (Entry F)) (book : Book F) : Prop :=
  ∀ ticker, (tally ticker log).held = heldQuantity book.positions ticker

theorem Silent.tallyStep {e : Entry F} (h : Silent e) (ticker : Ticker) (t : ShareTally) :
    tallyStep ticker t e = t := by
  cases h with
  | declined h => cases h <;> rfl
  | _ => rfl

theorem SharesTallied.silent {book : Book F} (h : SharesTallied log book)
    (hs : ∀ e ∈ out, Silent e) : SharesTallied (log ++ out) book := by
  intro ticker
  have hsame : ∀ t, out.foldl (QuantAgent.tallyStep ticker) t = t := by
    induction out with
    | nil => exact fun _ => rfl
    | cons e out ih =>
      intro t
      rw [List.foldl_cons, (hs e (List.mem_cons_self ..)).tallyStep,
        ih fun e he => hs e (List.mem_cons_of_mem _ he)]
  rw [tally_append, hsame]
  exact h ticker

theorem heldQuantity_insert (positions : Dict Ticker (Position F)) (name ticker : Ticker)
    (position : Position F) : heldQuantity (positions.insert name position) ticker =
      if ticker = name then position.quantity else heldQuantity positions ticker := by
  rw [heldQuantity, Dict.get?_insert]
  split <;> rfl

theorem heldQuantity_erase (positions : Dict Ticker (Position F)) (name ticker : Ticker) :
    heldQuantity (positions.erase name) ticker =
      if ticker = name then 0 else heldQuantity positions ticker := by
  rw [heldQuantity, Dict.get?_erase]
  split <;> rfl

theorem heldQuantity_of_get? {positions : Dict Ticker (Position F)}
    (h : positions.get? ticker = some position) : heldQuantity positions ticker = position.quantity := by
  rw [heldQuantity, h]
  rfl

/-- A fill moves the shares of its name by its own quantity. -/
theorem SharesTallied.filled {book : Book F} {positions : Dict Ticker (Position F)}
    {order : PendingOrder F} {fill : Fill F} (h : SharesTallied log book)
    (hout : ∀ ticker t, (out.foldl (tallyStep ticker) t).held = t.held + fillChange ticker order fill)
    (hpos : ∀ ticker, heldQuantity positions ticker =
      heldQuantity book.positions ticker + fillChange ticker order fill) :
    SharesTallied (log ++ out) ⟨cash, positions⟩ := by
  intro ticker
  rw [tally_append, hout, hpos, h ticker]

/-- Shares that the log takes to a new count, whatever it was. -/
theorem SharesTallied.reset {book : Book F} {positions : Dict Ticker (Position F)} {name : Ticker}
    {quantity : ℤ} (h : SharesTallied log book)
    (hout : ∀ ticker t, (out.foldl (tallyStep ticker) t).held =
      if ticker = name then quantity else t.held)
    (hpos : ∀ ticker, heldQuantity positions ticker =
      if ticker = name then quantity else heldQuantity book.positions ticker) :
    SharesTallied (log ++ out) ⟨cash, positions⟩ := by
  intro ticker
  rw [tally_append, hout, hpos, h ticker]

section
variable [PyFloat F]

theorem AppliedCases.shares {book : Book F}
    (h : AppliedCases book ticker position kind book' applied) (hs : SharesTallied log book) :
    SharesTallied (log ++ [.audit (.corporateAction date ticker verified applied)]) book' := by
  cases h with
  | split =>
    refine hs.reset (fun name t => ?_) fun name => heldQuantity_insert ..
    simp only [List.foldl_cons, List.foldl_nil, tallyStep, ShareTally.moved, splitPosition]
    by_cases hname : name = ticker
    · rw [if_pos hname.symm, if_pos hname]
    · rw [if_neg fun he => hname he.symm, if_neg hname]
  | dividend =>
    intro name
    rw [tally_append]
    exact hs name
  | delist =>
    refine hs.reset (fun name t => ?_) fun name => heldQuantity_erase ..
    simp only [List.foldl_cons, List.foldl_nil, tallyStep, ShareTally.moved]
    by_cases hname : name = ticker
    · rw [if_pos hname.symm, if_pos hname]
    · rw [if_neg fun he => hname he.symm, if_neg hname]

theorem SellCases.shares {book : Book F} (h : SellCases spec date bars book order r)
    (hside : order.side = .sell) (hs : SharesTallied log book) :
    SharesTallied (log ++ r.2) r.1 := by
  cases h with
  | declined hd => exact hs.silent fun e he => List.mem_singleton.mp he ▸ .declined hd
  | @filled position bar sellPrice quantity costs hpos =>
    refine hs.filled (fun name t => rfl) fun ticker => ?_
    simp only [fillChange, hside]
    by_cases hall : quantity = position.quantity
    · rw [if_pos hall, heldQuantity_erase]
      by_cases hname : ticker = order.ticker
      · rw [if_pos hname, if_pos hname.symm, hname, heldQuantity_of_get? hpos, hall]
        exact (add_neg_cancel _).symm
      · rw [if_neg hname, if_neg fun he => hname he.symm, add_zero]
    · rw [if_neg hall, heldQuantity_insert]
      by_cases hname : ticker = order.ticker
      · rw [if_pos hname, if_pos hname.symm, hname, heldQuantity_of_get? hpos]
        rfl
      · rw [if_neg hname, if_neg fun he => hname he.symm, add_zero]

theorem BuyCases.shares {book : Book F} (h : BuyCases spec date bars n book order r)
    (hside : order.side = .buy) (hfree : order.ticker ∉ book.positions)
    (hs : SharesTallied log book) : SharesTallied (log ++ r.2) r.1 := by
  cases h with
  | declined hd => exact hs.silent fun e he => List.mem_singleton.mp he ▸ .declined hd
  | filled =>
    refine hs.filled (fun name t => rfl) fun ticker => ?_
    simp only [fillChange, hside]
    rw [heldQuantity_insert]
    by_cases hname : ticker = order.ticker
    · have hnone : heldQuantity book.positions order.ticker = 0 := by
        rw [heldQuantity, Dict.get?_eq_none_iff.mpr hfree]
        rfl
      rw [if_pos hname, if_pos hname.symm, hname, hnone, zero_add]
    · rw [if_neg hname, if_neg fun he => hname he.symm, add_zero]

theorem StaleCases.shares {s : StaleBook F} (h : StaleCases spec config date bars s ticker r)
    (hs : SharesTallied log s.book) : SharesTallied (log ++ r.2) r.1.book := by
  cases h with
  | counted =>
    rw [List.append_nil]
    exact hs
  | writtenOff =>
    refine hs.reset (fun name t => ?_) fun name => heldQuantity_erase ..
    simp only [writeOff, List.foldl_cons, List.foldl_nil, tallyStep, ShareTally.moved]
    by_cases hname : name = ticker
    · rw [if_pos hname.symm, if_pos hname]
    · rw [if_neg fun he => hname he.symm, if_neg hname]

theorem sharesTallied_invariant (spec : StrategySpec F) (config : BacktestRunConfig F) (date : Date)
    (bars : Bars F) : BookInvariant spec config date bars True SharesTallied where
  action h hcases _ := by
    cases hcases with
    | skipped =>
      rw [List.append_nil]
      exact h
    | applied hdate hpos happ => exact (applyToPosition_cases happ).shares h
  sell h hside hcases := hcases.shares hside h
  buy h hside hfree hcases := hcases.shares hside hfree h
  stale h hcases := hcases.shares h
  silent h hs := h.silent hs

omit [PyFloat F] in
/-- The close of a session prices the positions and keeps their shares. -/
theorem heldQuantity_refresh (bars : Bars F) (positions : Dict Ticker (Position F))
    (ticker : Ticker) : heldQuantity (refreshLastPrices bars positions) ticker =
      heldQuantity positions ticker := by
  rw [heldQuantity, refreshLastPrices, Dict.get?_mapVal, heldQuantity, Option.map_map]
  apply congrArg (Option.getD · 0)
  apply congrArg (Option.map · _)
  funext position
  cases bars.get? ticker <;> rfl

theorem run_shares {eng : BacktestEngine F} (h : eng.trace = .ok (selected, s, log)) :
    SharesTallied log s.book := by
  obtain ⟨days, hlooped, rfl⟩ := trace_looped h
  apply SharesTallied.silent _ (expireAtEnd_silent _ s)
  refine BookInvariant.run (fun date bars => sharesTallied_invariant eng.spec eng.config date bars)
    (fun {log book} bars hs ticker => ?_) (fun _ => rfl) (sessions_increasing eng selected.1)
    (fun _ _ _ _ _ _ _ _ _ _ => trivial) hlooped.loop
  rw [heldQuantity_refresh]
  exact hs ticker

end

/-- What a fill of the ledger adds to the shares of a ticker. -/
def OrderAuditRecord.change (ticker : Ticker) (fill : OrderAuditRecord ℚ) : ℚ :=
  if fill.ticker = ticker then
    if fill.side = "buy" then fill.fillQuantity else -fill.fillQuantity
  else 0

/-- The last line of a ticker is the sum of its fills. -/
theorem recordFills (fills : List (OrderAuditRecord ℚ)) (ticker : Ticker) :
    let s := fills.foldl recordFill (Dict.empty, [])
    s.1.get? ticker = (s.2.filter fun position => decide (position.ticker = ticker)).getLast?.map
        (·.quantity) ∧
      (s.1.get? ticker).getD 0 = (fills.map (OrderAuditRecord.change ticker)).sum := by
  induction fills using List.reverseRecOn with
  | nil => exact ⟨rfl, rfl⟩
  | append_singleton fills fill ih =>
    obtain ⟨hlast, hsum⟩ := ih
    simp only [List.foldl_append, List.foldl_cons, List.foldl_nil, List.map_append, List.sum_append,
      List.map_cons, List.map_nil, List.sum_cons, List.sum_nil, add_zero]
    rw [← hsum, OrderAuditRecord.change, recordFill]
    by_cases hname : fill.ticker = ticker
    · subst hname
      simp
    · simp [hname, hlast, Dict.get?_insert, Ne.symm hname]

theorem lastQuantity_eq (digest : StorageRecords ℚ → String) (result : BacktestResult ℚ)
    (ticker : Ticker) : (storageExecutionLedger digest result).lastQuantity ticker =
      ((storageExecutionLedger digest result).fills.map (OrderAuditRecord.change ticker)).sum := by
  obtain ⟨hlast, hsum⟩ := recordFills (storageExecutionLedger digest result).fills ticker
  rw [← hsum, hlast]
  rfl

theorem Fill.change_record (ticker : Ticker) (date : Date) (order : PendingOrder ℚ)
    (fill : Fill ℚ) : (fill.record date order).change ticker = (fillChange ticker order fill : ℚ) := by
  have hquantity : (fill.record date order).fillQuantity = (fill.quantity : ℚ) := rfl
  have hticker : (fill.record date order).ticker = order.ticker := rfl
  have hside : (fill.record date order).side = order.side.value := rfl
  rw [OrderAuditRecord.change, fillChange, hquantity, hticker, hside]
  split
  · cases order.side with
    | buy => rfl
    | sell => exact (Int.cast_neg _).symm
  · exact Int.cast_zero.symm

/-- Only executed orders are fills, and each moves the shares of its ticker. -/
theorem change_executed (ticker : Ticker) (log : List (Entry ℚ)) :
    ((((log.filterMap Entry.audit?).map AuditEvent.record).filter fun event =>
      decide (event.status = .executed)).map (OrderAuditRecord.change ticker)).sum =
      (netFills ticker log : ℚ) := by
  induction log with
  | nil => rfl
  | cons e log ih =>
    rw [netFills, List.map_cons, List.sum_cons, ← netFills, Int.cast_add, ← ih]
    cases e with
    | audit e =>
      rw [List.filterMap_cons_some (rfl : Entry.audit? (.audit e) = some e), List.map_cons]
      by_cases hexec : e.record.status = .executed
      · rw [List.filter_cons, if_pos (decide_eq_true hexec), List.map_cons, List.sum_cons]
        cases e with
        | executed date order fill => exact congrArg (· + _) (fill.change_record ticker date order)
        | corporateAction date name verified applied => cases applied <;> cases hexec
        | _ => cases hexec
      · rw [List.filter_cons, if_neg fun hd => hexec (of_decide_eq_true hd)]
        cases e with
        | executed date order fill => exact absurd rfl hexec
        | _ => exact (zero_add _).symm
    | _ => exact (zero_add _).symm

/-- The ledger misses what the engine changed without a fill. -/
theorem lastQuantity_run {eng : BacktestEngine ℚ} (digest : StorageRecords ℚ → String)
    (h : eng.run = .ok result) : ∃ selected s log, eng.trace = .ok (selected, s, log) ∧
      ∀ ticker, (storageExecutionLedger digest result).lastQuantity ticker =
        heldQuantity s.positions ticker - unfilledChange ticker log := by
  obtain ⟨selected, s, log, htrace, -, -, -, haudit⟩ := run_trace h
  refine ⟨selected, s, log, htrace, fun ticker => ?_⟩
  have hheld : netFills ticker log + unfilledChange ticker log = heldQuantity s.positions ticker :=
    (tally_held ticker log).symm.trans (run_shares htrace ticker)
  rw [lastQuantity_eq, ← hheld, Int.cast_add, add_sub_cancel_right, ← change_executed, ← haudit]
  rfl

/-- The ledger ends with what the engine holds exactly when the splits, delistings and write-offs of
every ticker cancel out. -/
theorem BacktestEngine.executionLedger_iff {eng : BacktestEngine ℚ}
    (digest : StorageRecords ℚ → String) (h : eng.run = .ok result) :
    ∃ selected s log, eng.trace = .ok (selected, s, log) ∧
      ((∀ ticker, (storageExecutionLedger digest result).lastQuantity ticker =
        heldQuantity s.positions ticker) ↔ ∀ ticker, unfilledChange ticker log = 0) := by
  obtain ⟨selected, s, log, htrace, hlast⟩ := lastQuantity_run digest h
  refine ⟨selected, s, log, htrace, forall_congr' fun ticker => ?_⟩
  rw [hlast, sub_eq_self, Int.cast_eq_zero]

theorem sampleEngine_ledgerQuantities : ∃ result, sampleEngine.run = .ok result ∧
    ∃ selected s log, sampleEngine.trace = .ok (selected, s, log) ∧
      ((∀ ticker, (storageExecutionLedger (fun _ => "") result).lastQuantity ticker =
        heldQuantity s.positions ticker) ↔ ∀ ticker, unfilledChange ticker log = 0) := by
  obtain ⟨result, hrun⟩ := exists_ok (show sampleEngine.run.isOk = true by decide +kernel)
  exact ⟨result, hrun, BacktestEngine.executionLedger_iff (fun _ => "") hrun⟩

/-- The delisting leaves the ledger with the shares of the buy. -/
theorem delistingEngine_ledgerQuantities : ∃ result, delistingEngine.run = .ok result ∧
    ∃ selected s log, delistingEngine.trace = .ok (selected, s, log) ∧
      ¬∀ ticker, (storageExecutionLedger (fun _ => "") result).lastQuantity ticker =
        heldQuantity s.positions ticker := by
  have hledger : (delistingEngine.run.map fun result =>
      (storageExecutionLedger (fun _ => "") result).lastQuantity "005930") = .ok 90 := by
    decide +kernel
  have hheld : (delistingEngine.trace.map fun r => heldQuantity r.2.1.positions "005930") = .ok 0 := by
    decide +kernel
  obtain ⟨result, hrun, hlast⟩ := map_ok_iff.mp hledger
  obtain ⟨⟨selected, s, log⟩, htrace, hnone⟩ := map_ok_iff.mp hheld
  refine ⟨result, hrun, selected, s, log, htrace, fun hagree => ?_⟩
  have hlast : (90 : ℚ) = heldQuantity s.positions "005930" := hlast.symm.trans (hagree "005930")
  rw [hnone] at hlast
  norm_num at hlast

end QuantAgent
