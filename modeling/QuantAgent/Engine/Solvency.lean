import QuantAgent.Engine.Attribution

namespace QuantAgent
set_option autoImplicit true

/-- The fees of a sale stay within what the sale brings. -/
def AuditEvent.FeesCovered : AuditEvent ℚ → Prop
  | .executed _ order fill =>
    order.side = .sell → fill.commissionCost + fill.taxCost ≤ fill.quantity * fill.price
  | .delistedWriteOff _ w => w.exitCost ≤ w.quantity * w.exitPrice
  | _ => True

def FeesCovered (log : List (Entry ℚ)) : Prop := ∀ e ∈ audits log, e.FeesCovered

/-- The cash after every line of the log is not negative. -/
def NeverBorrowed (initialCapital : ℚ) (log : List (Entry ℚ)) : Prop :=
  ∀ done rest, log = done ++ rest → 0 ≤ initialCapital + auditTotal AuditEvent.cashFlow done

theorem feesCovered_append :
    FeesCovered (log ++ out) ↔ FeesCovered log ∧ FeesCovered out := by
  simp only [FeesCovered, audits_append, List.forall_mem_append]

theorem roundHalfUp_zero : roundHalfUp 0 = 0 := by decide +kernel

theorem floor_quantize_le (n : ℕ) (q : ℚ) : (⌊q * 10 ^ n⌋ : ℚ) / 10 ^ n ≤ q := by
  rw [div_le_iff₀ (by positivity)]
  exact Int.floor_le _

/-- Rounding a commission raises it only under half-up rounding of a positive rate. -/
theorem costDecimal_le {costModel : CostModel ℚ} (notional : ℚ)
    (hmode : costModel.roundingMode ≠ .halfUp ∨ costModel.commissionPct.val = 0)
    (h : costDecimal costModel (notional * costModel.commissionPct.val) = .ok cost) :
    cost ≤ notional * costModel.commissionPct.val := by
  unfold costDecimal at h
  split at h
  · cases h
    exact le_refl _
  · rw [rat_quantizeFloor] at h
    cases h
    exact floor_quantize_le _ _
  · rename_i hhalf
    have hzero := hmode.resolve_left (not_not.mpr hhalf)
    rw [rat_quantizeHalfUp, hzero, mul_zero, zero_mul, roundHalfUp_zero] at h
    cases h
    rw [hzero, mul_zero, Int.cast_zero, zero_div]

/-- What a buy spends is covered by the cash it was sized with. -/
theorem buy_affordable {unitCash cash : ℚ} (hunit : ¬unitCash ≤ 0) {quantity cashQuantity : ℤ}
    (hcash : PyFloat.floorDiv cash unitCash = .ok cashQuantity) (hle : quantity ≤ max 0 cashQuantity)
    (hpos : 0 < quantity) : quantity * unitCash ≤ cash := by
  have hunit := not_le.mp hunit
  rw [rat_floorDiv, if_neg hunit.ne'] at hcash
  cases hcash
  have hfloor : quantity ≤ ⌊cash / unitCash⌋ := by
    rcases le_max_iff.mp hle with h | h
    · exact absurd hpos (not_lt.mpr h)
    · exact h
  have hdiv : (quantity : ℚ) ≤ cash / unitCash := Int.le_floor.mp hfloor
  exact (le_div_iff₀ hunit).mp hdiv

/-- The state of the cash while fees are covered. -/
structure Solvent (initialCapital : ℚ) (log : List (Entry ℚ)) (book : Book ℚ) : Prop where
  ledger : CashLedger initialCapital log book
  held : book.positions.All fun _ position => 0 < position.quantity
  cash : 0 ≤ book.cash
  never : NeverBorrowed initialCapital log

theorem NeverBorrowed.snoc (h : NeverBorrowed initialCapital log)
    (hlast : 0 ≤ initialCapital + auditTotal AuditEvent.cashFlow (log ++ [e])) :
    NeverBorrowed initialCapital (log ++ [e]) := by
  intro done rest hsplit
  rcases List.eq_nil_or_concat rest with rfl | ⟨rest', last, rfl⟩
  · rw [List.append_nil] at hsplit
    exact hsplit ▸ hlast
  · rw [List.concat_eq_append, ← List.append_assoc] at hsplit
    exact h done rest' (List.append_inj_left' hsplit rfl)

theorem Solvent.quiet (h : Solvent initialCapital log book)
    (hout : ∀ e ∈ out, auditTotal AuditEvent.cashFlow [e] = 0) :
    Solvent initialCapital (log ++ out) book := by
  induction out generalizing log with
  | nil =>
    rw [List.append_nil]
    exact h
  | cons e out ih =>
    have hzero := hout e (List.mem_cons_self ..)
    rw [List.append_cons]
    apply ih
    · have hledger : CashLedger initialCapital (log ++ [e]) book := by
        apply cashLedger_step h.ledger
        rw [hzero, add_zero]
      exact ⟨hledger, h.held, h.cash, h.never.snoc (hledger ▸ h.cash)⟩
    · exact fun e he => hout e (List.mem_cons_of_mem _ he)

/-- A line that moves cash keeps the book solvent when the new cash is not negative. -/
theorem Solvent.move {book book' : Book ℚ} (h : Solvent initialCapital log book)
    (hheld : book'.positions.All fun _ position => 0 < position.quantity)
    (hcash : book'.cash = book.cash + auditTotal AuditEvent.cashFlow [e]) (hpos : 0 ≤ book'.cash) :
    Solvent initialCapital (log ++ [e]) book' := by
  have hledger := cashLedger_step h.ledger hcash
  exact ⟨hledger, hheld, hpos, h.never.snoc (hledger ▸ hpos)⟩

theorem Silent.cashFlow_zero {e : Entry ℚ} (h : Silent e) : auditTotal AuditEvent.cashFlow [e] = 0 :=
  silent_cashFlow fun _ he => List.mem_singleton.mp he ▸ h

theorem Solvent.silent (h : Solvent initialCapital log book) (hs : ∀ e ∈ out, Silent e) :
    Solvent initialCapital (log ++ out) book :=
  h.quiet fun e he => (hs e he).cashFlow_zero

/-- A sale logs its trade record first; the cash moves with the audit event. -/
theorem Solvent.sale {book book' : Book ℚ} (h : Solvent initialCapital log book)
    (hheld : book'.positions.All fun _ position => 0 < position.quantity)
    (hcash : book'.cash = book.cash + AuditEvent.cashFlow e) (hflow : 0 ≤ e.cashFlow) :
    Solvent initialCapital (log ++ [.trade r, .audit e]) book' := by
  have hquiet : Solvent initialCapital (log ++ [.trade r]) book :=
    h.quiet fun e he => by rw [List.mem_singleton.mp he]; rfl
  rw [List.append_cons]
  refine hquiet.move hheld ?_ ?_
  · rw [auditTotal_audit, hcash]
  · rw [hcash]
    exact add_nonneg h.cash hflow

theorem AppliedCases.solvent {book : Book ℚ}
    (h : AppliedCases book ticker position kind book' applied)
    (hpos : book.positions.get? ticker = some position) (hs : Solvent initialCapital log book) :
    Solvent initialCapital
      (log ++ [.audit (.corporateAction date ticker verified applied)]) book' := by
  have hq : 0 ≤ (position.quantity : ℚ) := Int.cast_nonneg (hs.held ticker position hpos).le
  have hcash : book'.cash = book.cash + auditTotal AuditEvent.cashFlow
      [.audit (.corporateAction date ticker verified applied)] := h.cash
  cases h with
  | split _ hnew => exact hs.move (hs.held.insert hnew) hcash hs.cash
  | @dividend perShare =>
    exact hs.move hs.held hcash (add_nonneg hs.cash (mul_nonneg hq perShare.property))
  | @delist recovery =>
    exact hs.move (hs.held.erase ticker) hcash
      (add_nonneg hs.cash (mul_nonneg hq recovery.property))

theorem SellCases.solvent {book : Book ℚ} (h : SellCases spec date bars book order r)
    (hside : order.side = .sell) (hfees : FeesCovered r.2) (hs : Solvent initialCapital log book) :
    Solvent initialCapital (log ++ r.2) r.1 := by
  cases h with
  | declined hd => exact hs.silent fun e he => List.mem_singleton.mp he ▸ .declined hd
  | @filled position bar sellPrice quantity costs hpos hbar hprice hq hle =>
    refine hs.sale ?_ ?_ ?_
    · dsimp only [settleSell]
      split
      · exact hs.held.erase _
      · rename_i hne
        exact hs.held.insert (sub_pos.mpr (lt_of_le_of_ne hle hne))
    · rw [settleSell_cash hside]
      exact congrArg (book.cash + ·) (auditTotal_trade_audit _ _ _)
    · have hcovered := hfees _ (List.mem_singleton.mpr rfl) hside
      dsimp only [settleSell] at hcovered
      rw [cashFlow_executed, hside]
      linarith

theorem BuyCases.solvent {book : Book ℚ} (h : BuyCases spec date bars n book order r)
    (hside : order.side = .buy)
    (hmode : spec.backtest.costModel.roundingMode ≠ .halfUp ∨
      spec.backtest.costModel.commissionPct.val = 0)
    (hs : Solvent initialCapital log book) : Solvent initialCapital (log ++ r.2) r.1 := by
  cases h with
  | declined hd => exact hs.silent fun e he => List.mem_singleton.mp he ▸ .declined hd
  | @filled bar buyPrice requested quantity costs hbar hprice hunit hsize hcosts =>
    refine hs.move (hs.held.insert hsize.pos) (settleBuy_cash hside) ?_
    obtain ⟨commission, hcommission, hrest⟩ := bind_ok_iff.mp hcosts
    obtain ⟨slippage, -, hrest⟩ := bind_ok_iff.mp hrest
    cases hrest
    obtain ⟨cashQuantity, hcash, hle⟩ := hsize.affordable
    have hspend := buy_affordable hunit hcash hle hsize.pos
    have hround := costDecimal_le _ hmode hcommission
    simp only [settleBuy, rat_ofInt] at hround ⊢
    linarith

theorem StaleCases.solvent {s : StaleBook ℚ} (h : StaleCases spec config date bars s ticker r)
    (hfees : FeesCovered r.2) (hs : Solvent initialCapital log s.book) :
    Solvent initialCapital (log ++ r.2) r.1.book := by
  cases h with
  | counted =>
    rw [List.append_nil]
    exact hs
  | writtenOff =>
    refine hs.sale (hs.held.erase _) ?_ ?_
    · rw [writeOff_cash]
      exact congrArg (s.book.cash + ·) (auditTotal_trade_audit _ _ _)
    · have hcovered := hfees _ (List.mem_singleton.mpr rfl)
      dsimp only [writeOff, AuditEvent.FeesCovered] at hcovered
      rw [cashFlow_delistedWriteOff]
      exact sub_nonneg.mpr hcovered

theorem solvent_invariant (spec : StrategySpec ℚ) (config : BacktestRunConfig ℚ) (date : Date)
    (bars : Bars ℚ)
    (hmode : spec.backtest.costModel.roundingMode ≠ .halfUp ∨
      spec.backtest.costModel.commissionPct.val = 0) :
    BookInvariant spec config date bars True fun log book =>
      FeesCovered log → Solvent initialCapital log book where
  action h hcases _ hfees := by
    have hs := h (feesCovered_append.mp hfees).1
    cases hcases with
    | skipped =>
      rw [List.append_nil]
      exact hs
    | applied hdate hpos happ => exact (applyToPosition_cases happ).solvent hpos hs
  sell h hside hcases hfees := by
    obtain ⟨hlog, hout⟩ := feesCovered_append.mp hfees
    exact hcases.solvent hside hout (h hlog)
  buy h hside _ hcases hfees := hcases.solvent hside hmode (h (feesCovered_append.mp hfees).1)
  stale h hcases hfees := by
    obtain ⟨hlog, hout⟩ := feesCovered_append.mp hfees
    exact hcases.solvent hout (h hlog)
  silent h hs hfees := (h (feesCovered_append.mp hfees).1).silent hs

theorem run_solvent {eng : BacktestEngine ℚ} (hdays : days.Pairwise (· < ·))
    (hmode : eng.spec.backtest.costModel.roundingMode ≠ .halfUp ∨
      eng.spec.backtest.costModel.commissionPct.val = 0)
    (h0 : 0 ≤ eng.config.initialCapital) (hfees : FeesCovered log)
    (h : traceM (session eng included) eng.initialState days = .ok (s, log)) :
    Solvent eng.config.initialCapital log s.book := by
  refine BookInvariant.run (fun date bars => solvent_invariant eng.spec eng.config date bars hmode)
    (fun {log book} bars hb hfees => ?_) (fun _ => ?_) hdays (fun _ _ _ _ _ _ _ _ _ _ => trivial) h
    hfees
  · obtain ⟨hledger, hheld, hcash, hnever⟩ := hb hfees
    refine ⟨hledger, hheld.mapVal fun ticker position hq => ?_, hcash, hnever⟩
    cases bars.get? ticker <;> exact hq
  · refine ⟨(add_zero _).symm, .empty, h0, fun done rest hsplit => ?_⟩
    obtain ⟨rfl, -⟩ := List.append_eq_nil_iff.mp hsplit.symm
    exact (add_zero eng.config.initialCapital).symm ▸ h0

/-- Every session closes with cash that is not negative. -/
theorem run_closes {eng : BacktestEngine ℚ} (hdays : days.Pairwise (· < ·))
    (hmode : eng.spec.backtest.costModel.roundingMode ≠ .halfUp ∨
      eng.spec.backtest.costModel.commissionPct.val = 0)
    (h0 : 0 ≤ eng.config.initialCapital) (hfees : FeesCovered log)
    (h : traceM (session eng included) eng.initialState days = .ok (s, log)) :
    ∀ point ∈ log.filterMap Entry.equity?, 0 ≤ point.cash := by
  have hrun := traceM_run (I := fun done l t =>
    (FeesCovered l → ∀ point ∈ l.filterMap Entry.equity?, 0 ≤ point.cash) ∧
      traceM (session eng included) eng.initialState done = .ok (t, l)) (d := []) (l := [])
    h ⟨nofun, rfl⟩ ?_
  · exact hrun.1 hfees
  · intro done rest l t date t' o hsplit ⟨hpoints, hprefix⟩ hst
    have hsplit : days = done ++ date :: rest := hsplit
    have hnext := traceM_snoc_ok hprefix hst
    have hdone : (done ++ [date]).Pairwise (· < ·) := by
      rw [hsplit, List.append_cons] at hdays
      exact (List.pairwise_append.mp hdays).1
    refine ⟨fun hfees point hpoint => ?_, hnext⟩
    obtain ⟨bars, hequity⟩ := session_equity hst
    rw [List.filterMap_append, hequity] at hpoint
    rcases List.mem_append.mp hpoint with hpoint | hpoint
    · exact hpoints (feesCovered_append.mp hfees).1 point hpoint
    · rw [List.mem_singleton.mp hpoint]
      exact (run_solvent hdone hmode h0 hfees hnext).cash

end QuantAgent
