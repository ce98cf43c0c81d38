import QuantAgent.Engine.Lifecycle

namespace QuantAgent
set_option autoImplicit true

section
variable {F : Type} [PyFloat F]

/-- The date a result list shows for an entry. -/
def Entry.date : Entry F → Date
  | .audit e => e.record.date
  | .trade r => r.exitDate
  | .signal r => r.date
  | .equity point => point.date

/-- Everything a pass logs carries the date of its session. -/
def Dated (date : Date) (out : List (Entry F)) : Prop := ∀ e ∈ out, e.date = date

theorem Dated.nil : Dated date ([] : List (Entry F)) := nofun

theorem Dated.append {log out : List (Entry F)} (h : Dated date log) (h' : Dated date out) :
    Dated date (log ++ out) := List.forall_mem_append.mpr ⟨h, h'⟩

theorem Dated.cons {e : Entry F} (he : e.date = date) (h : Dated date out) :
    Dated date (e :: out) := List.forall_mem_cons.mpr ⟨he, h⟩

theorem Declined.dated (h : Declined date order (e : AuditEvent F)) :
    Dated date [.audit e] := by
  apply Dated.cons _ .nil
  cases h <;> rfl

theorem ActionCases.dated {book : Book F} (h : ActionCases date book event r) :
    Dated date r.2 := by
  cases h with
  | skipped => exact .nil
  | applied => exact .cons rfl .nil

theorem SellCases.dated {book : Book F} (h : SellCases spec date bars book order r) :
    Dated date r.2 := by
  cases h with
  | declined h => exact h.dated
  | filled => exact .cons rfl (.cons rfl .nil)

theorem BuyCases.dated {book : Book F} (h : BuyCases spec date bars n book order r) :
    Dated date r.2 := by
  cases h with
  | declined h => exact h.dated
  | filled => exact .cons rfl .nil

theorem StaleCases.dated {s : StaleBook F} (h : StaleCases spec config date bars s ticker r) :
    Dated date r.2 := by
  cases h with
  | counted => exact .nil
  | writtenOff => exact .cons rfl (.cons rfl .nil)

/-- A loop whose steps log today's entries logs only today's entries. -/
theorem traceM_dated {step : σ → α → Except PyError (σ × List (Entry F))}
    (h : traceM step s as = .ok (t, out))
    (hstep : ∀ s a r, step s a = .ok r → Dated date r.2) : Dated date out :=
  traceM_preserves (I := fun l _ => Dated date l) (l := []) h .nil
    fun _ s a s' o _ hl hst => hl.append (hstep s a (s', o) hst)

theorem executePendingOrders_dated {book : Book F}
    (h : executePendingOrders spec date bars book pending = .ok r) : Dated date r.2 := by
  obtain ⟨⟨sold, sellLog⟩, hsells, h⟩ := bind_ok_iff.mp h
  obtain ⟨⟨bought, buyLog⟩, hbuys, h⟩ := bind_ok_iff.mp h
  cases h
  refine (Dated.append ?_ (traceM_dated hsells fun _ _ _ hst => (executeSell_cases hst).dated)).append
    (traceM_dated hbuys fun _ _ _ hst => (executeBuy_cases hst).dated)
  intro e he
  obtain ⟨event, hevent, rfl⟩ := List.mem_map.mp he
  obtain ⟨order, -, hreject⟩ := List.mem_filterMap.mp hevent
  exact (rejectAtOpen_declined hreject).dated _ (List.mem_cons_self ..)

theorem writeOffStalePositions_dated {s : StaleBook F}
    (h : writeOffStalePositions spec config date bars s = .ok r) : Dated date r.2 := by
  unfold writeOffStalePositions at h
  split at h
  · cases h
    exact .nil
  · exact traceM_dated h fun _ _ _ hst => (writeOffStalePosition_cases hst).dated

theorem queueRiskExit_dated {s : SignalState F} :
    Dated date (queueRiskExit spec date bar position s ticker).2 := by
  unfold queueRiskExit
  split
  · exact .nil
  · exact .cons rfl (.cons rfl .nil)

theorem generateTickerSignal_dated {positions : Dict Ticker (Position F)}
    (h : generateTickerSignal spec metricsByKey previousMetricsByKey date bars positions s ticker =
      .ok r) : Dated date r.2 := by
  obtain ⟨metrics, -, h⟩ := bind_ok_iff.mp h
  obtain ⟨bar, -, h⟩ := bind_ok_iff.mp h
  obtain ⟨decision, -, h⟩ := bind_ok_iff.mp h
  cases h
  apply Dated.cons rfl
  split
  · exact .cons rfl .nil
  · split
    · exact .cons rfl .nil
    · split
      · split
        · exact queueRiskExit_dated
        · exact .nil
      · exact .nil

theorem queueGenerated_dated {s : SignalState F} :
    Dated date (queueGenerated date bar s ticker side reason score).2 := by
  unfold queueGenerated
  split
  · exact .cons rfl .nil
  · exact .nil

theorem actOnGenerated_dated {positions : Dict Ticker (Position F)}
    (h : actOnGenerated eng date bar positions s ticker rowIndex actionValue = .ok r) :
    Dated date r.2 := by
  unfold actOnGenerated at h
  split at h
  · obtain ⟨score, -, h⟩ := bind_ok_iff.mp h
    cases h
    exact queueGenerated_dated.append (.cons rfl .nil)
  · split at h
    · cases h
      exact queueGenerated_dated.append (.cons rfl .nil)
    · cases h
      exact .cons rfl .nil

theorem generateCompactTickerSignal_dated {positions : Dict Ticker (Position F)}
    (h : generateCompactTickerSignal eng prepared actions date bars positions s ticker = .ok r) :
    Dated date r.2 := by
  obtain ⟨rowIndex, -, h⟩ := bind_ok_iff.mp h
  obtain ⟨actionValue, -, h⟩ := bind_ok_iff.mp h
  obtain ⟨bar, -, h⟩ := bind_ok_iff.mp h
  obtain ⟨acted, hacted, h⟩ := bind_ok_iff.mp h
  cases h
  have hdated := actOnGenerated_dated hacted
  unfold addRiskExit
  split
  · split
    · exact hdated.append queueRiskExit_dated
    · exact hdated
  · exact hdated

theorem generateSignalsForDate_dated {bars : Bars F}
    (h : generateSignalsForDate eng prepared date bars positions pending = .ok r) :
    Dated date r.2 := by
  obtain ⟨⟨s, log⟩, hloop, h⟩ := bind_ok_iff.mp h
  cases h
  unfold signalLoop at hloop
  split at hloop
  · exact traceM_dated hloop fun _ _ _ => generateCompactTickerSignal_dated
  · exact traceM_dated hloop fun _ _ _ => generateTickerSignal_dated

theorem session_dated {eng : BacktestEngine F} (h : session eng included s date = .ok (s', out)) :
    Dated date out := by
  obtain ⟨bars, corporate, executed, forced, generated, -, hcorp, hexec, hforced, hgen, -, -, -,
    rfl⟩ := (session_passes h).passes
  have hcorp : Dated date corporate.2 := traceM_dated (t := corporate.1) hcorp fun _ _ _ hst =>
    (applyCorporateAction_cases hst).dated
  exact (((hcorp.append (executePendingOrders_dated hexec)).append
    (writeOffStalePositions_dated hforced)).append (generateSignalsForDate_dated hgen)).append
      (.cons rfl .nil)

/-- The strategy with another list of corporate actions. -/
def StrategySpec.withActions (spec : StrategySpec F) (events : List (CorporateActionEvent F)) :
    StrategySpec F :=
  { spec with backtest := { spec.backtest with corporateActions := events } }

theorem executePendingOrders_withActions (spec : StrategySpec F)
    (events : List (CorporateActionEvent F)) (date : Date) (bars : Bars F) (book : Book F)
    (pending : List (PendingOrder F)) :
    executePendingOrders (spec.withActions events) date bars book pending =
      executePendingOrders spec date bars book pending := rfl

theorem applyCorporateActions_withActions (spec : StrategySpec F)
    (events : List (CorporateActionEvent F)) (date : Date) (book : Book F) :
    applyCorporateActions (spec.withActions events) date book =
      traceM (applyCorporateAction date) book
        (events.filter fun event => decide (event.effectiveDate = date)) := by
  refine traceM_filter (p := fun event => decide (event.effectiveDate = date))
    (fun b event hdate => ?_) book events
  exact if_pos (of_decide_eq_false hdate)

/-- The corporate actions effective by a day. -/
def actionsUpTo (cutoff : Date) (events : List (CorporateActionEvent F)) :
    List (CorporateActionEvent F) :=
  events.filter fun event => decide (event.effectiveDate ≤ cutoff)

theorem actionsUpTo_on (hdate : date ≤ cutoff) (events : List (CorporateActionEvent F)) :
    (actionsUpTo cutoff events).filter (fun event => decide (event.effectiveDate = date)) =
      events.filter fun event => decide (event.effectiveDate = date) := by
  unfold actionsUpTo
  rw [List.filter_filter]
  apply List.filter_congr
  intro event _
  by_cases h : event.effectiveDate = date
  · simp [h, hdate]
  · simp [h]

/-- Two engines that see the same of every day up to a cutoff. -/
structure AgreesUpTo (cutoff : Date) (eng₁ eng₂ : BacktestEngine F)
    (included₁ included₂ : List Ticker) : Prop where
  config : eng₁.config = eng₂.config
  spec : ∃ (spec : StrategySpec F), ∃ events₁ events₂, eng₁.spec = spec.withActions events₁ ∧
    eng₂.spec = spec.withActions events₂ ∧ actionsUpTo cutoff events₁ = actionsUpTo cutoff events₂
  dates : ∀ date ≤ cutoff, date ∈ eng₁.prepared.dates ↔ date ∈ eng₂.prepared.dates
  bars : ∀ date ≤ cutoff, eng₁.todayBars included₁ date = eng₂.todayBars included₂ date
  signals : ∀ date ≤ cutoff, ∀ bars, eng₁.todayBars included₁ date = some bars →
    ∀ positions s, signalLoop eng₁ eng₁.prepared date bars positions s =
      signalLoop eng₂ eng₂.prepared date bars positions s

theorem AgreesUpTo.session (h : AgreesUpTo cutoff eng₁ eng₂ included₁ included₂)
    (hdate : date ≤ cutoff) (s : EngineState F) :
    session eng₁ included₁ s date = session eng₂ included₂ s date := by
  obtain ⟨spec, events₁, events₂, hspec₁, hspec₂, hevents⟩ := h.spec
  have hcorp : ∀ book : Book F, applyCorporateActions eng₁.spec date book =
      applyCorporateActions eng₂.spec date book := by
    intro book
    rw [hspec₁, hspec₂, applyCorporateActions_withActions, applyCorporateActions_withActions,
      ← actionsUpTo_on hdate, hevents, actionsUpTo_on hdate]
  have hexec : ∀ bars (book : Book F) pending,
      executePendingOrders eng₁.spec date bars book pending =
        executePendingOrders eng₂.spec date bars book pending := by
    intro bars book pending
    rw [hspec₁, hspec₂, executePendingOrders_withActions, executePendingOrders_withActions]
  have hforced : ∀ bars (stale : StaleBook F),
      writeOffStalePositions eng₁.spec eng₁.config date bars stale =
        writeOffStalePositions eng₂.spec eng₂.config date bars stale := by
    intro bars stale
    rw [hspec₁, hspec₂, h.config]
    rfl
  unfold QuantAgent.session
  rw [← h.bars date hdate]
  cases hbars : eng₁.todayBars included₁ date with
  | none => rfl
  | some bars =>
    simp only [Option.elim_some, pure_bind, hcorp, hexec, hforced, generateSignalsForDate,
      h.signals date hdate bars hbars]

/-- The sessions up to the cutoff come first. -/
theorem filter_le_append {days : List Date} (h : days.Pairwise (· < ·)) (cutoff : Date) :
    (days.filter fun date => decide (date ≤ cutoff)) ++
      (days.filter fun date => !decide (date ≤ cutoff)) = days := by
  apply filter_append_filter_not
  refine h.imp fun hlt hle => ?_
  exact decide_eq_true (hlt.le.trans (of_decide_eq_true hle))

theorem AgreesUpTo.sessions (h : AgreesUpTo cutoff eng₁ eng₂ included₁ included₂) :
    ((eng₁ : BacktestEngine F).sessions included₁).filter (fun date => decide (date ≤ cutoff)) =
      (eng₂.sessions included₂).filter fun date => decide (date ≤ cutoff) := by
  apply ((sessions_increasing eng₁ included₁).sublist List.filter_sublist).eq_of_mem_iff
    ((sessions_increasing eng₂ included₂).sublist List.filter_sublist)
  intro date
  simp only [BacktestEngine.sessions, List.mem_filter, decide_eq_true_eq]
  constructor
  · rintro ⟨⟨hmem, hbars⟩, hdate⟩
    exact ⟨⟨(h.dates date hdate).mp hmem, h.bars date hdate ▸ hbars⟩, hdate⟩
  · rintro ⟨⟨hmem, hbars⟩, hdate⟩
    exact ⟨⟨(h.dates date hdate).mpr hmem, h.bars date hdate ▸ hbars⟩, hdate⟩

/-- The entries a day may show of the days up to the cutoff: an order still pending there may end
differently. -/
def Entry.shown (cutoff : Date) : Entry F → Bool
  | .audit (.expiredNoNextSession _ _) => false
  | e => decide (e.date ≤ cutoff)

theorem shown_later {log : List (Entry F)} (h : ∀ e ∈ log, cutoff < e.date) :
    log.filter (Entry.shown cutoff) = [] := by
  rw [List.filter_eq_nil_iff]
  intro e he
  have hlater := not_le.mpr (h e he)
  unfold Entry.shown
  split
  · exact Bool.false_ne_true
  · simpa using hlater

theorem expireAtEnd_shown (days : List Date) (s : EngineState F) :
    (BacktestEngine.expireAtEnd days s).filter (Entry.shown cutoff) = [] := by
  rw [List.filter_eq_nil_iff]
  intro e he
  unfold BacktestEngine.expireAtEnd at he
  split at he
  · cases he
  · obtain ⟨order, -, rfl⟩ := List.mem_map.mp he
    exact Bool.false_ne_true

/-- A run shows nothing of the days up to the cutoff after the last of their sessions. -/
theorem trace_shown {eng : BacktestEngine F} (h : eng.trace = .ok (selected, s, log))
    (cutoff : Date) :
    ∃ t past, traceM (session eng selected.1) eng.initialState
        ((eng.sessions selected.1).filter fun date => decide (date ≤ cutoff)) = .ok (t, past) ∧
      log.filter (Entry.shown cutoff) = past.filter (Entry.shown cutoff) := by
  obtain ⟨days, hlooped, rfl⟩ := trace_looped h
  have hloop := hlooped.loop
  rw [← filter_le_append (sessions_increasing eng selected.1) cutoff] at hloop
  obtain ⟨t, past, later, hpast, hlater, rfl⟩ := traceM_append_ok.mp hloop
  refine ⟨t, past, hpast, ?_⟩
  have hafter : later.filter (Entry.shown cutoff) = [] := by
    apply shown_later
    refine traceM_preserves (I := fun l _ => ∀ e ∈ l, cutoff < e.date) (l := []) hlater nofun ?_
    intro l b date b' o hmem hl hst e he
    rcases List.mem_append.mp he with he | he
    · exact hl e he
    · rw [session_dated hst e he]
      simpa using (List.mem_filter.mp hmem).2
  rw [List.filter_append, List.filter_append, hafter, expireAtEnd_shown, List.append_nil,
    List.append_nil]

/-- Engines that agree up to a cutoff show the same log of it. -/
theorem AgreesUpTo.trace (h : AgreesUpTo cutoff eng₁ eng₂ selected₁.1 selected₂.1)
    (h₁ : eng₁.trace = .ok (selected₁, s₁, log₁))
    (h₂ : (eng₂ : BacktestEngine F).trace = .ok (selected₂, s₂, log₂)) :
    log₁.filter (Entry.shown cutoff) = log₂.filter (Entry.shown cutoff) := by
  obtain ⟨t₁, past₁, hpast₁, hshown₁⟩ := trace_shown h₁ cutoff
  obtain ⟨t₂, past₂, hpast₂, hshown₂⟩ := trace_shown h₂ cutoff
  have hinitial : eng₁.initialState = eng₂.initialState := by
    unfold BacktestEngine.initialState
    rw [h.config]
  have hsame : traceM (QuantAgent.session eng₁ selected₁.1) eng₁.initialState
        ((eng₁.sessions selected₁.1).filter fun date => decide (date ≤ cutoff)) =
      traceM (QuantAgent.session eng₂ selected₂.1) eng₁.initialState
        ((eng₁.sessions selected₁.1).filter fun date => decide (date ≤ cutoff)) :=
    traceM_congr (fun s date hmem =>
      h.session (of_decide_eq_true (List.mem_filter.mp hmem).2) s) eng₁.initialState
  rw [hpast₁, h.sessions, hinitial, hpast₂] at hsame
  cases hsame
  rw [hshown₁, hshown₂]

/-- Two results show the same of the days up to a cutoff; an audit record that the end of the data
wrote for an order still pending is not compared. -/
structure SameUpTo (cutoff : Date) (r₁ r₂ : BacktestResult F) : Prop where
  equityCurve : r₁.equityCurve.filter (fun point => decide (point.date ≤ cutoff)) =
    r₂.equityCurve.filter fun point => decide (point.date ≤ cutoff)
  trades : r₁.trades.filter (fun r => decide (r.exitDate ≤ cutoff)) =
    r₂.trades.filter fun r => decide (r.exitDate ≤ cutoff)
  signals : r₁.signals.filter (fun r => decide (r.date ≤ cutoff)) =
    r₂.signals.filter fun r => decide (r.date ≤ cutoff)
  orderAudit : r₁.orderAudit.filter (fun r =>
      decide (r.date ≤ cutoff) && decide (r.status ≠ .expiredNoNextSession)) =
    r₂.orderAudit.filter fun r =>
      decide (r.date ≤ cutoff) && decide (r.status ≠ .expiredNoNextSession)

/-- A result list restricted to the cutoff is read off the entries shown. -/
theorem filterMap_shown {f : Entry F → Option β} {g : β → γ} {p : γ → Bool}
    (h : ∀ e b, f e = some b → p (g b) = e.shown cutoff) (log : List (Entry F)) :
    ((log.filterMap f).map g).filter p = ((log.filter (Entry.shown cutoff)).filterMap f).map g := by
  induction log with
  | nil => rfl
  | cons e log ih =>
    cases hf : f e with
    | none =>
      rw [List.filterMap_cons_none hf, ih]
      cases hs : e.shown cutoff with
      | true => rw [List.filter_cons_of_pos hs, List.filterMap_cons_none hf]
      | false => rw [List.filter_cons_of_neg (by simp [hs])]
    | some b =>
      have hp := h e b hf
      rw [List.filterMap_cons_some hf, List.map_cons]
      cases hs : e.shown cutoff with
      | true =>
        rw [List.filter_cons_of_pos (hp.trans hs), List.filter_cons_of_pos hs,
          List.filterMap_cons_some hf, List.map_cons, ih]
      | false =>
        rw [List.filter_cons_of_neg (by simp [hp, hs]), List.filter_cons_of_neg (by simp [hs]), ih]

theorem shown_audit (e : AuditEvent F) :
    (decide (e.record.date ≤ cutoff) && decide (e.record.status ≠ .expiredNoNextSession)) =
      Entry.shown cutoff (.audit e) := by
  cases e with
  | expiredNoNextSession => exact Bool.and_false _
  | corporateAction date ticker verified applied => cases applied <;> exact Bool.and_true _
  | _ => exact Bool.and_true _

theorem AgreesUpTo.run (h₁ : (eng₁ : BacktestEngine F).run = .ok r₁) (h₂ : eng₂.run = .ok r₂)
    (h : ∀ selected₁ selected₂, eng₁.selectTickers = .ok selected₁ →
      eng₂.selectTickers = .ok selected₂ → AgreesUpTo cutoff eng₁ eng₂ selected₁.1 selected₂.1) :
    SameUpTo cutoff r₁ r₂ := by
  obtain ⟨selected₁, s₁, log₁, htrace₁, hequity₁, htrades₁, hsignals₁, haudit₁⟩ := run_trace h₁
  obtain ⟨selected₂, s₂, log₂, htrace₂, hequity₂, htrades₂, hsignals₂, haudit₂⟩ := run_trace h₂
  obtain ⟨days₁, hlooped₁, -⟩ := trace_looped htrace₁
  obtain ⟨days₂, hlooped₂, -⟩ := trace_looped htrace₂
  have hshown := (h _ _ hlooped₁.selects hlooped₂.selects).trace htrace₁ htrace₂
  constructor
  · rw [hequity₁, hequity₂]
    have hpoint : ∀ (e : Entry F) point, e.equity? = some point →
        decide (point.rounded.date ≤ cutoff) = e.shown cutoff := by
      intro e point he
      cases e <;> cases he
      rfl
    rw [filterMap_shown hpoint, filterMap_shown hpoint, hshown]
  · rw [htrades₁, htrades₂]
    have htrade : ∀ (e : Entry F) r, e.trade? = some r →
        decide (r.rounded.exitDate ≤ cutoff) = e.shown cutoff := by
      intro e r he
      cases e <;> cases he
      rfl
    rw [filterMap_shown htrade, filterMap_shown htrade, hshown]
  · rw [hsignals₁, hsignals₂]
    have hsignal : ∀ (e : Entry F) r, e.signal? = some r →
        decide ((id r).date ≤ cutoff) = e.shown cutoff := by
      intro e r he
      cases e <;> cases he
      rfl
    have hlog : ∀ log : List (Entry F), (log.filterMap Entry.signal?).filter
        (fun r => decide (r.date ≤ cutoff)) = (log.filter (Entry.shown cutoff)).filterMap
          Entry.signal? := by
      intro log
      have hmap := filterMap_shown (f := Entry.signal?) (g := id)
        (p := fun r => decide (r.date ≤ cutoff)) hsignal log
      simpa only [List.map_id] using hmap
    rw [hlog, hlog, hshown]
  · rw [haudit₁, haudit₂]
    have haudit : ∀ (e : Entry F) event, e.audit? = some event →
        (decide (event.record.date ≤ cutoff) &&
          decide (event.record.status ≠ .expiredNoNextSession)) = e.shown cutoff := by
      intro e event he
      cases e <;> cases he
      exact shown_audit event
    rw [filterMap_shown haudit, filterMap_shown haudit, hshown]

end
end QuantAgent
