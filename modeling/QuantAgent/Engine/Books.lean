import QuantAgent.Engine.Lifecycle

namespace QuantAgent
set_option autoImplicit true

section
variable {F : Type} [PyFloat F]

/-- Entries that report on the book without moving it. -/
inductive Silent : Entry F → Prop
  | signal : Silent (.signal record)
  | equity : Silent (.equity point)
  | submitted : Silent (.audit (.submitted order detail))
  | declined : Declined date order e → Silent (.audit e)
  | expiredAtEnd : Silent (.audit (.expiredNoNextSession date order))

omit [PyFloat F] in
theorem expireAtEnd_silent (days : List Date) (s : EngineState F) :
    ∀ e ∈ BacktestEngine.expireAtEnd days s, Silent e := by
  intro e he
  unfold BacktestEngine.expireAtEnd at he
  split at he
  · cases he
  · obtain ⟨order, -, rfl⟩ := List.mem_map.mp he
    exact .expiredAtEnd

omit [PyFloat F] in
theorem expireAtEnd_equity (days : List Date) (s : EngineState F) :
    (BacktestEngine.expireAtEnd days s).filterMap Entry.equity? = [] := by
  unfold BacktestEngine.expireAtEnd
  split
  · rfl
  · simp [Function.comp_def, Entry.equity?]

/-- A delisting that takes effect on a held name. -/
def HitsHeld (date : Date) (positions : Dict Ticker (Position F))
    (event : CorporateActionEvent F) : Prop :=
  event.effectiveDate = date ∧ event.ticker ∈ positions ∧
    ∃ recoveryPrice, event.eventType = .delist recoveryPrice

/-- A property of the log and the book that every pass of a session keeps; `delists` tells whether
it allows a delisting to take a held name. -/
structure BookInvariant (spec : StrategySpec F) (config : BacktestRunConfig F) (date : Date)
    (bars : Bars F) (delists : Prop) (I : List (Entry F) → Book F → Prop) : Prop where
  action : ∀ {log book event r}, I log book → ActionCases date book event r →
    (HitsHeld date book.positions event → delists) → I (log ++ r.2) r.1
  sell : ∀ {log book order r}, I log book → order.side = .sell →
    SellCases spec date bars book order r → I (log ++ r.2) r.1
  buy : ∀ {log book n order r}, I log book → order.side = .buy → order.ticker ∉ book.positions →
    BuyCases spec date bars n book order r → I (log ++ r.2) r.1
  stale : ∀ {log s ticker r}, I log s.book → StaleCases spec config date bars s ticker r →
    I (log ++ r.2) r.1.book
  silent : ∀ {log book out}, I log book → (∀ e ∈ out, Silent e) → I (log ++ out) book

variable {I : List (Entry F) → Book F → Prop}

theorem BookInvariant.corporateActions (hI : BookInvariant spec config date bars delists I)
    (hs : I log book) (h : applyCorporateActions spec date book = .ok (book', out))
    (hd : ∀ event ∈ spec.backtest.corporateActions, HitsHeld date book.positions event → delists) :
    I (log ++ out) book' := by
  have hinv := traceM_preserves
    (I := fun l b => I l b ∧ ∀ t, t ∈ b.positions → t ∈ book.positions) h ⟨hs, fun _ => id⟩ ?_
  · exact hinv.1
  · intro l b event b' o hevent ⟨hb, hsub⟩ hst
    have hcases := applyCorporateAction_cases hst
    refine ⟨hI.action hb hcases fun hhit => ?_, fun t ht => hsub t (hcases.positions t ht)⟩
    exact hd event hevent ⟨hhit.1, hsub _ hhit.2.1, hhit.2.2⟩

theorem BuyCases.positions {book : Book F} (h : BuyCases spec date bars n book order (book', out)) :
    ∀ t, t ∈ book'.positions → t = order.ticker ∨ t ∈ book.positions := by
  intro t ht
  cases h with
  | declined => exact .inr ht
  | filled => exact Dict.mem_insert.mp ht

theorem rejected_silent {date : Date} {bars : Bars F} {orders : List (PendingOrder F)} :
    ∀ e ∈ (orders.filterMap (rejectAtOpen date bars)).map Entry.audit, Silent e := by
  intro e he
  obtain ⟨event, hevent, rfl⟩ := List.mem_map.mp he
  obtain ⟨order, -, hreject⟩ := List.mem_filterMap.mp hevent
  exact .declined (rejectAtOpen_declined hreject)

/-- The buys of a session are for distinct names when the pending ones are. -/
theorem buyOrders_nodup {bars : Bars F}
    (h : ((pending.filter fun order => decide (order.side = .buy)).map PendingOrder.ticker).Nodup) :
    ((buyOrders positions (executableOrders date bars pending)).map PendingOrder.ticker).Nodup := by
  unfold buyOrders executableOrders eligibleOrders
  rw [((pySorted_perm _ _).map PendingOrder.ticker).nodup_iff, ← List.filter_filter]
  refine List.Nodup.sublist ?_ h
  apply List.Sublist.map
  apply List.Sublist.filter
  exact (List.filter_sublist.trans List.filter_sublist).trans List.filter_sublist

theorem mem_buyOrders (h : order ∈ buyOrders positions (executable : List (PendingOrder F))) :
    order.side = .buy ∧ order.ticker ∉ positions := by
  have hkeep := (List.mem_filter.mp ((mem_pySorted _).mp h)).2
  simpa using hkeep

theorem BookInvariant.pendingOrders (hI : BookInvariant spec config date bars delists I)
    (hs : I log book)
    (hbuys : ((pending.filter fun order => decide (order.side = .buy)).map
      PendingOrder.ticker).Nodup)
    (h : executePendingOrders spec date bars book pending = .ok (book', out)) :
    I (log ++ out) book' := by
  obtain ⟨⟨sold, sellLog⟩, hsells, h⟩ := bind_ok_iff.mp h
  obtain ⟨⟨bought, buyLog⟩, hbought, h⟩ := bind_ok_iff.mp h
  cases h
  have hrejected : ∀ e ∈ ((eligibleOrders date pending).filterMap
      (rejectAtOpen date bars)).map Entry.audit, Silent e := rejected_silent
  have hsold := traceM_preserves (I := I) hsells (hI.silent hs hrejected) ?_
  · have hloop := traceM_run (I := fun done l b => I l b ∧
        ∀ t, t ∈ b.positions → t ∈ sold.positions ∨ t ∈ done.map PendingOrder.ticker)
      (d := []) hbought ⟨hsold, fun t ht => .inl ht⟩ ?_
    · simpa only [List.append_assoc] using hloop.1
    · intro done rest l b order b' o hsplit ⟨hb, hsub⟩ hst
      have hsplit : buyOrders sold.positions (executableOrders date bars pending) =
          done ++ order :: rest := hsplit
      have hmem : order ∈ buyOrders sold.positions (executableOrders date bars pending) :=
        hsplit ▸ List.mem_append_right _ (List.mem_cons_self ..)
      obtain ⟨hside, hheld⟩ := mem_buyOrders hmem
      have hdone : order.ticker ∉ done.map PendingOrder.ticker := by
        have hnodup : ((buyOrders sold.positions (executableOrders date bars pending)).map
          PendingOrder.ticker).Nodup := buyOrders_nodup hbuys
        rw [hsplit, List.map_append, List.map_cons, List.nodup_append] at hnodup
        intro hmem
        exact hnodup.2.2 _ hmem _ (List.mem_cons_self ..) rfl
      have hfree : order.ticker ∉ b.positions := by
        intro hb
        rcases hsub _ hb with hb | hb
        · exact hheld hb
        · exact hdone hb
      have hcases := executeBuy_cases hst
      refine ⟨hI.buy hb hside hfree hcases, fun t ht => ?_⟩
      rw [List.map_append, List.mem_append]
      rcases hcases.positions t ht with rfl | ht
      · exact .inr (.inr (List.mem_singleton.mpr rfl))
      · exact (hsub t ht).imp_right .inl
  · intro l b order b' o ho hb hst
    have hside := of_decide_eq_true (List.mem_filter.mp ho).2
    exact hI.sell hb hside (executeSell_cases hst)

theorem writeOffs_invariant (hI : BookInvariant spec config date bars delists I) {s : StaleBook F}
    (hs : I log s.book) (h : writeOffStalePositions spec config date bars s = .ok (s', out)) :
    I (log ++ out) s'.book := by
  unfold writeOffStalePositions at h
  split at h
  · cases h
    simpa using hs
  · apply traceM_preserves (I := fun l b => I l b.book) h hs
    intro l b ticker b' o _ hb hst
    exact hI.stale hb (writeOffStalePosition_cases hst)

omit [PyFloat F] in
theorem Queued.silent (h : Queued date positions tickers orders (out : List (Entry F))) :
    ∀ e ∈ out, Silent e := by
  intro e he
  cases e with
  | signal => exact .signal
  | equity => exact .equity
  | trade r =>
    have hr : r ∈ out.filterMap Entry.trade? := List.mem_filterMap.mpr ⟨_, he, rfl⟩
    rw [h.trades] at hr
    cases hr
  | audit e =>
    have hmem : e ∈ audits out := List.mem_filterMap.mpr ⟨_, he, rfl⟩
    have hs := h.submitted
    clear h he
    generalize audits out = events at hs hmem
    induction hs with
    | nil => cases hmem
    | cons hd _ ih =>
      rcases List.mem_cons.mp hmem with rfl | hmem
      · obtain ⟨detail, rfl⟩ := hd
        exact .submitted
      · exact ih hmem

theorem Lifecycle.buys_nodup (h : Lifecycle past log (s : EngineState F)) :
    ((s.pendingOrders.filter fun order => decide (order.side = .buy)).map
      PendingOrder.ticker).Nodup := by
  have hkeys : (s.pendingOrders.map PendingOrder.key).Nodup :=
    (List.nodup_append.mp (h.obligations.balance.nodup_iff.mpr h.obligations.nodup)).2.1
  rw [List.nodup_iff_pairwise_ne, List.pairwise_map] at hkeys ⊢
  refine (hkeys.sublist List.filter_sublist).imp_of_mem ?_
  intro a b ha hb hne hticker
  obtain ⟨ha, hsa⟩ := List.mem_filter.mp ha
  obtain ⟨hb, hsb⟩ := List.mem_filter.mp hb
  have hside : a.side = b.side := (of_decide_eq_true hsa).trans (of_decide_eq_true hsb).symm
  have hdate : a.signalDate = b.signalDate :=
    Option.some.inj ((h.pending a ha).1.symm.trans (h.pending b hb).1)
  apply hne
  rw [PendingOrder.key, PendingOrder.key, hticker, hside, hdate]

/-- The book of an engine state. -/
abbrev EngineState.book (s : EngineState F) : Book F := ⟨s.cash, s.positions⟩

/-- Once the passes are done, a session only refreshes the last prices and marks the book. -/
theorem BookInvariant.session {eng : BacktestEngine F}
    (hI : ∀ bars, eng.todayBars included date = some bars →
      BookInvariant eng.spec eng.config date bars delists I)
    (hl : Lifecycle past log s) (hs : I log s.book)
    (h : session eng included s date = .ok (s', out))
    (hd : ∀ event ∈ eng.spec.backtest.corporateActions,
      HitsHeld date s.positions event → delists) :
    ∃ bars book before, eng.todayBars included date = some bars ∧ I (log ++ before) book ∧
      s'.book = ⟨book.cash, refreshLastPrices bars book.positions⟩ ∧
      out = before ++ [.equity (equityPoint date s'.cash s'.positions bars s.previousEquity)] := by
  obtain ⟨bars, corporate, executed, forced, generated, hbars, hcorp, hexec, hforced, hgen, hcash,
    hpos, -, rfl⟩ := (session_passes h).passes
  have hI := hI bars hbars
  have hcorp := hI.corporateActions hs hcorp hd
  have hexec := hI.pendingOrders hcorp hl.buys_nodup hexec
  have hforced := writeOffs_invariant hI hexec hforced
  have hgen := hI.silent hforced (generateSignalsForDate_queues hgen).silent
  refine ⟨bars, forced.1.book, corporate.2 ++ executed.2 ++ forced.2 ++ generated.2, hbars, ?_, ?_,
    rfl⟩
  · simpa only [List.append_assoc] using hgen
  · rw [EngineState.book, hcash, hpos]

/-- Only where `delists` allows it does a delisting take a held name on the days of a run. -/
def DelistsOnly (eng : BacktestEngine F) (included : List Ticker) (days : List Date)
    (delists : Prop) : Prop :=
  ∀ past date rest s log, days = past ++ date :: rest →
    traceM (QuantAgent.session eng included) eng.initialState past = .ok (s, log) →
    ∀ event ∈ eng.spec.backtest.corporateActions, HitsHeld date s.positions event → delists

/-- An invariant of the passes and of the close holds after every prefix of the sessions. -/
theorem BookInvariant.run {eng : BacktestEngine F}
    (hI : ∀ date bars, BookInvariant eng.spec eng.config date bars delists I)
    (hrefresh : ∀ {log book} bars, I log book →
      I log ⟨book.cash, refreshLastPrices bars book.positions⟩)
    (h0 : I [] eng.initialState.book) (hdays : days.Pairwise (· < ·))
    (hd : DelistsOnly eng included days delists)
    (h : traceM (QuantAgent.session eng included) eng.initialState days = .ok (s, log)) :
    I log s.book := by
  have hrun := traceM_run (I := fun done l t => I l t.book ∧
    traceM (QuantAgent.session eng included) eng.initialState done = .ok (t, l)) (d := []) (l := [])
    h ⟨h0, rfl⟩ ?_
  · exact hrun.1
  · intro done rest l t date t' o hsplit ⟨hi, hprefix⟩ hst
    have hsplit : days = done ++ date :: rest := hsplit
    have hdone : done.Pairwise (· < ·) := (List.pairwise_append.mp (hsplit ▸ hdays)).1
    obtain ⟨bars, book, before, -, hbook, hnext, rfl⟩ :=
      BookInvariant.session (fun bars _ => hI date bars) (run_lifecycle hdone hprefix) hi hst
        (hd done date rest t l hsplit hprefix)
    refine ⟨?_, traceM_snoc_ok hprefix hst⟩
    rw [hnext, ← List.append_assoc]
    apply (hI date bars).silent (hrefresh bars hbook)
    exact fun e he => List.mem_singleton.mp he ▸ Silent.equity

end
end QuantAgent
