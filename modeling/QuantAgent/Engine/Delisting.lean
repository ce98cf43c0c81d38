import QuantAgent.Engine.Ledger

namespace QuantAgent
set_option autoImplicit true

def Entry.writeOff? : Entry F → Option (Date × WriteOff F)
  | .audit (.delistedWriteOff date w) => some (date, w)
  | _ => none

section
variable {F : Type} [PyFloat F]

/-- The ticker has a bar on the session. -/
def hasBar (eng : BacktestEngine F) (included : List Ticker) (ticker : Ticker) (date : Date) : Bool :=
  (eng.todayBars included date).elim false fun bars => decide (ticker ∈ bars)

/-- How many sessions at the end of `days`, all after the entry, had no bar of the ticker. -/
def barlessSessions (eng : BacktestEngine F) (included : List Ticker) (days : List Date)
    (entryDate : Date) (ticker : Ticker) : ℕ :=
  (days.reverse.takeWhile fun date =>
    decide (entryDate < date) && !hasBar eng included ticker date).length

theorem hasBar_eq {eng : BacktestEngine F} (h : eng.todayBars included date = some bars)
    (ticker : Ticker) : hasBar eng included ticker date = decide (ticker ∈ bars) := by
  rw [hasBar, h]
  rfl

theorem barlessSessions_snoc (eng : BacktestEngine F) (included : List Ticker) (past : List Date)
    (date entryDate : Date) (ticker : Ticker) :
    barlessSessions eng included (past ++ [date]) entryDate ticker =
      if entryDate < date ∧ hasBar eng included ticker date = false then
        barlessSessions eng included past entryDate ticker + 1
      else 0 := by
  unfold barlessSessions
  rw [List.reverse_append, List.reverse_singleton, List.singleton_append, List.takeWhile_cons]
  by_cases h : entryDate < date ∧ hasBar eng included ticker date = false
  · rw [if_pos h, if_pos (by simp [h.1, h.2]), List.length_cons]
  · rw [if_neg h, if_neg (by simpa using h), List.length_nil]

/-- The stale-day count the write-off pass gives a held ticker. -/
def nextStale (bars : Bars F) (staleDays : Dict Ticker ℤ) (ticker : Ticker) : ℤ :=
  if ticker ∈ bars then 0 else (staleDays.get? ticker).getD 0 + 1

/-- A held ticker keeps its position with a count below the grace, or is written off at it. -/
inductive CountCases (spec : StrategySpec F) (config : BacktestRunConfig F) (date : Date)
    (bars : Bars F) (s : StaleBook F) (ticker : Ticker) : StaleBook F × List (Entry F) → Prop
  | counted : nextStale bars s.staleDays ticker < config.delistingGraceDays →
      CountCases spec config date bars s ticker
        ({ s with staleDays := s.staleDays.insert ticker (nextStale bars s.staleDays ticker) }, [])
  | writtenOff : config.delistingGraceDays ≤ nextStale bars s.staleDays ticker → ticker ∉ bars →
      s.book.positions.get? ticker = some position →
      CountCases spec config date bars s ticker
        (writeOff spec.backtest.costModel config date s ticker position)

theorem writeOffStalePosition_counts {config : BacktestRunConfig F} {s : StaleBook F}
    (hgrace : 1 ≤ config.delistingGraceDays)
    (h : writeOffStalePosition spec config date bars s ticker = .ok r) :
    CountCases spec config date bars s ticker r := by
  unfold writeOffStalePosition at h
  by_cases hbar : ticker ∈ bars
  · have hnext : nextStale bars s.staleDays ticker = 0 := if_pos hbar
    rw [if_pos hbar] at h
    cases h
    rw [← hnext]
    exact .counted (by omega)
  · have hnext : nextStale bars s.staleDays ticker = (s.staleDays.get? ticker).getD 0 + 1 :=
      if_neg hbar
    rw [if_neg hbar, ← hnext] at h
    dsimp only at h
    split at h
    · rename_i hlt
      cases h
      exact .counted hlt
    · rename_i hge
      split at h
      · cases h
      · rename_i position hpos
        cases h
        exact .writtenOff (not_lt.mp hge) hbar hpos

/-- What the write-off pass leaves of the book and of the counts, and what it logs. -/
structure Swept (config : BacktestRunConfig F) (date : Date) (bars : Bars F) (s s' : StaleBook F)
    (out : List (Entry F)) : Prop where
  kept : s'.book.positions.All fun ticker position =>
    s.book.positions.get? ticker = some position ∧
      (s'.staleDays.get? ticker).getD 0 = nextStale bars s.staleDays ticker ∧
      nextStale bars s.staleDays ticker < config.delistingGraceDays
  exits : ∀ e ∈ out.filterMap Entry.writeOff?, e.1 = date ∧ e.2.ticker ∉ bars ∧
    e.2.ticker ∈ s.book.positions ∧
    config.delistingGraceDays ≤ nextStale bars s.staleDays e.2.ticker

/-- The pass after some of the held tickers. -/
structure Sweeping (config : BacktestRunConfig F) (date : Date) (bars : Bars F) (s : StaleBook F)
    (done : List Ticker) (out : List (Entry F)) (s' : StaleBook F) : Prop where
  kept : s'.book.positions.All fun ticker position =>
    s.book.positions.get? ticker = some position ∧ (ticker ∈ done →
      (s'.staleDays.get? ticker).getD 0 = nextStale bars s.staleDays ticker ∧
      nextStale bars s.staleDays ticker < config.delistingGraceDays)
  ahead : ∀ ticker, ticker ∉ done → s'.staleDays.get? ticker = s.staleDays.get? ticker
  exits : ∀ e ∈ out.filterMap Entry.writeOff?, e.1 = date ∧ e.2.ticker ∉ bars ∧
    e.2.ticker ∈ s.book.positions ∧
    config.delistingGraceDays ≤ nextStale bars s.staleDays e.2.ticker

theorem Sweeping.step {config : BacktestRunConfig F} (h : Sweeping config date bars s done out s')
    (hnew : ticker ∉ done) (hc : CountCases spec config date bars s' ticker (s'', o)) :
    Sweeping config date bars s (done ++ [ticker]) (out ++ o) s'' := by
  have hnext : nextStale bars s'.staleDays ticker = nextStale bars s.staleDays ticker := by
    rw [nextStale, nextStale, h.ahead ticker hnew]
  cases hc with
  | counted hlt =>
    rw [hnext] at hlt ⊢
    refine ⟨fun t position hpos => ?_, fun t ht => ?_, ?_⟩
    · obtain ⟨hheld, hdone⟩ := h.kept t position hpos
      refine ⟨hheld, fun ht => ?_⟩
      rw [Dict.get?_insert]
      by_cases htick : t = ticker
      · subst htick
        rw [if_pos rfl]
        exact ⟨rfl, hlt⟩
      · rw [if_neg htick]
        exact hdone ((List.mem_append.mp ht).resolve_right fun hmem =>
          htick (List.mem_singleton.mp hmem))
    · simp only [List.mem_append, List.mem_singleton, not_or] at ht
      rw [Dict.get?_insert, if_neg ht.2, h.ahead t ht.1]
    · rw [List.append_nil]
      exact h.exits
  | writtenOff hge hbar hpos =>
    rw [hnext] at hge
    refine ⟨fun t position ht => ?_, fun t ht => ?_, ?_⟩
    · dsimp only [writeOff] at ht ⊢
      rw [Dict.get?_erase] at ht
      split at ht
      · cases ht
      · rename_i htick
        obtain ⟨hheld, hdone⟩ := h.kept t position ht
        refine ⟨hheld, fun ht => ?_⟩
        rw [Dict.get?_erase, if_neg htick]
        exact hdone ((List.mem_append.mp ht).resolve_right fun hmem =>
          htick (List.mem_singleton.mp hmem))
    · simp only [List.mem_append, List.mem_singleton, not_or] at ht
      dsimp only [writeOff]
      rw [Dict.get?_erase, if_neg ht.2, h.ahead t ht.1]
    · intro e he
      rw [List.filterMap_append] at he
      rcases List.mem_append.mp he with he | he
      · exact h.exits e he
      · cases List.mem_singleton.mp he
        exact ⟨rfl, hbar, Dict.mem_of_get? (h.kept ticker _ hpos).1, hge⟩

theorem writeOffStalePositions_swept {config : BacktestRunConfig F} {s : StaleBook F}
    (hgrace : 1 ≤ config.delistingGraceDays)
    (h : writeOffStalePositions spec config date bars s = .ok (s', out)) :
    Swept config date bars s s' out := by
  have hpos : ¬config.delistingGraceDays ≤ 0 := by omega
  rw [writeOffStalePositions, if_neg hpos] at h
  have hloop := traceM_run (I := Sweeping config date bars s) (d := []) (l := []) h
    ⟨fun t p hp => ⟨hp, nofun⟩, fun _ _ => rfl, nofun⟩ ?_
  · refine ⟨fun t position hp => ?_, hloop.exits⟩
    obtain ⟨hheld, hdone⟩ := hloop.kept t position hp
    exact ⟨hheld, hdone (Dict.mem_of_get? hheld)⟩
  · intro done rest log b ticker b' o hsplit hs hst
    have hnodup : (done ++ ticker :: rest).Nodup := by
      have hsplit : s.book.positions.keys = done ++ ticker :: rest := hsplit
      exact hsplit ▸ s.book.positions.keys_nodup
    have hnew : ticker ∉ done := fun hmem =>
      (List.nodup_append.mp hnodup).2.2 _ hmem _ (List.mem_cons_self ..) rfl
    exact hs.step hnew (writeOffStalePosition_counts hgrace hst)

/-- A position of the session was held before it, or was bought on it with a bar. -/
def EnteredBy (date : Date) (bars : Bars F) (held : Dict Ticker (Position F)) (book : Book F) : Prop :=
  book.positions.All fun ticker position =>
    (position.entryDate = date ∧ ticker ∈ bars) ∨
      ∃ before, held.get? ticker = some before ∧ before.entryDate = position.entryDate

theorem AppliedCases.enteredBy {book : Book F}
    (h : AppliedCases book ticker position kind book' applied)
    (hpos : book.positions.get? ticker = some position) (hb : EnteredBy date bars held book) :
    EnteredBy date bars held book' := by
  cases h with
  | split =>
    have hentered := hb _ _ hpos
    exact Dict.All.insert hb hentered
  | dividend => exact hb
  | delist => exact Dict.All.erase hb _

theorem enteredBy_invariant (spec : StrategySpec F) (config : BacktestRunConfig F) (date : Date)
    (bars : Bars F) (held : Dict Ticker (Position F)) :
    BookInvariant spec config date bars True fun _ => EnteredBy date bars held where
  action h hcases _ := by
    cases hcases with
    | skipped => exact h
    | applied hdate hpos happ => exact (applyToPosition_cases happ).enteredBy hpos h
  sell h hside hcases := by
    cases hcases with
    | declined => exact h
    | filled hpos =>
      dsimp only [settleSell]
      split
      · exact Dict.All.erase h _
      · have hentered := h _ _ hpos
        exact Dict.All.insert h hentered
  buy h hside _ hcases := by
    cases hcases with
    | declined => exact h
    | filled hbar => exact Dict.All.insert h (.inl ⟨rfl, Dict.mem_of_get? hbar⟩)
  stale h hcases := by
    cases hcases with
    | counted => exact h
    | writtenOff => exact Dict.All.erase h _
  silent h _ := h

omit [PyFloat F] in
theorem Silent.writeOff {e : Entry F} (h : Silent e) : e.writeOff? = none := by
  cases h with
  | declined hd => cases hd <;> rfl
  | _ => rfl

omit [PyFloat F] in
theorem silent_writeOffs {out : List (Entry F)} (h : ∀ e ∈ out, Silent e) :
    out.filterMap Entry.writeOff? = [] :=
  List.filterMap_eq_nil_iff.mpr fun e he => (h e he).writeOff

theorem applyCorporateActions_writeOffs {book : Book F}
    (h : applyCorporateActions spec date book = .ok (book', out)) :
    out.filterMap Entry.writeOff? = [] := by
  refine traceM_filterMap_nil (P := fun _ => True) h trivial ?_
  intro b event b' o _ _ hst
  cases applyCorporateAction_cases hst <;> exact ⟨trivial, rfl⟩

theorem executePendingOrders_writeOffs {book : Book F}
    (h : executePendingOrders spec date bars book pending = .ok (book', out)) :
    out.filterMap Entry.writeOff? = [] := by
  obtain ⟨⟨sold, sellLog⟩, hsells, h⟩ := bind_ok_iff.mp h
  obtain ⟨⟨bought, buyLog⟩, hbuys, h⟩ := bind_ok_iff.mp h
  cases h
  have hsold : sellLog.filterMap Entry.writeOff? = [] := by
    refine traceM_filterMap_nil (P := fun _ => True) hsells trivial ?_
    intro b order b' o _ _ hst
    cases executeSell_cases hst with
    | declined hd => cases hd <;> exact ⟨trivial, rfl⟩
    | filled => exact ⟨trivial, rfl⟩
  have hbought : buyLog.filterMap Entry.writeOff? = [] := by
    refine traceM_filterMap_nil (P := fun _ => True) hbuys trivial ?_
    intro b order b' o _ _ hst
    cases executeBuy_cases hst with
    | declined hd => cases hd <;> exact ⟨trivial, rfl⟩
    | filled => exact ⟨trivial, rfl⟩
  rw [List.filterMap_append, List.filterMap_append, silent_writeOffs rejected_silent, hsold, hbought]
  rfl

/-- A session seen from its write-off pass. -/
structure Swept.Session (eng : BacktestEngine F) (s : EngineState F) (date : Date) (bars : Bars F)
    (book : Book F) (forced : StaleBook F) (s' : EngineState F) (out : List (Entry F)) : Prop where
  entered : EnteredBy date bars s.positions book
  swept : ∃ forcedLog,
    writeOffStalePositions eng.spec eng.config date bars ⟨book, s.staleDays⟩ =
      .ok (forced, forcedLog) ∧
    out.filterMap Entry.writeOff? = forcedLog.filterMap Entry.writeOff?
  staleDays : s'.staleDays = forced.staleDays
  positions : s'.positions = refreshLastPrices bars forced.book.positions

theorem session_swept {eng : BacktestEngine F} (hl : Lifecycle past log s)
    (h : session eng included s date = .ok (s', out)) :
    ∃ bars book forced, eng.todayBars included date = some bars ∧
      Swept.Session eng s date bars book forced s' out := by
  obtain ⟨bars, hbars, h⟩ := bind_ok_iff.mp h
  obtain ⟨corporate, hcorp, h⟩ := bind_ok_iff.mp h
  obtain ⟨executed, hexec, h⟩ := bind_ok_iff.mp h
  obtain ⟨forced, hforced, h⟩ := bind_ok_iff.mp h
  obtain ⟨generated, hgen, h⟩ := bind_ok_iff.mp h
  cases h
  have hbars : eng.todayBars included date = some bars := by
    cases hb : eng.todayBars included date with
    | none =>
      rw [hb] at hbars
      cases hbars
    | some b =>
      rw [hb] at hbars
      cases hbars
      rfl
  have hI := enteredBy_invariant eng.spec eng.config date bars s.positions
  have hstart : EnteredBy date bars s.positions s.book := fun t p hp => .inr ⟨p, hp, rfl⟩
  have hacted : EnteredBy date bars s.positions corporate.1 := by
    apply hI.corporateActions hstart hcorp fun _ _ _ => trivial
    exact log
  have hfilled : EnteredBy date bars s.positions executed.1 := by
    apply hI.pendingOrders hacted hl.buys_nodup hexec
    exact log
  refine ⟨bars, executed.1, forced.1, hbars, hfilled, ⟨forced.2, hforced, ?_⟩, rfl, rfl⟩
  have hsilent := silent_writeOffs (generateSignalsForDate_queues hgen).silent
  simp only [List.filterMap_append, applyCorporateActions_writeOffs hcorp,
    executePendingOrders_writeOffs hexec, hsilent, List.nil_append, List.append_nil]
  exact List.append_nil _

/-- The stale-day counts of the held names against the calendar of their bars. -/
structure StaleCounted (eng : BacktestEngine F) (included : List Ticker) (past : List Date)
    (s : EngineState F) : Prop where
  entered : s.positions.All fun ticker position =>
    position.entryDate ∈ past ∧ hasBar eng included ticker position.entryDate = true
  count : s.positions.All fun ticker position =>
    (s.staleDays.get? ticker).getD 0 =
      (barlessSessions eng included past position.entryDate ticker : ℤ)
  waiting : s.positions.All fun ticker position =>
    (barlessSessions eng included past position.entryDate ticker : ℤ) < eng.config.delistingGraceDays

/-- A write-off of the log, on the session that ends the grace of a held position. -/
def ExactWriteOff (eng : BacktestEngine F) (included : List Ticker) (days : List Date)
    (e : Date × WriteOff F) : Prop :=
  ∃ before after s log position, days = before ++ e.1 :: after ∧
    traceM (session eng included) eng.initialState before = .ok (s, log) ∧
    s.positions.get? e.2.ticker = some position ∧
    (barlessSessions eng included (before ++ [e.1]) position.entryDate e.2.ticker : ℤ) =
      eng.config.delistingGraceDays

/-- The new count of a name held before the session is its barless sessions up to today. -/
theorem StaleCounted.next {eng : BacktestEngine F} (h : StaleCounted eng included past s)
    (hlater : ∀ d ∈ past, d < date) (hbars : eng.todayBars included date = some bars)
    (hpos : s.positions.get? ticker = some position) :
    nextStale bars s.staleDays ticker =
      (barlessSessions eng included (past ++ [date]) position.entryDate ticker : ℤ) := by
  have hentry : position.entryDate < date := hlater _ (h.entered ticker position hpos).1
  rw [barlessSessions_snoc, hasBar_eq hbars, nextStale, h.count ticker position hpos]
  by_cases hbar : ticker ∈ bars
  · rw [if_pos hbar, if_neg (by simp [hbar])]
    rfl
  · rw [if_neg hbar, if_pos ⟨hentry, decide_eq_false hbar⟩]
    rfl

theorem StaleCounted.session {eng : BacktestEngine F} (h : StaleCounted eng included past s)
    (hgrace : 1 ≤ eng.config.delistingGraceDays) (hlater : ∀ d ∈ past, d < date)
    (hbars : eng.todayBars included date = some bars)
    (hsess : Swept.Session eng s date bars book forced s' out) :
    StaleCounted eng included (past ++ [date]) s' ∧
      ∀ e ∈ out.filterMap Entry.writeOff?, e.1 = date ∧ ∃ position,
        s.positions.get? e.2.ticker = some position ∧
        (barlessSessions eng included (past ++ [date]) position.entryDate e.2.ticker : ℤ) =
          eng.config.delistingGraceDays := by
  obtain ⟨forcedLog, hforced, hout⟩ := hsess.swept
  have hswept := writeOffStalePositions_swept hgrace hforced
  have hcount : ∀ ticker position, book.positions.get? ticker = some position →
      (position.entryDate ∈ past ++ [date] ∧ hasBar eng included ticker position.entryDate = true) ∧
      nextStale bars s.staleDays ticker =
        (barlessSessions eng included (past ++ [date]) position.entryDate ticker : ℤ) := by
    intro ticker position hpos
    rcases hsess.entered ticker position hpos with ⟨hdate, hbar⟩ | ⟨before, hbefore, hentry⟩
    · refine ⟨⟨List.mem_append_right _ (List.mem_singleton.mpr hdate), ?_⟩, ?_⟩
      · rw [hdate, hasBar_eq hbars]
        exact decide_eq_true hbar
      rw [barlessSessions_snoc, if_neg (by simp [hdate]), nextStale, if_pos hbar]
      rfl
    · rw [← hentry]
      obtain ⟨hmem, hbar⟩ := h.entered ticker before hbefore
      exact ⟨⟨List.mem_append_left _ hmem, hbar⟩, h.next hlater hbars hbefore⟩
  have hkept : s'.positions.All fun ticker position =>
      (position.entryDate ∈ past ++ [date] ∧ hasBar eng included ticker position.entryDate = true) ∧
      (s'.staleDays.get? ticker).getD 0 =
        (barlessSessions eng included (past ++ [date]) position.entryDate ticker : ℤ) ∧
      (barlessSessions eng included (past ++ [date]) position.entryDate ticker : ℤ) <
        eng.config.delistingGraceDays := by
    rw [hsess.positions, hsess.staleDays]
    refine Dict.All.mapVal hswept.kept fun ticker position ⟨hheld, hstale, hlt⟩ => ?_
    obtain ⟨hentry, hnext⟩ := hcount ticker position hheld
    have hsame : ((bars.get? ticker).elim position fun bar =>
        { position with lastPrice := bar.close }).entryDate = position.entryDate := by
      cases bars.get? ticker <;> rfl
    rw [hsame]
    exact ⟨hentry, hstale.trans hnext, hnext ▸ hlt⟩
  refine ⟨⟨fun t p hp => (hkept t p hp).1, fun t p hp => (hkept t p hp).2.1,
    fun t p hp => (hkept t p hp).2.2⟩, fun e he => ?_⟩
  rw [hout] at he
  obtain ⟨hdate, hbar, hheld, hge⟩ := hswept.exits e he
  obtain ⟨position, hpos⟩ := Dict.mem_iff_get?.mp hheld
  rcases hsess.entered _ position hpos with ⟨-, hmem⟩ | ⟨before, hbefore, -⟩
  · exact absurd hmem hbar
  · refine ⟨hdate, before, hbefore, ?_⟩
    have hnext := h.next hlater hbars hbefore
    have hstale : nextStale bars s.staleDays e.2.ticker =
        (barlessSessions eng included past before.entryDate e.2.ticker : ℤ) + 1 := by
      rw [nextStale, if_neg hbar, h.count _ before hbefore]
    have hwait := h.waiting _ before hbefore
    rw [← hnext]
    exact le_antisymm (by omega) hge

theorem run_staleCounted {eng : BacktestEngine F} (hgrace : 1 ≤ eng.config.delistingGraceDays)
    (hdays : days.Pairwise (· < ·))
    (h : traceM (session eng included) eng.initialState days = .ok (s, log)) :
    StaleCounted eng included days s ∧
      ∀ e ∈ log.filterMap Entry.writeOff?, ExactWriteOff eng included days e := by
  have hrun := traceM_run (I := fun done l t =>
    (StaleCounted eng included done t ∧
      ∀ e ∈ l.filterMap Entry.writeOff?, ExactWriteOff eng included days e) ∧
      traceM (session eng included) eng.initialState done = .ok (t, l)) (d := []) (l := [])
    h ⟨⟨⟨nofun, nofun, nofun⟩, nofun⟩, rfl⟩ ?_
  · exact hrun.1
  · intro done rest l t date t' o hsplit ⟨⟨hcounted, hexact⟩, hprefix⟩ hst
    have hsplit : days = done ++ date :: rest := hsplit
    obtain ⟨hdone, -, hlater⟩ := List.pairwise_append.mp (hsplit ▸ hdays)
    obtain ⟨bars, book, forced, hbars, hsess⟩ := session_swept (run_lifecycle hdone hprefix) hst
    obtain ⟨hnext, hexits⟩ := hcounted.session hgrace
      (fun d hd => hlater d hd date (List.mem_cons_self ..)) hbars hsess
    refine ⟨⟨hnext, fun e he => ?_⟩, traceM_snoc_ok hprefix hst⟩
    rw [List.filterMap_append] at he
    rcases List.mem_append.mp he with he | he
    · exact hexact e he
    · obtain ⟨hdate, position, hpos, hcount⟩ := hexits e he
      exact ⟨done, rest, t, l, position, hdate ▸ hsplit, hprefix, hpos, hdate ▸ hcount⟩

omit [PyFloat F] in
theorem expireAtEnd_writeOffs (days : List Date) (s : EngineState F) :
    (BacktestEngine.expireAtEnd days s).filterMap Entry.writeOff? = [] :=
  silent_writeOffs (expireAtEnd_silent days s)

/-- Positions are written off on the session that ends their grace, and no later. -/
theorem BacktestEngine.writeOffs_exact {eng : BacktestEngine F}
    (hgrace : 1 ≤ eng.config.delistingGraceDays) (h : eng.trace = .ok (selected, final, log)) :
    (∀ past rest, eng.sessions selected.1 = past ++ rest → ∃ s pastLog,
      traceM (session eng selected.1) eng.initialState past = .ok (s, pastLog) ∧
        s.positions.All fun ticker position =>
          (barlessSessions eng selected.1 past position.entryDate ticker : ℤ) <
            eng.config.delistingGraceDays) ∧
    ∀ date w, Entry.audit (.delistedWriteOff date w) ∈ log →
      ExactWriteOff eng selected.1 (eng.sessions selected.1) (date, w) := by
  obtain ⟨days, hlooped, rfl⟩ := trace_looped h
  have hdays := sessions_increasing eng selected.1
  refine ⟨fun past rest hsplit => ?_, fun date w hmem => ?_⟩
  · have hloop := hlooped.loop
    rw [hsplit] at hloop hdays
    obtain ⟨s, pastLog, -, hpast, -, -⟩ := traceM_append_ok.mp hloop
    have hcounted := (run_staleCounted hgrace (List.pairwise_append.mp hdays).1 hpast).1
    exact ⟨s, pastLog, hpast, hcounted.waiting⟩
  · have he : (date, w) ∈ (days ++ BacktestEngine.expireAtEnd (eng.sessions selected.1)
        final).filterMap Entry.writeOff? := List.mem_filterMap.mpr ⟨_, hmem, rfl⟩
    rw [List.filterMap_append, expireAtEnd_writeOffs, List.append_nil] at he
    exact (run_staleCounted hgrace hdays hlooped.loop).2 _ he

theorem trace_run {eng : BacktestEngine F} (h : eng.trace = .ok (selected, s, log)) :
    ∃ result, eng.run = .ok result ∧ result.summary = eng.summary selected s log := by
  refine ⟨_, bind_ok_iff.mpr ⟨_, h, rfl⟩, rfl⟩

/-- Without a grace the counts are never kept. -/
theorem run_staleDays_empty {eng : BacktestEngine F} (hgrace : eng.config.delistingGraceDays ≤ 0)
    (hdays : days.Pairwise (· < ·))
    (h : traceM (session eng included) eng.initialState days = .ok (s, log)) :
    s.staleDays = Dict.empty := by
  have hrun := traceM_run (I := fun done l t => t.staleDays = Dict.empty ∧
    traceM (session eng included) eng.initialState done = .ok (t, l)) (d := []) (l := [])
    h ⟨rfl, rfl⟩ ?_
  · exact hrun.1
  · intro done rest l t date t' o hsplit ⟨hempty, hprefix⟩ hst
    have hsplit : days = done ++ date :: rest := hsplit
    have hdone : done.Pairwise (· < ·) := (List.pairwise_append.mp (hsplit ▸ hdays)).1
    obtain ⟨bars, book, forced, -, hsess⟩ := session_swept (run_lifecycle hdone hprefix) hst
    obtain ⟨forcedLog, hforced, -⟩ := hsess.swept
    rw [writeOffStalePositions, if_pos hgrace] at hforced
    cases hforced
    exact ⟨hsess.staleDays.trans hempty, traceM_snoc_ok hprefix hst⟩

end

/-- The ticker has a bar on the last of the sessions. -/
def quotedAtEnd (eng : BacktestEngine ℚ) (included : List Ticker) (days : List Date)
    (ticker : Ticker) : Bool :=
  days.getLast?.elim false (hasBar eng included ticker)

/-- What the names held at the end without a bar on the last session are worth at their last
known prices. -/
def unrealizableValue (eng : BacktestEngine ℚ) (included : List Ticker) (days : List Date)
    (s : EngineState ℚ) : ℚ :=
  s.positions.sum fun ticker position =>
    if quotedAtEnd eng included days ticker = true then 0
    else position.quantity * (lastKnownPrice eng included days ticker).getD 0

theorem sum_map_filter (f : α → ℚ) (p : α → Bool) (l : List α) :
    ((l.filter p).map f).sum = (l.map fun a => if p a = true then f a else 0).sum := by
  induction l with
  | nil => rfl
  | cons a l ih =>
    rw [List.map_cons, List.sum_cons, ← ih]
    cases hp : p a with
    | true => simp [hp]
    | false => simp [hp]

/-- The positions with a stale count, at the prices they carry. -/
theorem summary_unrealizableEquity (eng : BacktestEngine ℚ)
    (selected : List Ticker × List ExcludedTicker) (s : EngineState ℚ) (log : List (Entry ℚ)) :
    (eng.summary selected s log).unrealizableEquity = PyFloat.round 6 (s.positions.sum
      fun ticker position => if 0 < (s.staleDays.get? ticker).getD 0 then
        position.quantity * position.lastPrice else 0) := by
  dsimp only [BacktestEngine.summary]
  rw [rat_pySum, sum_map_filter]
  simp only [decide_eq_true_eq]
  rfl

/-- A held name has a stale count exactly when it had no bar on the last session. -/
theorem StaleCounted.stale_iff {eng : BacktestEngine ℚ} (h : StaleCounted eng included days s)
    (hdays : days.Pairwise (· < ·)) (hpos : s.positions.get? ticker = some position) :
    0 < (s.staleDays.get? ticker).getD 0 ↔ quotedAtEnd eng included days ticker = false := by
  obtain ⟨hentry, hbar⟩ := h.entered ticker position hpos
  rw [h.count ticker position hpos]
  rcases List.eq_nil_or_concat days with rfl | ⟨past, date, rfl⟩
  · cases hentry
  · rw [List.concat_eq_append] at hdays hentry ⊢
    have hlast : quotedAtEnd eng included (past ++ [date]) ticker =
        hasBar eng included ticker date := by
      rw [quotedAtEnd, List.getLast?_concat]
      rfl
    rw [hlast, barlessSessions_snoc]
    by_cases hdate : position.entryDate = date
    · rw [hdate] at hbar
      simp [hbar]
    · have hlater : position.entryDate < date := by
        have hpast := (List.mem_append.mp hentry).resolve_right fun hmem =>
          hdate (List.mem_singleton.mp hmem)
        exact (List.pairwise_append.mp hdays).2.2 _ hpast _ (List.mem_cons_self ..)
      cases hasBar eng included ticker date with
      | true => simp
      | false =>
        rw [if_pos ⟨hlater, rfl⟩]
        simp only [iff_true]
        omega

theorem unrealizable_reported {eng : BacktestEngine ℚ} (hgrace : 1 ≤ eng.config.delistingGraceDays)
    (h : Looped eng selected s days) (log : List (Entry ℚ)) :
    (eng.summary selected s log).unrealizableEquity =
      PyFloat.round 6 (unrealizableValue eng selected.1 (eng.sessions selected.1) s) := by
  have hdays := sessions_increasing eng selected.1
  have hcounted := (run_staleCounted hgrace hdays h.loop).1
  have hknown := run_pricesKnown hdays h.loop
  rw [summary_unrealizableEquity, unrealizableValue]
  congr 1
  apply Dict.sum_congr
  intro ticker position hpos
  have hprice : lastKnownPrice eng selected.1 (eng.sessions selected.1) ticker =
      some position.lastPrice := hknown ticker position hpos
  rw [hprice, Option.getD_some]
  by_cases hquoted : quotedAtEnd eng selected.1 (eng.sessions selected.1) ticker = true
  · rw [if_pos hquoted, if_neg]
    rw [hcounted.stale_iff hdays hpos, hquoted]
    nofun
  · rw [if_neg hquoted, if_pos]
    rw [hcounted.stale_iff hdays hpos]
    exact Bool.not_eq_true _ ▸ hquoted

theorem round_zero (n : ℕ) : (PyFloat.round n (0 : ℚ)) = 0 := by
  have hzero : roundHalfEven 0 = 0 := by decide +kernel
  change ((roundHalfEven (0 * 10 ^ n) : ℚ) / 10 ^ n) = 0
  rw [zero_mul, hzero, Int.cast_zero, zero_div]

theorem unrealizable_unreported {eng : BacktestEngine ℚ}
    (hgrace : eng.config.delistingGraceDays ≤ 0) (h : Looped eng selected s days)
    (log : List (Entry ℚ)) : (eng.summary selected s log).unrealizableEquity = 0 := by
  have hempty := run_staleDays_empty hgrace (sessions_increasing eng selected.1) h.loop
  rw [summary_unrealizableEquity, hempty]
  simp only [Dict.get?_empty, Option.getD_none, lt_self_iff_false, if_false]
  have hsum : (s.positions.sum fun _ _ => (0 : ℚ)) = 0 := by simp [Dict.sum]
  rw [hsum, round_zero]

/-- The summary reports what the halted names are worth unless a grace of zero turns the counts
off while some of them are worth something. -/
theorem BacktestEngine.unrealizable_iff {eng : BacktestEngine ℚ} (h : eng.run = .ok result) :
    ∃ selected s log, eng.trace = .ok (selected, s, log) ∧
      (result.summary.unrealizableEquity =
          PyFloat.round 6 (unrealizableValue eng selected.1 (eng.sessions selected.1) s) ↔
        1 ≤ eng.config.delistingGraceDays ∨
          PyFloat.round 6 (unrealizableValue eng selected.1 (eng.sessions selected.1) s) = 0) := by
  obtain ⟨⟨selected, s, log⟩, htrace, hrest⟩ := bind_ok_iff.mp h
  cases hrest
  obtain ⟨days, hlooped, -⟩ := trace_looped htrace
  refine ⟨selected, s, log, htrace, ?_⟩
  rcases le_or_gt eng.config.delistingGraceDays 0 with hgrace | hgrace
  · have hoff : ¬1 ≤ eng.config.delistingGraceDays := by omega
    rw [unrealizable_unreported hgrace hlooped, or_iff_right hoff]
    exact eq_comm
  · exact iff_of_true (unrealizable_reported hgrace hlooped log) (.inl hgrace)

/-- A name that is bought on the second session and has no bar after it. -/
def haltedRows : EngineRows ℚ where
  rows :=
    [⟨1, "000660", 100, 104, 96, 103, 1000, some 10000000⟩,
      ⟨1, "005930", 50, 51, 48, 49, 1000, some 10000000⟩,
      ⟨2, "000660", 105, 108, 100, 106, 1000, some 10000000⟩,
      ⟨2, "005930", 49, 50, 46, 47, 1000, some 10000000⟩,
      ⟨3, "005930", 47, 48, 45, 46, 1000, some 10000000⟩,
      ⟨4, "005930", 46, 47, 44, 45, 1000, some 10000000⟩]
  metricRows := fun _ _ => none
  inputsNormalized := false
  promised := nofun

def haltedEngine (delistingGraceDays : ℤ) : BacktestEngine ℚ :=
  .ofRows buildSampleSpec { defaultConfig with delistingGraceDays } haltedRows none none

theorem haltedEngine_writeOffs : ∃ selected final log,
    (haltedEngine 2).trace = .ok (selected, final, log) ∧
    (∃ date w, Entry.audit (.delistedWriteOff date w) ∈ log ∧ date = 4 ∧
      ExactWriteOff (haltedEngine 2) selected.1 ((haltedEngine 2).sessions selected.1) (date, w)) ∧
    final.positions.All fun ticker position =>
      (barlessSessions (haltedEngine 2) selected.1 ((haltedEngine 2).sessions selected.1)
        position.entryDate ticker : ℤ) < 2 := by
  have htrace : ((haltedEngine 2).trace.map fun r =>
      (r.2.2.filterMap Entry.writeOff?).map Prod.fst) = .ok [4] := by
    decide +kernel
  obtain ⟨⟨selected, final, log⟩, hok, hdates⟩ := map_ok_iff.mp htrace
  have hgrace : 1 ≤ (haltedEngine 2).config.delistingGraceDays := by decide
  obtain ⟨hwaiting, hexact⟩ := BacktestEngine.writeOffs_exact hgrace hok
  obtain ⟨e, he, hdate⟩ := List.mem_map.mp (hdates ▸ List.mem_singleton.mpr rfl)
  obtain ⟨entry, hentry, hout⟩ := List.mem_filterMap.mp he
  have hentry : Entry.audit (.delistedWriteOff e.1 e.2) ∈ log := by
    cases entry with
    | audit event =>
      cases event with
      | delistedWriteOff date w =>
        cases hout
        exact hentry
      | _ => cases hout
    | _ => cases hout
  obtain ⟨s, pastLog, hloop, hall⟩ := hwaiting _ [] (List.append_nil _).symm
  obtain ⟨days, hlooped, -⟩ := trace_looped hok
  cases hlooped.loop.symm.trans hloop
  exact ⟨selected, final, log, hok, ⟨e.1, e.2, hentry, hdate, hexact _ _ hentry⟩, hall⟩

/-- A grace longer than the data keeps the halted name and reports it. -/
theorem haltedEngine_reported : ∃ result selected s log,
    (haltedEngine 5).run = .ok result ∧ (haltedEngine 5).trace = .ok (selected, s, log) ∧
    result.summary.unrealizableEquity = PyFloat.round 6
      (unrealizableValue (haltedEngine 5) selected.1 ((haltedEngine 5).sessions selected.1) s) := by
  have hok : (haltedEngine 5).run.isOk = true := by decide +kernel
  obtain ⟨result, hrun⟩ := exists_ok hok
  obtain ⟨selected, s, log, htrace, hiff⟩ := BacktestEngine.unrealizable_iff hrun
  exact ⟨result, selected, s, log, hrun, htrace, hiff.mpr (.inl (by decide))⟩

theorem haltedEngine_unreported : ∃ selected s log result,
    (haltedEngine 0).trace = .ok (selected, s, log) ∧ (haltedEngine 0).run = .ok result ∧
    result.summary.unrealizableEquity ≠ PyFloat.round 6
      (unrealizableValue (haltedEngine 0) selected.1 ((haltedEngine 0).sessions selected.1) s) := by
  have htrace : ((haltedEngine 0).trace.map fun r =>
      decide (PyFloat.round 6 (unrealizableValue (haltedEngine 0) r.1.1
        ((haltedEngine 0).sessions r.1.1) r.2.1) = 0)) = .ok false := by
    decide +kernel
  obtain ⟨⟨selected, s, log⟩, hok, hvalue⟩ := map_ok_iff.mp htrace
  obtain ⟨days, hlooped, -⟩ := trace_looped hok
  obtain ⟨result, hrun, hsummary⟩ := trace_run hok
  refine ⟨selected, s, log, result, hok, hrun, ?_⟩
  rw [hsummary, unrealizable_unreported (le_refl _) hlooped]
  exact Ne.symm (of_decide_eq_false hvalue)

end QuantAgent
