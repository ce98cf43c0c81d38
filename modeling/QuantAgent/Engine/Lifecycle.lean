import QuantAgent.Engine.Passes
import QuantAgent.Lib.Obligations

namespace QuantAgent
set_option autoImplicit true

/-- What identifies an order on the audit. -/
structure OrderKey where
  ticker : Ticker
  side : Side
  signalDate : Date
deriving DecidableEq

def PendingOrder.key (order : PendingOrder F) : OrderKey :=
  ⟨order.ticker, order.side, order.signalDate⟩

/-- The order a `submitted` event opens. -/
def AuditEvent.opened? : AuditEvent F → Option OrderKey
  | .submitted order _ => some order.key
  | _ => none

/-- The order a terminal event closes. -/
def AuditEvent.closed? : AuditEvent F → Option OrderKey
  | .executed _ order _ => some order.key
  | .expiredNextSession _ order => some order.key
  | .unfilledInvalidOpen _ order _ => some order.key
  | .ignoredMissingPosition _ order => some order.key
  | .unfilledCapacity _ order _ _ _ => some order.key
  | .skippedMaxPositions _ order => some order.key
  | .unfilled _ order _ _ _ => some order.key
  | .expiredNoNextSession _ order => some order.key
  | _ => none

/-- The statuses that end an order. -/
def AuditStatus.terminal : AuditStatus → Bool
  | .executed => true
  | .expiredNextSession => true
  | .unfilledInvalidOpen => true
  | .ignoredMissingPosition => true
  | .unfilledCapacity => true
  | .skippedMaxPositions => true
  | .unfilled => true
  | .expiredNoNextSession => true
  | _ => false

/-- Two audit records about the same order. -/
structure OrderAuditRecord.SameOrder (r r' : OrderAuditRecord F) : Prop where
  ticker : r.ticker = r'.ticker
  side : r.side = r'.side
  signalDate : r.signalDate = r'.signalDate

abbrev audits (log : List (Entry F)) : List (AuditEvent F) := log.filterMap Entry.audit?

/-- `b` comes right after `a` among the sessions. -/
def NextSession (sessions : List Date) (a b : Date) : Prop :=
  ∃ n : ℕ, sessions[n]? = some a ∧ sessions[n + 1]? = some b

theorem NextSession.append (h : NextSession sessions a b) (more : List Date) :
    NextSession (sessions ++ more) a b := by
  obtain ⟨n, ha, hb⟩ := h
  have hn := (List.getElem?_eq_some_iff.mp hb).1
  exact ⟨n, by rwa [List.getElem?_append_left (by omega)],
    by rwa [List.getElem?_append_left hn]⟩

theorem NextSession.of_getLast (h : sessions.getLast? = some a) (b : Date) :
    NextSession (sessions ++ [b]) a b := by
  obtain ⟨ys, rfl⟩ := List.getLast?_eq_some_iff.mp h
  exact ⟨ys.length, by simp, by simp⟩

theorem Side.value_injective : Function.Injective Side.value := by
  intro a b h
  cases a <;> cases b <;> first | rfl | simp [Side.value] at h

section
variable {F : Type} [PyFloat F]

/-- An event that closes an order at the open of a session. -/
inductive Settled (date : Date) (order : PendingOrder F) : AuditEvent F → Prop
  | declined : Declined date order e → Settled date order e
  | executed : Settled date order (.executed date order fill)

omit [PyFloat F] in
theorem Settled.closed (h : Settled date order (e : AuditEvent F)) :
    e.closed? = some order.key := by
  cases h with
  | declined h => cases h <;> rfl
  | executed => rfl

omit [PyFloat F] in
theorem Settled.opened (h : Settled date order (e : AuditEvent F)) : e.opened? = none := by
  cases h with
  | declined h => cases h <;> rfl
  | executed => rfl

theorem Settled.dated (h : Settled date order (e : AuditEvent F)) :
    e.record.date = date ∧ e.record.status ≠ .expiredNoNextSession := by
  cases h with
  | declined h => cases h <;> exact ⟨rfl, nofun⟩
  | executed => exact ⟨rfl, nofun⟩

omit [PyFloat F] in
theorem settled_closed {orders : List (PendingOrder F)} {events : List (AuditEvent F)}
    (h : List.Forall₂ (Settled date) orders events) :
    events.filterMap AuditEvent.closed? = orders.map PendingOrder.key := by
  induction h with
  | nil => rfl
  | cons h _ ih => rw [List.filterMap_cons_some h.closed, ih, List.map_cons]

omit [PyFloat F] in
theorem settled_opened {orders : List (PendingOrder F)} {events : List (AuditEvent F)}
    (h : List.Forall₂ (Settled date) orders events) :
    events.filterMap AuditEvent.opened? = [] := by
  induction h with
  | nil => rfl
  | cons h _ ih => rw [List.filterMap_cons_none h.opened, ih]

theorem rejected_settled (date : Date) (bars : Bars F) (orders : List (PendingOrder F)) :
    List.Forall₂ (Settled date)
      (orders.filter fun order => (rejectAtOpen date bars order).isSome)
      (orders.filterMap (rejectAtOpen date bars)) := by
  induction orders with
  | nil => exact .nil
  | cons order orders ih =>
    cases h : rejectAtOpen date bars order with
    | none => simpa [h] using ih
    | some e => simpa [h] using ⟨.declined (rejectAtOpen_declined h), ih⟩

theorem sellCases_settled {book : Book F} (h : SellCases spec date bars book order (book', out)) :
    (∃ e, audits out = [e] ∧ Settled date order e) ∧
      ∀ t, t ∈ book'.positions → t ∈ book.positions := by
  cases h with
  | declined h => exact ⟨⟨_, rfl, .declined h⟩, fun _ => id⟩
  | filled hpos =>
    refine ⟨⟨_, rfl, .executed⟩, fun t ht => ?_⟩
    dsimp only [settleSell] at ht
    split at ht
    · exact (Dict.mem_erase.mp ht).2
    · rcases Dict.mem_insert.mp ht with rfl | ht
      · exact Dict.mem_of_get? hpos
      · exact ht

theorem buyCases_settled {book : Book F}
    (h : BuyCases spec date bars orderCount book order (book', out)) :
    ∃ e, audits out = [e] ∧ Settled date order e := by
  cases h with
  | declined h => exact ⟨_, rfl, .declined h⟩
  | filled => exact ⟨_, rfl, .executed⟩

theorem executePendingOrders_equity {book : Book F}
    (h : executePendingOrders spec date bars book pending = .ok (book', out)) :
    out.filterMap Entry.equity? = [] := by
  obtain ⟨⟨sold, sellLog⟩, hsells, h⟩ := bind_ok_iff.mp h
  obtain ⟨⟨bought, buyLog⟩, hbuys, h⟩ := bind_ok_iff.mp h
  cases h
  have hS : sellLog.filterMap Entry.equity? = [] := by
    refine traceM_filterMap_nil (P := fun _ => True) hsells trivial ?_
    intro b order b' o _ _ hst
    cases executeSell_cases hst <;> exact ⟨trivial, rfl⟩
  have hB : buyLog.filterMap Entry.equity? = [] := by
    refine traceM_filterMap_nil (P := fun _ => True) hbuys trivial ?_
    intro b order b' o _ _ hst
    cases executeBuy_cases hst <;> exact ⟨trivial, rfl⟩
  simp [hS, hB, Function.comp_def, Entry.equity?]

/-- Each pending order is closed by exactly one event of the session's open. -/
theorem executePendingOrders_settles {book : Book F}
    (h : executePendingOrders spec date bars book pending = .ok (book', out))
    (hdate : ∀ order ∈ pending, order.signalDate < date)
    (hbuy : ∀ order ∈ pending, order.side = .buy → order.ticker ∉ book.positions) :
    ∃ orders : List (PendingOrder F), orders.Perm pending ∧
      List.Forall₂ (Settled date) orders (audits out) := by
  obtain ⟨⟨sold, sellLog⟩, hsells, h⟩ := bind_ok_iff.mp h
  obtain ⟨⟨bought, buyLog⟩, hbuys, h⟩ := bind_ok_iff.mp h
  cases h
  have heligible : eligibleOrders date pending = pending :=
    List.filter_eq_self.mpr fun order ho => decide_eq_true (hdate order ho)
  rw [executableOrders, heligible] at hsells hbuys
  rw [heligible]
  have hsold : ∀ t, t ∈ sold.positions → t ∈ book.positions := by
    refine traceM_state (P := fun b => ∀ t, t ∈ b.positions → t ∈ book.positions) hsells
      (fun _ => id) ?_
    intro b order b' o _ hb hst t ht
    exact hb t ((sellCases_settled (executeSell_cases hst)).2 t ht)
  have hS := traceM_forall₂ (P := fun _ => True) (p := Entry.audit?) (R := Settled date) hsells
    trivial fun b order b' o _ _ hst =>
      ⟨trivial, (sellCases_settled (executeSell_cases hst)).1⟩
  have hB := traceM_forall₂ (P := fun _ => True) (p := Entry.audit?) (R := Settled date) hbuys
    trivial fun b order b' o _ _ hst => ⟨trivial, buyCases_settled (executeBuy_cases hst)⟩
  have haudits : audits ((pending.filterMap (rejectAtOpen date bars)).map Entry.audit ++ sellLog ++
      buyLog) = pending.filterMap (rejectAtOpen date bars) ++ audits sellLog ++ audits buyLog := by
    simp [audits, Function.comp_def, Entry.audit?]
  rw [haudits]
  refine ⟨_, ?_, List.rel_append (List.rel_append (rejected_settled date bars pending) hS) hB⟩
  have hkeep : ∀ order ∈ pending, (decide (order.side = .buy) &&
      decide (order.ticker ∉ sold.positions)) = !decide (order.side = .sell) := by
    intro order ho
    cases hside : order.side with
    | buy => simpa using fun ht => hbuy order ho hside (hsold _ ht)
    | sell => rfl
  have hbuyPerm := pySorted_perm buyPriorityLT
    ((pending.filter fun order => (rejectAtOpen date bars order).isNone).filter fun order =>
      decide (order.side = .buy) && decide (order.ticker ∉ sold.positions))
  dsimp only
  rw [List.append_assoc]
  refine (List.Perm.append_left _ (List.Perm.append_left _ hbuyPerm)).trans ?_
  rw [List.filter_congr fun order ho => hkeep order (List.mem_of_mem_filter ho)]
  refine (List.Perm.append_left _ (List.filter_append_perm _ _)).trans ?_
  simpa only [Option.not_isSome] using
    List.filter_append_perm (fun order => (rejectAtOpen date bars order).isSome) pending

/-- The orders a day's signals queue, against what the day logs for them. -/
structure Queued (date : Date) (positions : Dict Ticker (Position F))
    (tickers : List Ticker) (orders : List (PendingOrder F)) (out : List (Entry F)) : Prop where
  submitted : List.Forall₂ (fun order e => ∃ detail, e = AuditEvent.submitted order detail) orders
    (audits out)
  fields : ∀ order ∈ orders, order.signalDate = date ∧
    (order.side = .buy → order.ticker ∉ positions)
  sublist : (orders.map PendingOrder.ticker).Sublist tickers
  trades : out.filterMap Entry.trade? = []
  equity : out.filterMap Entry.equity? = []

omit [PyFloat F] in
theorem Queued.step (h : Queued date positions done orders log) (hs : s.orders = orders)
    (hc : QueueCases date positions s ticker (s', out)) :
    Queued (F := F) date positions (done ++ [ticker]) s'.orders (log ++ out) := by
  subst hs
  cases hc with
  | idle ho ha ht he =>
    rw [ho]
    refine ⟨?_, h.fields, h.sublist.trans (List.sublist_append_left _ _), ?_, ?_⟩
    · simpa only [audits, List.filterMap_append, ha, List.append_nil] using h.submitted
    · rw [List.filterMap_append, h.trades, ht, List.append_nil]
    · rw [List.filterMap_append, h.equity, he, List.append_nil]
  | queued ho htick hdate hside ha ht he =>
    rw [ho]
    refine ⟨?_, ?_, ?_, ?_, ?_⟩
    · rw [audits, List.filterMap_append, ha]
      exact List.rel_append h.submitted (.cons ⟨_, rfl⟩ .nil)
    · intro order hmem
      rcases List.mem_append.mp hmem with hmem | hmem
      · exact h.fields order hmem
      · rw [List.mem_singleton.mp hmem]
        exact ⟨hdate, fun hbuy => htick ▸ hside.mp hbuy⟩
    · rw [List.map_append, List.map_singleton, htick]
      exact h.sublist.append (List.Sublist.refl _)
    · rw [List.filterMap_append, h.trades, ht, List.append_nil]
    · rw [List.filterMap_append, h.equity, he, List.append_nil]

omit [PyFloat F] in
theorem queueLoop {step : SignalState F → Ticker → Except PyError (SignalState F × List (Entry F))}
    (h : traceM step ⟨pendingTickers, []⟩ tickers = .ok (s', out))
    (hstep : ∀ s ticker r, step s ticker = .ok r → QueueCases date positions s ticker r) :
    Queued date positions tickers s'.orders out := by
  refine traceM_run (I := fun done log s => Queued date positions done s.orders log) (d := [])
    (l := []) h ⟨.nil, nofun, List.Sublist.refl _, rfl, rfl⟩ ?_
  intro done rest log s ticker s'' o _ hq hst
  exact hq.step rfl (hstep s ticker _ hst)

theorem generateSignalsForDate_queues {bars : Bars F}
    (h : generateSignalsForDate eng prepared date bars positions pending = .ok (orders, out)) :
    Queued date positions (pySorted textLT bars.keys) orders out := by
  obtain ⟨⟨s, log⟩, hloop, h⟩ := bind_ok_iff.mp h
  cases h
  unfold signalLoop at hloop
  split at hloop
  · exact queueLoop hloop fun _ _ _ => generateCompactTickerSignal_cases
  · exact queueLoop hloop fun _ _ _ => generateTickerSignal_cases

omit [PyFloat F] in
theorem Queued.opened (h : Queued date positions tickers (orders : List (PendingOrder F)) out) :
    (audits out).filterMap AuditEvent.opened? = orders.map PendingOrder.key ∧
      (audits out).filterMap AuditEvent.closed? = [] := by
  have hs := h.submitted
  clear h
  generalize audits out = events at hs
  induction hs with
  | nil => exact ⟨rfl, rfl⟩
  | cons hd _ ih =>
    obtain ⟨detail, rfl⟩ := hd
    exact ⟨congrArg (_ :: ·) ih.1, ih.2⟩

omit [PyFloat F] in
theorem Queued.keys_nodup (h : Queued date positions tickers (orders : List (PendingOrder F)) out)
    (ht : List.Nodup tickers) : (orders.map PendingOrder.key).Nodup := by
  have hn := ht.sublist h.sublist
  have hcomp : orders.map PendingOrder.ticker = (orders.map PendingOrder.key).map OrderKey.ticker := by
    simp [PendingOrder.key, Function.comp_def]
  rw [hcomp] at hn
  exact hn.of_map

/-- Passes that only touch positions: they open and close no order and mark no session. -/
structure Quiet (out : List (Entry F)) : Prop where
  opened : (audits out).filterMap AuditEvent.opened? = []
  closed : (audits out).filterMap AuditEvent.closed? = []
  equity : out.filterMap Entry.equity? = []

omit [PyFloat F] in
theorem Quiet.append (h : Quiet log) (h' : Quiet (out : List (Entry F))) : Quiet (log ++ out) := by
  constructor
  · rw [audits, List.filterMap_append, List.filterMap_append, h.opened, h'.opened]
    rfl
  · rw [audits, List.filterMap_append, List.filterMap_append, h.closed, h'.closed]
    rfl
  · rw [List.filterMap_append, h.equity, h'.equity]
    rfl

theorem ActionCases.positions {book : Book F} (h : ActionCases date book event r) :
    ∀ t, t ∈ r.1.positions → t ∈ book.positions := by
  intro t ht
  cases h with
  | skipped => exact ht
  | applied hdate hpos happ =>
    cases hkind : event.eventType <;> rw [hkind] at happ <;> cases applyToPosition_cases happ
    · rcases Dict.mem_insert.mp ht with rfl | ht
      · exact Dict.mem_of_get? hpos
      · exact ht
    · exact ht
    · exact (Dict.mem_erase.mp ht).2

theorem ActionCases.quiet {book : Book F} (h : ActionCases date book event r) : Quiet r.2 := by
  cases h with
  | skipped => exact ⟨rfl, rfl, rfl⟩
  | applied => exact ⟨rfl, rfl, rfl⟩

theorem applyCorporateActions_quiet {book : Book F}
    (h : applyCorporateActions spec date book = .ok (book', out)) :
    Quiet out ∧ ∀ t, t ∈ book'.positions → t ∈ book.positions := by
  refine traceM_preserves (I := fun log b => Quiet log ∧ ∀ t, t ∈ b.positions → t ∈ book.positions)
    (l := []) h ⟨⟨rfl, rfl, rfl⟩, fun _ => id⟩ ?_
  intro log b event b' o _ ⟨hq, hsub⟩ hst
  have hcases := applyCorporateAction_cases hst
  exact ⟨hq.append hcases.quiet, fun t ht => hsub t (hcases.positions t ht)⟩

theorem writeOffStalePositions_quiet {s : StaleBook F}
    (h : writeOffStalePositions spec config date bars s = .ok (s', out)) : Quiet out := by
  unfold writeOffStalePositions at h
  split at h
  · cases h
    exact ⟨rfl, rfl, rfl⟩
  · refine traceM_preserves (I := fun log _ => Quiet log) (l := []) h ⟨rfl, rfl, rfl⟩ ?_
    intro log b ticker b' o _ hq hst
    cases writeOffStalePosition_cases hst with
    | counted => exact hq.append ⟨rfl, rfl, rfl⟩
    | writtenOff => exact hq.append ⟨rfl, rfl, rfl⟩

/-- The orders, the audit and the sessions after the days in `past`. -/
structure Lifecycle (past : List Date) (log : List (Entry F)) (s : EngineState F) : Prop where
  obligations : Obligations AuditEvent.opened? AuditEvent.closed? (audits log)
    (s.pendingOrders.map PendingOrder.key)
  pending : ∀ order ∈ s.pendingOrders, past.getLast? = some order.signalDate ∧
    (order.side = .buy → order.ticker ∉ s.positions)
  opened_past : ∀ k ∈ (audits log).filterMap AuditEvent.opened?, k.signalDate ∈ past
  closed_next : ∀ e ∈ audits log, ∀ k, e.closed? = some k →
    NextSession past k.signalDate e.record.date ∧ e.record.status ≠ .expiredNoNextSession
  curve : (log.filterMap Entry.equity?).map EquityPoint.date = past

theorem settled_next {orders : List (PendingOrder F)} {events : List (AuditEvent F)}
    (h : List.Forall₂ (Settled date) orders events)
    (hpast : ∀ order ∈ orders, past.getLast? = some order.signalDate) :
    ∀ e ∈ events, ∀ k, e.closed? = some k →
      NextSession (past ++ [date]) k.signalDate e.record.date ∧
        e.record.status ≠ .expiredNoNextSession := by
  induction h with
  | nil => exact nofun
  | @cons order e orders events hst _ ih =>
    intro e' he' k hk
    rcases List.mem_cons.mp he' with rfl | he'
    · rw [hst.closed] at hk
      cases hk
      rw [hst.dated.1]
      exact ⟨.of_getLast (hpast order (List.mem_cons_self ..)) _, hst.dated.2⟩
    · exact ih (fun order ho => hpast order (List.mem_cons_of_mem _ ho)) e' he' k hk

omit [PyFloat F] in
theorem audits_append (log out : List (Entry F)) : audits (log ++ out) = audits log ++ audits out :=
  List.filterMap_append

/-- A session marks the book once, at its end. -/
theorem session_equity {eng : BacktestEngine F}
    (h : session eng included s date = .ok (s', out)) :
    ∃ bars, out.filterMap Entry.equity? =
      [equityPoint date s'.cash s'.positions bars s.previousEquity] := by
  obtain ⟨bars, corporate, executed, forced, generated, -, hcorp, hexec, hforced, hgen, -, -, -,
    rfl⟩ := (session_passes h).passes
  obtain ⟨corpBook, corpLog⟩ := corporate
  obtain ⟨execBook, execLog⟩ := executed
  obtain ⟨forcedBook, forcedLog⟩ := forced
  obtain ⟨orders, genLog⟩ := generated
  have hcq := (applyCorporateActions_quiet hcorp).1
  have hfq := writeOffStalePositions_quiet hforced
  have hq := generateSignalsForDate_queues hgen
  have hex := executePendingOrders_equity hexec
  refine ⟨bars, ?_⟩
  simp only [List.filterMap_append, hcq.equity, hex, hfq.equity, hq.equity]
  rfl

theorem session_lifecycle {eng : BacktestEngine F} (hl : Lifecycle past log s)
    (hpast : ∀ d ∈ past, d < date) (h : session eng included s date = .ok (s', out)) :
    Lifecycle (past ++ [date]) (log ++ out) s' := by
  obtain ⟨bars, corporate, executed, forced, generated, -, hcorp, hexec, hforced, hgen, -, hpos,
    hpend, rfl⟩ := (session_passes h).passes
  obtain ⟨corpBook, corpLog⟩ := corporate
  obtain ⟨execBook, execLog⟩ := executed
  obtain ⟨forcedBook, forcedLog⟩ := forced
  obtain ⟨orders, genLog⟩ := generated
  dsimp only at *
  obtain ⟨hcq, hsub⟩ := applyCorporateActions_quiet hcorp
  have hfq := writeOffStalePositions_quiet hforced
  have hq := generateSignalsForDate_queues hgen
  have hpendPast : ∀ order ∈ s.pendingOrders, order.signalDate < date := fun order ho =>
    hpast _ (List.mem_of_getLast? (hl.pending order ho).1)
  obtain ⟨settledOrders, hperm, hsettled⟩ := executePendingOrders_settles hexec hpendPast
    fun order ho hbuy hmem => (hl.pending order ho).2 hbuy (hsub _ hmem)
  have hquietOpened : (audits (log ++ corpLog ++ execLog ++ forcedLog)).filterMap
      AuditEvent.opened? = (audits log).filterMap AuditEvent.opened? := by
    simp only [List.filterMap_append, hcq.opened, settled_opened hsettled, hfq.opened,
      List.append_nil]
  have hfresh : ∀ k ∈ (audits genLog).filterMap AuditEvent.opened?, k.signalDate = date := by
    rw [hq.opened.1]
    intro k hk
    obtain ⟨order, ho, rfl⟩ := List.mem_map.mp hk
    exact (hq.fields order ho).1
  have hlog : audits (log ++ (corpLog ++ execLog ++ forcedLog ++ genLog ++
      [.equity (equityPoint date s'.cash s'.positions bars s.previousEquity)])) =
      audits (log ++ corpLog ++ execLog ++ forcedLog) ++ audits genLog := by
    simp [audits, Entry.audit?]
  constructor
  · have hob : Obligations AuditEvent.opened? AuditEvent.closed?
        (audits (log ++ corpLog ++ execLog ++ forcedLog)) [] := by
      simp only [audits_append]
      apply Obligations.neutral _ hfq.opened hfq.closed
      apply (hl.obligations.neutral hcq.opened hcq.closed).close (settled_opened hsettled)
      rw [settled_closed hsettled, List.append_nil]
      exact hperm.map PendingOrder.key
    have htickers : (pySorted textLT bars.keys).Nodup :=
      (pySorted_perm _ _).nodup_iff.mpr bars.keys_nodup
    rw [hlog, hpend, ← hq.opened.1, ← List.nil_append (List.filterMap _ (audits genLog))]
    apply hob.extend hq.opened.2
    · rw [hq.opened.1]
      exact hq.keys_nodup htickers
    · intro k hk hold
      rw [hquietOpened] at hold
      exact (hpast _ (hl.opened_past k hold)).ne (hfresh k hk)
  · rw [hpend, hpos]
    intro order ho
    rw [(hq.fields order ho).1]
    refine ⟨by simp, fun hbuy => ?_⟩
    rw [refreshLastPrices, Dict.mem_mapVal]
    exact (hq.fields order ho).2 hbuy
  · rw [hlog, List.filterMap_append, hquietOpened]
    intro k hk
    rcases List.mem_append.mp hk with hk | hk
    · exact List.mem_append_left _ (hl.opened_past k hk)
    · exact List.mem_append_right _ (List.mem_singleton.mpr (hfresh k hk))
  · have hnone : ∀ {new : List (AuditEvent F)}, new.filterMap AuditEvent.closed? = [] →
        ∀ e ∈ new, ∀ k, e.closed? ≠ some k := fun hnil e he k hk =>
      List.not_mem_nil (hnil ▸ List.mem_filterMap.mpr ⟨e, he, hk⟩)
    rw [hlog]
    simp only [audits_append]
    intro e he k hk
    simp only [List.mem_append] at he
    rcases he with (((he | he) | he) | he) | he
    · obtain ⟨hnext, hstatus⟩ := hl.closed_next e he k hk
      exact ⟨hnext.append _, hstatus⟩
    · exact absurd hk (hnone hcq.closed e he k)
    · refine settled_next hsettled (fun order ho => ?_) e he k hk
      exact (hl.pending order (hperm.mem_iff.mp ho)).1
    · exact absurd hk (hnone hfq.closed e he k)
    · exact absurd hk (hnone hq.opened.2 e he k)
  · obtain ⟨bars', hpoint⟩ := session_equity h
    rw [List.filterMap_append, hpoint, List.map_append, hl.curve]
    rfl

theorem run_lifecycle {eng : BacktestEngine F} (hd : days.Pairwise (· < ·))
    (h : traceM (session eng included) eng.initialState days = .ok (s, log)) :
    Lifecycle days log s := by
  refine traceM_run (I := Lifecycle) (d := []) (l := []) h ⟨.nil, nofun, nofun, nofun, rfl⟩ ?_
  intro done rest log s date s' out hsplit hl hst
  refine session_lifecycle hl (fun d hmem => ?_) hst
  have hdays : days = done ++ date :: rest := hsplit
  rw [hdays] at hd
  exact (List.pairwise_append.mp hd).2.2 d hmem date (List.mem_cons_self ..)

/-- A record that reports on the order with key `k`. -/
structure OrderAuditRecord.IsFor (r : OrderAuditRecord F) (k : OrderKey) : Prop where
  ticker : r.ticker = k.ticker
  side : r.side = k.side.value
  signalDate : r.signalDate = k.signalDate

omit [PyFloat F] in
theorem OrderAuditRecord.IsFor.sameOrder {r r' : OrderAuditRecord F} (h : r.IsFor k)
    (h' : r'.IsFor k) : r.SameOrder r' :=
  ⟨h.ticker.trans h'.ticker.symm, h.side.trans h'.side.symm,
    h.signalDate.trans h'.signalDate.symm⟩

omit [PyFloat F] in
theorem OrderAuditRecord.IsFor.key_eq {r r' : OrderAuditRecord F} (h : r.IsFor k)
    (h' : r'.IsFor k') (hs : r.SameOrder r') : k = k' := by
  obtain ⟨ticker, side, signalDate⟩ := k
  obtain ⟨ticker', side', signalDate'⟩ := k'
  obtain ⟨h₁, h₂, h₃⟩ := h
  obtain ⟨h₁', h₂', h₃'⟩ := h'
  obtain ⟨hs₁, hs₂, hs₃⟩ := hs
  have hside : side = side' := Side.value_injective (h₂.symm.trans (hs₂.trans h₂'))
  have hticker : ticker = ticker' := h₁.symm.trans (hs₁.trans h₁')
  have hdate : signalDate = signalDate' := h₃.symm.trans (hs₃.trans h₃')
  rw [hside, hticker, hdate]

theorem AuditEvent.opened_record {e : AuditEvent F} (h : e.opened? = some k) :
    e.record.status = .submitted ∧ e.record.IsFor k ∧ e.record.date = k.signalDate := by
  cases e <;> cases h
  exact ⟨rfl, ⟨rfl, rfl, rfl⟩, rfl⟩

theorem AuditEvent.closed_record {e : AuditEvent F} (h : e.closed? = some k) :
    e.record.status.terminal = true ∧ e.record.IsFor k := by
  cases e <;> cases h <;> exact ⟨rfl, ⟨rfl, rfl, rfl⟩⟩

theorem AuditEvent.opened_of_submitted {e : AuditEvent F} (h : e.record.status = .submitted) :
    ∃ k, e.opened? = some k := by
  cases e with
  | submitted order detail => exact ⟨_, rfl⟩
  | corporateAction date ticker verified applied => cases applied <;> cases h
  | _ => cases h

theorem AuditEvent.closed_of_terminal {e : AuditEvent F} (h : e.record.status.terminal = true) :
    ∃ k, e.closed? = some k := by
  cases e with
  | submitted => cases h
  | delistedWriteOff => cases h
  | corporateAction date ticker verified applied => cases applied <;> cases h
  | _ => exact ⟨_, rfl⟩

/-- A terminal record falls on the session after the submission, or ends the data on the last. -/
def SettledOn (sessions : List Date) (r r' : OrderAuditRecord F) : Prop :=
  (NextSession sessions r.date r'.date ∧ r'.status ≠ .expiredNoNextSession) ∨
    (sessions.getLast? = some r.date ∧ r'.date = r.date ∧ r'.status = .expiredNoNextSession)

omit [PyFloat F] in
theorem expireAtEnd_events {s : EngineState F}
    (h : ∀ order ∈ s.pendingOrders, sessions.getLast? = some order.signalDate) :
    BacktestEngine.expireAtEnd sessions s = s.pendingOrders.map fun order =>
      .audit (.expiredNoNextSession order.signalDate order) := by
  unfold BacktestEngine.expireAtEnd
  cases hlast : sessions.getLast? with
  | none =>
    cases hp : s.pendingOrders with
    | nil => rfl
    | cons order orders =>
      have ho := h order (hp ▸ List.mem_cons_self ..)
      rw [hlast] at ho
      cases ho
  | some finalDate =>
    apply List.map_congr_left
    intro order ho
    have hd := h order ho
    rw [hlast] at hd
    cases hd
    rfl

/-- The audit of a finished run: nothing is pending and every closing event is dated. -/
structure Finished (sessions : List Date) (events : List (AuditEvent F)) : Prop where
  obligations : Obligations AuditEvent.opened? AuditEvent.closed? events []
  closed_on : ∀ e ∈ events, ∀ k, e.closed? = some k →
    (NextSession sessions k.signalDate e.record.date ∧ e.record.status ≠ .expiredNoNextSession) ∨
      (sessions.getLast? = some k.signalDate ∧ e.record.date = k.signalDate ∧
        e.record.status = .expiredNoNextSession)

theorem Lifecycle.finish (h : Lifecycle sessions log (s : EngineState F)) :
    Finished sessions (audits (log ++ BacktestEngine.expireAtEnd sessions s)) := by
  have hexpire : audits (BacktestEngine.expireAtEnd sessions s) =
      s.pendingOrders.map fun order => .expiredNoNextSession order.signalDate order := by
    rw [expireAtEnd_events fun order ho => (h.pending order ho).1]
    simp [audits, Function.comp_def, Entry.audit?]
  rw [audits_append, hexpire]
  constructor
  · apply h.obligations.close
    · simp [Function.comp_def, AuditEvent.opened?]
    · simp [Function.comp_def, AuditEvent.closed?]
  · intro e he k hk
    rcases List.mem_append.mp he with he | he
    · exact .inl (h.closed_next e he k hk)
    · obtain ⟨order, ho, rfl⟩ := List.mem_map.mp he
      cases hk
      exact .inr ⟨(h.pending order ho).1, rfl, rfl⟩

/-- The equity curve has a point for each session. -/
theorem Looped.curve {eng : BacktestEngine F} (h : Looped eng selected s days) :
    (((days ++ BacktestEngine.expireAtEnd (eng.sessions selected.1) s).filterMap Entry.equity?).map
      EquityPoint.rounded).map EquityPoint.date = eng.sessions selected.1 := by
  have hl := run_lifecycle (sessions_increasing eng selected.1) h.loop
  rw [List.filterMap_append, expireAtEnd_events fun order ho => (hl.pending order ho).1]
  simpa [Function.comp_def, EquityPoint.rounded, Entry.equity?] using hl.curve

theorem BacktestEngine.run_curve {eng : BacktestEngine F} (h : eng.run = .ok result) :
    ∃ selected, eng.selectTickers = .ok selected ∧
      result.equityCurve.map EquityPoint.date = eng.sessions selected.1 := by
  obtain ⟨selected, s, log, htrace, hcurve, -⟩ := run_trace h
  obtain ⟨days, hlooped, rfl⟩ := trace_looped htrace
  exact ⟨selected, hlooped.selects, by rw [hcurve, hlooped.curve]⟩

/-- Every submitted order is closed exactly once, on the next session or by the end of the data. -/
theorem BacktestEngine.order_lifecycle {eng : BacktestEngine F} (h : eng.run = .ok result) :
    (∀ (i : ℕ) r, result.orderAudit[i]? = some r → r.status = .submitted →
      ∃ (j : ℕ) (r' : OrderAuditRecord F), i < j ∧ result.orderAudit[j]? = some r' ∧
        r'.status.terminal = true ∧ r.SameOrder r' ∧
        SettledOn (result.equityCurve.map EquityPoint.date) r r' ∧
        ∀ (j' : ℕ) r'', result.orderAudit[j']? = some r'' → r''.status.terminal = true →
          r.SameOrder r'' → j' = j) ∧
    (∀ (j : ℕ) r', result.orderAudit[j]? = some r' → r'.status.terminal = true →
      ∃ (i : ℕ) (r : OrderAuditRecord F), i < j ∧ result.orderAudit[i]? = some r ∧
        r.status = .submitted ∧ r.SameOrder r') := by
  obtain ⟨selected, s, log, htrace, hcurve, -, -, haudit⟩ := run_trace h
  obtain ⟨days, hlooped, rfl⟩ := trace_looped htrace
  have hl := run_lifecycle (sessions_increasing eng selected.1) hlooped.loop
  have hfin := hl.finish
  have hdates : result.equityCurve.map EquityPoint.date = eng.sessions selected.1 := by
    rw [hcurve, hlooped.curve]
  have hindex : ∀ (i : ℕ) r, result.orderAudit[i]? = some r → ∃ e,
      (audits (days ++ expireAtEnd (eng.sessions selected.1) s))[i]? = some e ∧ e.record = r := by
    intro i r hi
    rw [haudit, List.getElem?_map] at hi
    exact Option.map_eq_some_iff.mp hi
  have hrecord : ∀ {i : ℕ} {e},
      (audits (days ++ expireAtEnd (eng.sessions selected.1) s))[i]? = some e →
      result.orderAudit[i]? = some e.record := by
    intro i e hi
    rw [haudit, List.getElem?_map, hi, Option.map_some]
  rw [hdates]
  constructor
  · intro i r hi hr
    obtain ⟨e, he, rfl⟩ := hindex i r hi
    obtain ⟨k, hk⟩ := AuditEvent.opened_of_submitted hr
    obtain ⟨-, hfor, hdate⟩ := AuditEvent.opened_record hk
    obtain ⟨j, c, hij, hj, hc, hunique⟩ := hfin.obligations.closed_once he hk
    obtain ⟨hterm, hcfor⟩ := AuditEvent.closed_record hc
    refine ⟨j, c.record, hij, hrecord hj, hterm, hfor.sameOrder hcfor, ?_, ?_⟩
    · unfold SettledOn
      rw [hdate]
      exact hfin.closed_on c (List.mem_of_getElem? hj) k hc
    · intro j' r'' hj' hterm' hsame
      obtain ⟨c', hc', rfl⟩ := hindex j' r'' hj'
      obtain ⟨k', hk'⟩ := AuditEvent.closed_of_terminal hterm'
      have hkk : k = k' := hfor.key_eq (AuditEvent.closed_record hk').2 hsame
      exact hunique j' c' hc' (hkk ▸ hk')
  · intro j r' hj hterm
    obtain ⟨c, hc, rfl⟩ := hindex j r' hj
    obtain ⟨k, hk⟩ := AuditEvent.closed_of_terminal hterm
    obtain ⟨i, e, hij, hi, he⟩ := hfin.obligations.opened_of_closed hc hk
    obtain ⟨hstatus, hfor, -⟩ := AuditEvent.opened_record he
    exact ⟨i, e.record, hij, hrecord hi, hstatus, hfor.sameOrder (AuditEvent.closed_record hk).2⟩

end

/-- Four sessions of one name: the buy of the first fills on the second, the sell of the third is
capped by the traded value of its day. -/
def sampleRows : EngineRows ℚ where
  rows :=
    [⟨1, "005930", 100, 105, 95, 104, 1000, some 1000000⟩,
      ⟨2, "005930", 110, 116, 108, 115, 1000, some 1000000⟩,
      ⟨3, "005930", 116, 118, 112, 114, 1000, some 1000000⟩,
      ⟨4, "005930", 120, 121, 117, 118, 1000, some 1000000⟩]
  metricRows := fun _ _ => none
  inputsNormalized := false
  promised := nofun

def sampleEngine : BacktestEngine ℚ := .ofRows buildSampleSpec defaultConfig sampleRows none none

theorem sampleEngine_settles : ∃ result, sampleEngine.run = .ok result ∧
    ∃ r, result.orderAudit[2]? = some r ∧ r.status = .submitted ∧
      ∃ (j : ℕ) (r' : OrderAuditRecord ℚ), 2 < j ∧ result.orderAudit[j]? = some r' ∧
        r.SameOrder r' ∧ SettledOn (result.equityCurve.map EquityPoint.date) r r' := by
  have hthird : (sampleEngine.run.map fun result =>
      result.orderAudit[2]?.map OrderAuditRecord.status) = .ok (some .submitted) := by
    decide +kernel
  obtain ⟨result, hrun, hstatus⟩ := map_ok_iff.mp hthird
  obtain ⟨r, hr, hsub⟩ := Option.map_eq_some_iff.mp hstatus
  obtain ⟨j, r', hj, hr', -, hsame, hsettled, -⟩ := (BacktestEngine.order_lifecycle hrun).1 2 r hr hsub
  exact ⟨result, hrun, r, hr, hsub, j, r', hj, hr', hsame, hsettled⟩

end QuantAgent
