import QuantAgent.Engine.Ledger

namespace QuantAgent
set_option autoImplicit true

/-- The shares of a buy that are still open. -/
structure Lot where
  entryDate : Date
  quantity : ℤ
deriving DecidableEq

def Position.lot (position : Position F) : Lot := ⟨position.entryDate, position.quantity⟩

/-- A buy opens the lot of its name, which must not have one. -/
def Lot.opened (date : Date) (quantity : ℤ) : Option Lot → Option (Option Lot)
  | none => some (some ⟨date, quantity⟩)
  | some _ => none

/-- A split takes the whole lot to its new share count. -/
def Lot.reshaped (oldQuantity newQuantity : ℤ) : Option Lot → Option (Option Lot)
  | none => none
  | some lot =>
    if lot.quantity = oldQuantity then some (some ⟨lot.entryDate, newQuantity⟩) else none

/-- A trade record takes shares of the lot it names, no more than are left. -/
def Lot.sold (entryDate : Date) (quantity : ℤ) : Option Lot → Option (Option Lot)
  | none => none
  | some lot =>
    if lot.entryDate = entryDate ∧ 0 < quantity ∧ quantity ≤ lot.quantity then
      some (if quantity = lot.quantity then none else some ⟨lot.entryDate, lot.quantity - quantity⟩)
    else none

/-- The lot of one name after one entry, if the entry can be attributed. -/
def lotStep (ticker : Ticker) (lot : Option Lot) : Entry F → Option (Option Lot)
  | .audit (.executed date order fill) =>
    match order.side with
    | .buy => if order.ticker = ticker then Lot.opened date fill.quantity lot else some lot
    | .sell => some lot
  | .audit (.corporateAction _ name _ (.split oldQuantity newQuantity)) =>
    if name = ticker then Lot.reshaped oldQuantity newQuantity lot else some lot
  | .trade r => if r.ticker = ticker then Lot.sold r.entryDate r.quantity lot else some lot
  | _ => some lot

/-- Only executed buys, splits and trade records move shares when a log is replayed. -/
def replayLots (ticker : Ticker) (log : List (Entry F)) : Option (Option Lot) :=
  log.foldlM (lotStep ticker) none

def heldLot (book : Book F) (ticker : Ticker) : Option Lot :=
  (book.positions.get? ticker).map Position.lot

/-- A delisting recovery of the name is on the audit. -/
def Delisted (ticker : Ticker) (log : List (Entry F)) : Prop :=
  ∃ date verified amount,
    Entry.audit (.corporateAction date ticker verified (.delistRecovery amount)) ∈ log

section
variable {F : Type} [PyFloat F]

omit [PyFloat F] in
theorem replayLots_append (log out : List (Entry F)) :
    replayLots ticker (log ++ out) =
      (replayLots ticker log).bind fun lot => out.foldlM (lotStep ticker) lot :=
  List.foldlM_append

omit [PyFloat F] in
theorem delisted_append {log out : List (Entry F)} :
    Delisted ticker (log ++ out) ↔ Delisted ticker log ∨ Delisted ticker out := by
  simp only [Delisted, List.mem_append, exists_or]

/-- What the replay of one name says of the book: the held lot until a delisting takes the name,
and afterwards a lot that is never attributed. -/
inductive LotAccount (ticker : Ticker) (log : List (Entry F)) (book : Book F) : Prop
  | kept : ¬Delisted ticker log → replayLots ticker log = some (heldLot book ticker) →
      LotAccount ticker log book
  | lost : Delisted ticker log → replayLots ticker log = some (some lot) →
      ticker ∉ book.positions → LotAccount ticker log book
  | broken : Delisted ticker log → replayLots ticker log = none → LotAccount ticker log book

/-- Entries that leave the lot of a name alone. -/
structure OffLot (ticker : Ticker) (out : List (Entry F)) : Prop where
  replay : ∀ lot, out.foldlM (lotStep ticker) lot = some lot
  listed : ¬Delisted ticker out

omit [PyFloat F] in
theorem LotAccount.off {book book' : Book F} (h : LotAccount ticker log book)
    (hout : OffLot ticker out) (hpos : book'.positions.get? ticker = book.positions.get? ticker) :
    LotAccount ticker (log ++ out) book' := by
  have hreplay : replayLots ticker (log ++ out) = replayLots ticker log := by
    rw [replayLots_append]
    cases replayLots ticker log with
    | none => rfl
    | some lot => exact hout.replay lot
  have hdelist : Delisted ticker (log ++ out) ↔ Delisted ticker log := by
    rw [delisted_append, or_iff_left hout.listed]
  cases h with
  | kept hd hr =>
    refine .kept (hdelist.not.mpr hd) ?_
    rw [hreplay, hr, heldLot, heldLot, hpos]
  | lost hd hr hfree =>
    refine .lost (hdelist.mpr hd) (hreplay.trans hr) ?_
    rw [← Dict.get?_eq_none_iff] at hfree ⊢
    exact hpos.trans hfree
  | broken hd hr => exact .broken (hdelist.mpr hd) (hreplay.trans hr)

omit [PyFloat F] in
/-- Entries about a held name take its lot to the lot the book then holds. -/
theorem LotAccount.held {book book' : Book F} (h : LotAccount ticker log book)
    (hpos : book.positions.get? ticker = some position)
    (hout : out.foldlM (lotStep ticker) (some position.lot) = some (heldLot book' ticker))
    (hlisted : ¬Delisted ticker out) : LotAccount ticker (log ++ out) book' := by
  cases h with
  | kept hd hr =>
    refine .kept (delisted_append.not.mpr (not_or.mpr ⟨hd, hlisted⟩)) ?_
    rw [replayLots_append, hr, heldLot, hpos]
    exact hout
  | lost hd hr hfree => exact absurd (Dict.mem_of_get? hpos) hfree
  | broken hd hr =>
    refine .broken (delisted_append.mpr (.inl hd)) ?_
    rw [replayLots_append, hr]
    rfl

omit [PyFloat F] in
theorem LotAccount.opened {book book' : Book F} (h : LotAccount order.ticker log book)
    (hfree : order.ticker ∉ book.positions) (hside : order.side = .buy)
    (hpos : heldLot book' order.ticker = some ⟨date, fill.quantity⟩) :
    LotAccount order.ticker (log ++ [.audit (.executed date order fill)]) book' := by
  have hstep : ∀ lot, ([Entry.audit (.executed date order fill)] : List (Entry F)).foldlM
      (lotStep order.ticker) lot = Lot.opened date fill.quantity lot := by
    intro lot
    simp [lotStep, hside]
  have hlisted : ¬Delisted order.ticker [Entry.audit (.executed date order fill)] := by
    simp [Delisted]
  cases h with
  | kept hd hr =>
    refine .kept (delisted_append.not.mpr (not_or.mpr ⟨hd, hlisted⟩)) ?_
    rw [replayLots_append, hr, heldLot, Dict.get?_eq_none_iff.mpr hfree, hpos]
    exact hstep none
  | lost hd hr =>
    refine .broken (delisted_append.mpr (.inl hd)) ?_
    rw [replayLots_append, hr]
    exact hstep (some _)
  | broken hd hr =>
    refine .broken (delisted_append.mpr (.inl hd)) ?_
    rw [replayLots_append, hr]
    rfl

omit [PyFloat F] in
theorem LotAccount.delisted {book book' : Book F} (h : LotAccount ticker log book)
    (hpos : book.positions.get? ticker = some position) (hfree : ticker ∉ book'.positions) :
    LotAccount ticker
      (log ++ [.audit (.corporateAction date ticker verified (.delistRecovery amount))]) book' := by
  have hdelist : Delisted ticker
      (log ++ [.audit (.corporateAction date ticker verified (.delistRecovery amount))]) :=
    ⟨date, verified, amount, List.mem_append_right _ (List.mem_singleton.mpr rfl)⟩
  cases h with
  | kept hd hr =>
    have hlot : replayLots ticker
        (log ++ [.audit (.corporateAction date ticker verified (.delistRecovery amount))]) =
          some (some position.lot) := by
      rw [replayLots_append, hr, heldLot, hpos]
      rfl
    exact .lost hdelist hlot hfree
  | lost hd hr hnot => exact absurd (Dict.mem_of_get? hpos) hnot
  | broken hd hr =>
    refine .broken hdelist ?_
    rw [replayLots_append, hr]
    rfl

omit [PyFloat F] in
theorem OffLot.nil : OffLot ticker ([] : List (Entry F)) := ⟨fun _ => rfl, by simp [Delisted]⟩

omit [PyFloat F] in
theorem OffLot.cons {e : Entry F} (he : ∀ lot, lotStep ticker lot e = some lot)
    (hd : ¬Delisted ticker [e]) (h : OffLot ticker out) : OffLot ticker (e :: out) where
  replay lot := by
    rw [List.foldlM_cons, he]
    exact h.replay lot
  listed := by
    rw [← List.singleton_append, delisted_append]
    exact not_or.mpr ⟨hd, h.listed⟩

omit [PyFloat F] in
theorem Silent.off {e : Entry F} (h : Silent e) (ticker : Ticker) :
    (∀ lot, lotStep ticker lot e = some lot) ∧ ¬Delisted ticker [e] := by
  cases h with
  | signal => exact ⟨fun _ => rfl, by simp [Delisted]⟩
  | equity => exact ⟨fun _ => rfl, by simp [Delisted]⟩
  | submitted => exact ⟨fun _ => rfl, by simp [Delisted]⟩
  | expiredAtEnd => exact ⟨fun _ => rfl, by simp [Delisted]⟩
  | declined h => cases h <;> exact ⟨fun _ => rfl, by simp [Delisted]⟩

omit [PyFloat F] in
theorem OffLot.silent {out : List (Entry F)} (h : ∀ e ∈ out, Silent e) : OffLot ticker out := by
  induction out with
  | nil => exact .nil
  | cons e out ih =>
    obtain ⟨he, hd⟩ := (h e (List.mem_cons_self ..)).off ticker
    exact .cons he hd (ih fun e he => h e (List.mem_cons_of_mem _ he))

omit [PyFloat F] in
/-- A sale of another name, as its trade record and its audit event. -/
theorem OffLot.trade {r : TradeRecord F} {e : AuditEvent F} (hname : r.ticker ≠ ticker)
    (he : ∀ lot, lotStep ticker lot (.audit e) = some lot) (hd : ¬Delisted ticker [.audit e]) :
    OffLot ticker [.trade r, .audit e] := by
  apply OffLot.cons
  · intro lot
    rw [lotStep, if_neg hname]
  · simp [Delisted]
  · exact .cons he hd .nil

omit [PyFloat F] in
/-- The same sale in the replay of the name itself. -/
theorem replay_sale {r : TradeRecord F} {position : Position F} (hname : r.ticker = ticker)
    (hdate : r.entryDate = position.entryDate) (hq : 0 < r.quantity)
    (hle : r.quantity ≤ position.quantity)
    (he : ∀ lot, lotStep ticker lot (.audit e) = some lot) :
    [Entry.trade r, .audit e].foldlM (lotStep ticker) (some position.lot) =
      some (if r.quantity = position.quantity then none
        else some ⟨position.entryDate, position.quantity - r.quantity⟩) := by
  have hsold : lotStep ticker (some position.lot) (.trade r) =
      some (if r.quantity = position.quantity then none
        else some ⟨position.entryDate, position.quantity - r.quantity⟩) :=
    (if_pos hname).trans (if_pos ⟨hdate.symm, hq, hle⟩)
  rw [List.foldlM_cons, hsold, Option.bind_eq_bind, Option.bind_some, List.foldlM_cons, he]
  rfl

/-- Every name is accounted for and every held position has shares. -/
structure LotsAccounted (log : List (Entry F)) (book : Book F) : Prop where
  account : ∀ ticker, LotAccount ticker log book
  pos : book.positions.All fun _ position => 0 < position.quantity

omit [PyFloat F] in
theorem heldLot_insert (book : Book F) (cash : F) (ticker : Ticker) (position : Position F) :
    heldLot ⟨cash, book.positions.insert ticker position⟩ ticker = some position.lot := by
  rw [heldLot, Dict.get?_insert_self, Option.map_some]

omit [PyFloat F] in
theorem heldLot_erase (book : Book F) (cash : F) (ticker : Ticker) :
    heldLot ⟨cash, book.positions.erase ticker⟩ ticker = none := by
  rw [heldLot, Dict.get?_erase_self, Option.map_none]

omit [PyFloat F] in
theorem LotsAccounted.silent {book : Book F} (h : LotsAccounted log book)
    (hs : ∀ e ∈ out, Silent e) : LotsAccounted (log ++ out) book where
  account ticker := (h.account ticker).off (.silent hs) rfl
  pos := h.pos

omit [PyFloat F] in
theorem LotsAccounted.insert {book : Book F} (h : LotsAccounted log book)
    (hname : LotAccount ticker (log ++ out) ⟨cash, book.positions.insert ticker position⟩)
    (hother : ∀ t, t ≠ ticker → OffLot t out) (hpos : 0 < position.quantity) :
    LotsAccounted (log ++ out) ⟨cash, book.positions.insert ticker position⟩ where
  account t := by
    by_cases ht : t = ticker
    · exact ht ▸ hname
    · apply (h.account t).off (hother t ht)
      rw [Dict.get?_insert, if_neg ht]
  pos := h.pos.insert hpos

omit [PyFloat F] in
theorem LotsAccounted.erase {book : Book F} (h : LotsAccounted log book)
    (hname : LotAccount ticker (log ++ out) ⟨cash, book.positions.erase ticker⟩)
    (hother : ∀ t, t ≠ ticker → OffLot t out) :
    LotsAccounted (log ++ out) ⟨cash, book.positions.erase ticker⟩ where
  account t := by
    by_cases ht : t = ticker
    · exact ht ▸ hname
    · apply (h.account t).off (hother t ht)
      rw [Dict.get?_erase, if_neg ht]
  pos := h.pos.erase ticker

theorem AppliedCases.lots {book : Book F}
    (h : AppliedCases book ticker position kind book' applied)
    (hpos : book.positions.get? ticker = some position) (hl : LotsAccounted log book) :
    LotsAccounted (log ++ [.audit (.corporateAction date ticker verified applied)]) book' := by
  cases h with
  | @split ratio newQuantity htrunc hnew =>
    refine hl.insert ((hl.account ticker).held hpos ?_ (by simp [Delisted])) ?_ hnew
    · rw [heldLot_insert]
      simp [lotStep, Lot.reshaped, Position.lot, splitPosition]
    · intro t ht
      exact .cons (fun lot => if_neg ht.symm) (by simp [Delisted]) .nil
  | dividend =>
    refine ⟨fun t => ?_, hl.pos⟩
    exact (hl.account t).off (.cons (fun _ => rfl) (by simp [Delisted]) .nil) rfl
  | delist =>
    refine hl.erase ((hl.account ticker).delisted hpos fun hm => (Dict.mem_erase.mp hm).1 rfl) ?_
    intro t ht
    exact .cons (fun _ => rfl) (by simpa [Delisted] using ht) .nil

omit [PyFloat F] in
/-- A trade record takes what it names out of the position; the rest of it stays open. -/
theorem LotsAccounted.sale {book : Book F} {r : TradeRecord F} (h : LotsAccounted log book)
    (hpos : book.positions.get? ticker = some position) (hq : 0 < r.quantity)
    (hle : r.quantity ≤ position.quantity) (hname : r.ticker = ticker)
    (hdate : r.entryDate = position.entryDate)
    (he : ∀ t lot, lotStep t lot (.audit e) = some lot) (hd : ∀ t, ¬Delisted t [.audit e])
    (hrest : rest.lot = ⟨position.entryDate, position.quantity - r.quantity⟩)
    (hpositions : positions = if r.quantity = position.quantity then book.positions.erase ticker
      else book.positions.insert ticker rest) :
    LotsAccounted (log ++ [.trade r, .audit e])
      ⟨cash, positions⟩ := by
  have hother : ∀ t, t ≠ ticker → OffLot t [.trade r, .audit e] := fun t ht =>
    .trade (fun hr => ht (hr.symm.trans hname)) (he t) (hd t)
  have hlisted : ¬Delisted ticker [.trade r, .audit e] := by
    rw [← List.singleton_append, delisted_append]
    exact not_or.mpr ⟨by simp [Delisted], hd ticker⟩
  have hreplay := replay_sale hname hdate hq hle (he ticker)
  rw [hpositions]
  by_cases hall : r.quantity = position.quantity
  · rw [if_pos hall] at hreplay ⊢
    refine h.erase ((h.account ticker).held hpos (hreplay.trans ?_) hlisted) hother
    rw [heldLot_erase]
  · rw [if_neg hall] at hreplay ⊢
    refine h.insert ((h.account ticker).held hpos (hreplay.trans ?_) hlisted) hother ?_
    · rw [heldLot_insert, hrest]
    · have hquantity : rest.quantity = position.quantity - r.quantity := congrArg Lot.quantity hrest
      rw [hquantity]
      exact sub_pos.mpr (lt_of_le_of_ne hle hall)

theorem SellCases.lots {book : Book F} (h : SellCases spec date bars book order r)
    (hside : order.side = .sell) (hl : LotsAccounted log book) :
    LotsAccounted (log ++ r.2) r.1 := by
  cases h with
  | declined hd =>
    exact hl.silent fun e he => List.mem_singleton.mp he ▸ .declined hd
  | filled hpos hbar hprice hq hle =>
    refine hl.sale hpos hq hle rfl rfl (fun t lot => ?_) (by simp [Delisted]) rfl rfl
    simp [lotStep, hside]

theorem BuyCases.lots {book : Book F} (h : BuyCases spec date bars n book order r)
    (hside : order.side = .buy) (hfree : order.ticker ∉ book.positions)
    (hl : LotsAccounted log book) : LotsAccounted (log ++ r.2) r.1 := by
  cases h with
  | declined hd =>
    exact hl.silent fun e he => List.mem_singleton.mp he ▸ .declined hd
  | filled hbar hprice hunit hsize =>
    refine hl.insert ?_ ?_ hsize.pos
    · exact (hl.account order.ticker).opened hfree hside (heldLot_insert _ _ _ _)
    · intro t ht
      refine .cons (fun lot => ?_) (by simp [Delisted]) .nil
      simp [lotStep, hside, ht.symm]

theorem StaleCases.lots {s : StaleBook F} (h : StaleCases spec config date bars s ticker r)
    (hl : LotsAccounted log s.book) : LotsAccounted (log ++ r.2) r.1.book := by
  cases h with
  | counted =>
    rw [List.append_nil]
    exact hl
  | @writtenOff position hbar hpos =>
    have hrest : { position with quantity := 0 }.lot =
        ⟨position.entryDate, position.quantity - position.quantity⟩ := by
      simp [Position.lot]
    exact hl.sale hpos (hl.pos ticker position hpos) (le_refl _) rfl rfl (fun _ _ => rfl)
      (by simp [Delisted]) hrest (if_pos rfl).symm

theorem lotsAccounted_invariant (spec : StrategySpec F) (config : BacktestRunConfig F)
    (date : Date) (bars : Bars F) : BookInvariant spec config date bars True LotsAccounted where
  action h hcases _ := by
    cases hcases with
    | skipped =>
      rw [List.append_nil]
      exact h
    | applied hdate hpos happ => exact (applyToPosition_cases happ).lots hpos h
  sell h hside hcases := hcases.lots hside h
  buy h hside hfree hcases := hcases.lots hside hfree h
  stale h hcases := hcases.lots h
  silent h hs := h.silent hs

omit [PyFloat F] in
theorem heldLot_refresh (bars : Bars F) (book : Book F) (ticker : Ticker) :
    heldLot ⟨book.cash, refreshLastPrices bars book.positions⟩ ticker = heldLot book ticker := by
  rw [heldLot, refreshLastPrices, Dict.get?_mapVal, heldLot, Option.map_map]
  apply congrArg (Option.map · _)
  funext position
  cases bars.get? ticker <;> rfl

theorem run_lots {eng : BacktestEngine F} (hdays : days.Pairwise (· < ·))
    (h : traceM (session eng included) eng.initialState days = .ok (s, log)) :
    LotsAccounted log s.book := by
  have hbase : LotsAccounted [] eng.initialState.book :=
    ⟨fun ticker => .kept (by simp [Delisted]) rfl, nofun⟩
  refine BookInvariant.run (fun date bars => lotsAccounted_invariant eng.spec eng.config date bars)
    (fun {log book} bars hl => ?_) hbase hdays (fun _ _ _ _ _ _ _ _ _ _ => trivial) h
  constructor
  · intro ticker
    cases hl.account ticker with
    | kept hd hr => exact .kept hd (hr.trans (congrArg some (heldLot_refresh _ _ _).symm))
    | lost hd hr hfree =>
      refine .lost hd hr ?_
      rwa [refreshLastPrices, Dict.mem_mapVal]
    | broken hd hr => exact .broken hd hr
  · refine hl.pos.mapVal fun ticker position hq => ?_
    cases bars.get? ticker <;> exact hq

/-- No delisting takes a held name at the start of any session. -/
def NoHeldDelisting (eng : BacktestEngine F) (included : List Ticker) : Prop :=
  ∀ past date rest s log, eng.sessions included = past ++ date :: rest →
    traceM (session eng included) eng.initialState past = .ok (s, log) →
    ∀ event ∈ eng.spec.backtest.corporateActions, ¬HitsHeld date s.positions event

theorem AppliedCases.delist_of_recovery {book : Book F}
    (h : AppliedCases book ticker position kind book' (.delistRecovery amount)) :
    ∃ recoveryPrice, kind = .delist recoveryPrice := by
  cases h with
  | delist => exact ⟨_, rfl⟩

theorem notDelisted_invariant (spec : StrategySpec F) (config : BacktestRunConfig F) (date : Date)
    (bars : Bars F) :
    BookInvariant spec config date bars False fun log _ => ∀ ticker, ¬Delisted ticker log where
  action h hcases hhits ticker := by
    rw [delisted_append]
    refine not_or.mpr ⟨h ticker, ?_⟩
    cases hcases with
    | skipped => simp [Delisted]
    | @applied position book' applied hdate hpos happ =>
      cases applied with
      | split => simp [Delisted]
      | cashDividend => simp [Delisted]
      | delistRecovery amount =>
        have hkind := (applyToPosition_cases happ).delist_of_recovery
        exact absurd ⟨hdate, Dict.mem_of_get? hpos, hkind⟩ hhits
  sell h hside hcases ticker := by
    rw [delisted_append]
    refine not_or.mpr ⟨h ticker, ?_⟩
    cases hcases with
    | declined hd => cases hd <;> simp [Delisted]
    | filled => simp [Delisted, settleSell]
  buy h hside _ hcases ticker := by
    rw [delisted_append]
    refine not_or.mpr ⟨h ticker, ?_⟩
    cases hcases with
    | declined hd => cases hd <;> simp [Delisted]
    | filled => simp [Delisted, settleBuy]
  stale h hcases ticker := by
    rw [delisted_append]
    refine not_or.mpr ⟨h ticker, ?_⟩
    cases hcases with
    | counted => simp [Delisted]
    | writtenOff => simp [Delisted, writeOff]
  silent h hs ticker := by
    rw [delisted_append]
    exact not_or.mpr ⟨h ticker, (OffLot.silent hs).listed⟩

theorem run_notDelisted {eng : BacktestEngine F} (hd : NoHeldDelisting eng included)
    (h : traceM (session eng included) eng.initialState (eng.sessions included) = .ok (s, log)) :
    ∀ ticker, ¬Delisted ticker log :=
  BookInvariant.run (fun date bars => notDelisted_invariant eng.spec eng.config date bars)
    (fun _ h => h) (by simp [Delisted]) (sessions_increasing eng included) hd h

theorem AppliedCases.held_or_delisted {book : Book F}
    (h : AppliedCases book name position kind book' applied) (hmem : ticker ∈ book.positions) :
    ticker ∈ book'.positions ∨
      Delisted ticker [.audit (.corporateAction date name verified applied)] := by
  cases h with
  | split => exact .inl (Dict.mem_insert.mpr (.inr hmem))
  | dividend => exact .inl hmem
  | delist =>
    by_cases hname : ticker = name
    · subst hname
      exact .inr ⟨date, verified, _, List.mem_singleton.mpr rfl⟩
    · exact .inl (Dict.mem_erase.mpr ⟨hname, hmem⟩)

/-- A delisting that takes effect on a held name leaves its recovery on the audit. -/
theorem applyCorporateActions_delists {book : Book F}
    (h : applyCorporateActions spec date book = .ok (book', out))
    (hevent : event ∈ spec.backtest.corporateActions) (hhit : HitsHeld date book.positions event) :
    Delisted event.ticker out := by
  obtain ⟨hdate, hheld, recoveryPrice, hkind⟩ := hhit
  obtain ⟨before, after, hsplit⟩ := List.append_of_mem hevent
  unfold applyCorporateActions at h
  rw [hsplit] at h
  obtain ⟨b, log, more, hbefore, hmore, rfl⟩ := traceM_append_ok.mp h
  obtain ⟨b', o, rest, hstep, -, rfl⟩ := traceM_cons_ok.mp hmore
  have hinv := traceM_preserves
    (I := fun l b => event.ticker ∈ b.positions ∨ Delisted event.ticker l) (l := []) hbefore
    (.inl hheld) ?_
  · rcases hinv with hmem | hdelisted
    · obtain ⟨position, hpos⟩ := Dict.mem_iff_get?.mp hmem
      rw [applyCorporateAction, if_neg (not_not.mpr hdate), hpos] at hstep
      simp only [hkind] at hstep
      cases hstep
      rw [delisted_append, List.singleton_append]
      exact .inr ⟨_, _, _, List.mem_cons_self ..⟩
    · exact delisted_append.mpr (.inl hdelisted)
  · intro l b e b' o _ hI hst
    rcases hI with hmem | hdelisted
    · cases applyCorporateAction_cases hst with
      | skipped => exact .inl hmem
      | applied hedate hpos happ =>
        apply (applyToPosition_cases happ).held_or_delisted hmem |>.imp_right
        exact fun hd => delisted_append.mpr (.inr hd)
    · exact .inr (delisted_append.mpr (.inl hdelisted))

theorem trace_noHeldDelisting {eng : BacktestEngine F}
    (h : traceM (session eng included) eng.initialState (eng.sessions included) = .ok (s, log))
    (hd : ∀ ticker, ¬Delisted ticker log) : NoHeldDelisting eng included := by
  intro past date rest t pastLog hsplit hpast event hevent hhit
  rw [hsplit] at h
  obtain ⟨t', pastLog', more, hpast', hmore, rfl⟩ := traceM_append_ok.mp h
  cases hpast.symm.trans hpast'
  obtain ⟨s', dayLog, after, hday, -, rfl⟩ := traceM_cons_ok.mp hmore
  obtain ⟨bars, corporate, executed, forced, generated, -, hcorp, -, -, -, -, -, -, rfl⟩ :=
    (session_passes hday).passes
  apply hd event.ticker
  obtain ⟨corpBook, corpLog⟩ := corporate
  have hdelisted := applyCorporateActions_delists hcorp hevent hhit
  simp only [delisted_append]
  exact .inr (.inl (.inl (.inl (.inl (.inl hdelisted)))))

end

/-- The sum of an amount over the trade records of a log. -/
def tradeTotal (f : TradeRecord ℚ → ℚ) (log : List (Entry ℚ)) : ℚ :=
  ((log.filterMap Entry.trade?).map f).sum

theorem tradeTotal_append (f : TradeRecord ℚ → ℚ) (log out : List (Entry ℚ)) :
    tradeTotal f (log ++ out) = tradeTotal f log + tradeTotal f out := by
  simp [tradeTotal]

/-- What a position cost. -/
def Position.invested (position : Position ℚ) : ℚ := position.entryNotional + position.entryCost

/-- A position has shares and carries what they cost at its entry price. -/
def Position.Priced (position : Position ℚ) : Prop :=
  0 < position.quantity ∧ position.entryNotional = position.quantity * position.entryPrice

/-- Cash and the cost of the open positions against the realised profit and the dividends. -/
structure PnlBalanced (initialCapital : ℚ) (log : List (Entry ℚ)) (book : Book ℚ) : Prop where
  priced : book.positions.All fun _ => Position.Priced
  balance : book.cash + book.positions.sum (fun _ => Position.invested) =
    initialCapital + tradeTotal TradeRecord.netPnl log + auditTotal AuditEvent.dividend log

theorem PnlBalanced.step {book book' : Book ℚ} (h : PnlBalanced initialCapital log book)
    (hpriced : book'.positions.All fun _ => Position.Priced)
    (hmoves : book'.cash + book'.positions.sum (fun _ => Position.invested) =
      book.cash + book.positions.sum (fun _ => Position.invested) +
        tradeTotal TradeRecord.netPnl out + auditTotal AuditEvent.dividend out) :
    PnlBalanced initialCapital (log ++ out) book' where
  priced := hpriced
  balance := by
    rw [hmoves, h.balance, tradeTotal_append, auditTotal_append]
    ring

@[simp] theorem tradeTotal_audit (f : TradeRecord ℚ → ℚ) (e : AuditEvent ℚ) :
    tradeTotal f [.audit e] = 0 := rfl

@[simp] theorem tradeTotal_trade_audit (f : TradeRecord ℚ → ℚ) (r : TradeRecord ℚ)
    (e : AuditEvent ℚ) : tradeTotal f [.trade r, .audit e] = f r := add_zero _

theorem Silent.moves {e : Entry ℚ} (h : Silent e) :
    tradeTotal TradeRecord.netPnl [e] = 0 ∧ auditTotal AuditEvent.dividend [e] = 0 := by
  cases h with
  | declined h =>
    rw [auditTotal_audit]
    cases h <;> exact ⟨rfl, rfl⟩
  | submitted =>
    rw [auditTotal_audit]
    exact ⟨rfl, rfl⟩
  | expiredAtEnd =>
    rw [auditTotal_audit]
    exact ⟨rfl, rfl⟩
  | _ => exact ⟨rfl, rfl⟩

theorem silent_moves {out : List (Entry ℚ)} (h : ∀ e ∈ out, Silent e) :
    tradeTotal TradeRecord.netPnl out = 0 ∧ auditTotal AuditEvent.dividend out = 0 := by
  induction out with
  | nil => exact ⟨rfl, rfl⟩
  | cons e out ih =>
    obtain ⟨ht, hd⟩ := (h e (List.mem_cons_self ..)).moves
    obtain ⟨ht', hd'⟩ := ih fun e he => h e (List.mem_cons_of_mem _ he)
    rw [← List.singleton_append, tradeTotal_append, auditTotal_append, ht, hd, ht', hd']
    exact ⟨add_zero _, add_zero _⟩

theorem PnlBalanced.silent {book : Book ℚ} (h : PnlBalanced initialCapital log book)
    (hs : ∀ e ∈ out, Silent e) : PnlBalanced initialCapital (log ++ out) book := by
  obtain ⟨ht, hd⟩ := silent_moves hs
  apply h.step h.priced
  rw [ht, hd, add_zero, add_zero]

theorem AppliedCases.pnl {book : Book ℚ}
    (h : AppliedCases book ticker position kind book' applied)
    (hpos : book.positions.get? ticker = some position)
    (hkind : ∀ recoveryPrice, kind ≠ .delist recoveryPrice) (hb : PnlBalanced initialCapital log book) :
    PnlBalanced initialCapital
      (log ++ [.audit (.corporateAction date ticker verified applied)]) book' := by
  cases h with
  | @split newQuantity ratio htrunc hnew =>
    have hsplit : (splitPosition position newQuantity).invested = position.invested := by
      have hne : (newQuantity : ℚ) ≠ 0 := Int.cast_ne_zero.mpr hnew.ne'
      simp only [Position.invested, splitPosition, rat_ofInt]
      rw [(hb.priced ticker position hpos).2]
      field_simp
    apply hb.step (hb.priced.insert ⟨hnew, rfl⟩)
    rw [Dict.sum_insert_old _ hpos, hsplit, auditTotal_audit, tradeTotal_audit]
    simp [AuditEvent.dividend]
  | dividend =>
    refine hb.step hb.priced ?_
    rw [auditTotal_audit, tradeTotal_audit]
    simp only [AuditEvent.dividend]
    ring
  | delist => exact absurd rfl (hkind _)

theorem entryShare_self (amount : ℚ) (h : 0 < held) : entryShare amount held held = amount := by
  have hne : (held : ℚ) ≠ 0 := Int.cast_ne_zero.mpr h.ne'
  simp only [entryShare, rat_ofInt]
  field_simp

theorem SellCases.pnl {book : Book ℚ} (h : SellCases spec date bars book order r)
    (hb : PnlBalanced initialCapital log book) : PnlBalanced initialCapital (log ++ r.2) r.1 := by
  cases h with
  | declined hd => exact hb.silent fun e he => List.mem_singleton.mp he ▸ .declined hd
  | @filled position bar sellPrice quantity costs hpos hbar hprice hq hle =>
    dsimp only [settleSell]
    by_cases hall : quantity = position.quantity
    · rw [if_pos hall]
      refine hb.step (hb.priced.erase _) ?_
      rw [Dict.sum_erase _ hpos, tradeTotal_trade_audit, auditTotal_trade_audit, hall,
        entryShare_self _ (hall ▸ hq), entryShare_self _ (hall ▸ hq)]
      simp only [AuditEvent.dividend, Position.invested]
      ring
    · rw [if_neg hall]
      obtain ⟨hheld, hnotional⟩ := hb.priced _ _ hpos
      have hne : (position.quantity : ℚ) ≠ 0 := Int.cast_ne_zero.mpr hheld.ne'
      refine hb.step (hb.priced.insert ⟨sub_pos.mpr (lt_of_le_of_ne hle hall), ?_⟩) ?_
      · simp only [entryShare, rat_ofInt, hnotional]
        push_cast
        field_simp
      · rw [Dict.sum_insert_old _ hpos, tradeTotal_trade_audit, auditTotal_trade_audit]
        simp only [AuditEvent.dividend, Position.invested]
        ring

theorem BuyCases.pnl {book : Book ℚ} (h : BuyCases spec date bars n book order r)
    (hfree : order.ticker ∉ book.positions) (hb : PnlBalanced initialCapital log book) :
    PnlBalanced initialCapital (log ++ r.2) r.1 := by
  cases h with
  | declined hd => exact hb.silent fun e he => List.mem_singleton.mp he ▸ .declined hd
  | filled hbar hprice hunit hsize =>
    refine hb.step (hb.priced.insert ⟨hsize.pos, rfl⟩) ?_
    rw [settleBuy, Dict.sum_insert_new _ hfree, tradeTotal_audit, auditTotal_audit]
    simp only [AuditEvent.dividend, Position.invested]
    ring

theorem StaleCases.pnl {s : StaleBook ℚ} (h : StaleCases spec config date bars s ticker r)
    (hb : PnlBalanced initialCapital log s.book) :
    PnlBalanced initialCapital (log ++ r.2) r.1.book := by
  cases h with
  | counted =>
    rw [List.append_nil]
    exact hb
  | writtenOff hbar hpos =>
    refine hb.step (hb.priced.erase _) ?_
    rw [writeOff, Dict.sum_erase _ hpos, tradeTotal_trade_audit, auditTotal_trade_audit]
    simp only [AuditEvent.dividend, Position.invested]
    ring

theorem pnlBalanced_invariant (spec : StrategySpec ℚ) (config : BacktestRunConfig ℚ) (date : Date)
    (bars : Bars ℚ) : BookInvariant spec config date bars False (PnlBalanced initialCapital) where
  action h hcases hhits := by
    cases hcases with
    | skipped =>
      rw [List.append_nil]
      exact h
    | applied hdate hpos happ =>
      refine (applyToPosition_cases happ).pnl hpos (fun recoveryPrice hkind => ?_) h
      exact hhits ⟨hdate, Dict.mem_of_get? hpos, recoveryPrice, hkind⟩
  sell h _ hcases := hcases.pnl h
  buy h _ hfree hcases := hcases.pnl hfree h
  stale h hcases := hcases.pnl h
  silent h hs := h.silent hs

theorem run_pnl {eng : BacktestEngine ℚ} (hd : NoHeldDelisting eng included)
    (h : traceM (session eng included) eng.initialState (eng.sessions included) = .ok (s, log)) :
    PnlBalanced eng.config.initialCapital log s.book := by
  have hbase : PnlBalanced eng.config.initialCapital [] eng.initialState.book :=
    ⟨.empty, by simp [tradeTotal, auditTotal, BacktestEngine.initialState]⟩
  refine BookInvariant.run (fun date bars => pnlBalanced_invariant eng.spec eng.config date bars)
    (fun {log book} bars hb => ?_) hbase (sessions_increasing eng included) hd h
  constructor
  · refine hb.priced.mapVal fun ticker position hp => ?_
    cases bars.get? ticker <;> exact hp
  · rw [← hb.balance, refreshLastPrices, Dict.sum_mapVal]
    congr 1
    apply Dict.sum_congr
    intro ticker position _
    cases bars.get? ticker <;> rfl

/-- The equity of the last session, or the cash when there was none. -/
def finalEquity (s : EngineState ℚ) (log : List (Entry ℚ)) : ℚ :=
  ((log.filterMap Entry.equity?).getLast?).elim s.cash EquityPoint.totalEquity

/-- Cash and the open positions at their last prices. -/
def EngineState.markedEquity (s : EngineState ℚ) : ℚ :=
  s.cash + s.positions.sum fun _ position => position.quantity * position.lastPrice

theorem run_finalEquity {eng : BacktestEngine ℚ}
    (h : traceM (session eng included) eng.initialState days = .ok (s, log)) :
    finalEquity s log = s.markedEquity := by
  refine traceM_preserves (I := fun l t => finalEquity t l = t.markedEquity) (l := []) h
    (add_zero _).symm ?_
  intro l t date t' o _ _ hst
  obtain ⟨bars, corporate, executed, forced, generated, -, -, -, -, -, hcash, hpos, -, rfl⟩ :=
    (session_passes hst).passes
  have hlast : finalEquity t' (l ++ (corporate.2 ++ executed.2 ++ forced.2 ++ generated.2 ++
      [.equity (equityPoint date t'.cash t'.positions bars t.previousEquity)])) =
      t'.cash + markedValue bars OhlcvBar.close t'.positions := by
    simp [finalEquity, Entry.equity?, equityPoint]
  rw [hlast, EngineState.markedEquity, markedValue_eq, hpos, refreshLastPrices, Dict.sum_mapVal,
    Dict.sum_mapVal]
  congr 1
  apply Dict.sum_congr
  intro ticker position _
  cases bars.get? ticker <;> rfl

/-- Every share bought is still held or sold by one trade record, and the profit adds up. -/
structure AttributionComplete (eng : BacktestEngine ℚ) (s : EngineState ℚ) (log : List (Entry ℚ)) :
    Prop where
  lots : ∀ ticker, replayLots ticker log = some (heldLot s.book ticker)
  profit : tradeTotal TradeRecord.netPnl log +
      (s.positions.sum fun _ position =>
        position.quantity * position.lastPrice - position.entryNotional - position.entryCost) +
      auditTotal AuditEvent.dividend log =
    finalEquity s log - eng.config.initialCapital

/-- The log of a run is attributed exactly when no delisting took a held name. -/
theorem BacktestEngine.attribution_iff {eng : BacktestEngine ℚ}
    (h : eng.trace = .ok (selected, s, log)) :
    AttributionComplete eng s log ↔ NoHeldDelisting eng selected.1 := by
  obtain ⟨days, hlooped, rfl⟩ := trace_looped h
  have hexpire := expireAtEnd_silent (eng.sessions selected.1) s
  have hlots := (run_lots (sessions_increasing eng selected.1) hlooped.loop).silent hexpire
  constructor
  · intro hcomplete
    refine trace_noHeldDelisting hlooped.loop fun ticker hd => ?_
    have hd : Delisted ticker (days ++ expireAtEnd (eng.sessions selected.1) s) :=
      delisted_append.mpr (.inl hd)
    have hreplay := hcomplete.lots ticker
    cases hlots.account ticker with
    | kept hnot => exact hnot hd
    | lost _ hr hfree =>
      rw [hr, heldLot, Dict.get?_eq_none_iff.mpr hfree] at hreplay
      cases hreplay
    | broken _ hr =>
      rw [hr] at hreplay
      cases hreplay
  · intro hnone
    have hpnl := (run_pnl hnone hlooped.loop).silent hexpire
    have hdelisted := run_notDelisted hnone hlooped.loop
    constructor
    · intro ticker
      have hnot : ¬Delisted ticker (days ++ expireAtEnd (eng.sessions selected.1) s) := by
        rw [delisted_append]
        exact not_or.mpr ⟨hdelisted ticker, (OffLot.silent hexpire).listed⟩
      cases hlots.account ticker with
      | kept _ hr => exact hr
      | lost hd => exact absurd hd hnot
      | broken hd => exact absurd hd hnot
    · have hequity : finalEquity s (days ++ expireAtEnd (eng.sessions selected.1) s) =
          s.markedEquity := by
        rw [← run_finalEquity hlooped.loop, finalEquity, List.filterMap_append,
          expireAtEnd_equity, List.append_nil]
        rfl
      have hbalance := hpnl.balance
      have hsplit : (s.positions.sum fun _ position => position.quantity * position.lastPrice -
          position.entryNotional - position.entryCost) =
          (s.positions.sum fun _ position => position.quantity * position.lastPrice) -
            s.positions.sum fun _ => Position.invested := by
        rw [← Dict.sum_sub]
        apply Dict.sum_congr
        intro ticker position _
        rw [Position.invested]
        ring
      rw [hequity, EngineState.markedEquity, hsplit]
      linarith

theorem sampleEngine_attributed : ∃ selected s log,
    sampleEngine.trace = .ok (selected, s, log) ∧ AttributionComplete sampleEngine s log := by
  have htrace : (sampleEngine.trace.isOk) = true := by decide +kernel
  obtain ⟨⟨selected, s, log⟩, hok⟩ := exists_ok htrace
  have hnone : NoHeldDelisting sampleEngine selected.1 := by
    intro past date rest t pastLog _ _ event hevent
    cases hevent
  exact ⟨selected, s, log, hok, (BacktestEngine.attribution_iff hok).mpr hnone⟩

/-- The sample run with a delisting of the bought name on the third session. -/
def delistingEngine : BacktestEngine ℚ :=
  let backtest := { buildSampleSpec.backtest with
    corporateActions := [⟨.delist ⟨10, by decide +kernel⟩, "005930", 3, true⟩] }
  .ofRows { buildSampleSpec with backtest } defaultConfig sampleRows none none

/-- The shares of the delisted name leave the book without a trade record. -/
theorem delistingEngine_unattributed : ∃ selected s log,
    delistingEngine.trace = .ok (selected, s, log) ∧ log.filterMap Entry.trade? = [] ∧
      heldLot s.book "005930" = none ∧ ¬AttributionComplete delistingEngine s log := by
  have htrace : (delistingEngine.trace.map fun r =>
      ((r.2.2.filterMap Entry.trade?).length, heldLot r.2.1.book "005930",
        replayLots "005930" r.2.2)) = .ok (0, none, some (some ⟨2, 90⟩)) := by
    decide +kernel
  obtain ⟨⟨selected, s, log⟩, hok, hview⟩ := map_ok_iff.mp htrace
  obtain ⟨htrades, hlots⟩ := Prod.mk.inj hview
  obtain ⟨hheld, hreplay⟩ := Prod.mk.inj hlots
  refine ⟨selected, s, log, hok, List.eq_nil_of_length_eq_zero htrades, hheld, fun hcomplete => ?_⟩
  exact nomatch hreplay.symm.trans ((hcomplete.lots "005930").trans (congrArg some hheld))

end QuantAgent
