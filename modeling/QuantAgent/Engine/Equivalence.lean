import QuantAgent.Engine.Compact

namespace QuantAgent
set_option autoImplicit true

def Position.unreasoned (position : Position F) : Position F := { position with entryReason := "" }

def PendingOrder.unreasoned (order : PendingOrder F) : PendingOrder F := { order with reason := "" }

@[simp] theorem PendingOrder.unreasoned_ticker (order : PendingOrder F) :
    order.unreasoned.ticker = order.ticker := rfl

@[simp] theorem Position.unreasoned_quantity (position : Position F) :
    position.unreasoned.quantity = position.quantity := rfl

/-- The book without the texts of its positions. -/
def Book.unreasoned (book : Book F) : Book F :=
  ⟨book.cash, book.positions.mapVal fun _ => Position.unreasoned⟩

def TradeRecord.unreasoned (r : TradeRecord F) : TradeRecord F := { r with reason := "" }

def AuditEvent.unreasoned : AuditEvent F → AuditEvent F
  | .submitted order detail => .submitted order.unreasoned detail
  | .executed date order fill => .executed date order.unreasoned fill
  | .expiredNextSession date order => .expiredNextSession date order.unreasoned
  | .unfilledInvalidOpen date order detail => .unfilledInvalidOpen date order.unreasoned detail
  | .ignoredMissingPosition date order => .ignoredMissingPosition date order.unreasoned
  | .unfilledCapacity date order reason requestedQuantity detail =>
    .unfilledCapacity date order.unreasoned reason requestedQuantity detail
  | .skippedMaxPositions date order => .skippedMaxPositions date order.unreasoned
  | .unfilled date order reason price requestedQuantity =>
    .unfilled date order.unreasoned reason price requestedQuantity
  | .expiredNoNextSession date order => .expiredNoNextSession date order.unreasoned
  | e => e

/-- A log entry without the texts of the strategy; its signals are such texts. -/
def Entry.unreasoned? : Entry F → Option (Entry F)
  | .audit e => some (.audit e.unreasoned)
  | .trade r => some (.trade r.unreasoned)
  | .signal _ => none
  | .equity point => some (.equity point)

/-- What a pass left and logged, without texts. -/
def unreasonedLog (log : List (Entry F)) : List (Entry F) := log.filterMap Entry.unreasoned?

def bookView (r : Book F × List (Entry F)) : Book F × List (Entry F) :=
  (r.1.unreasoned, r.2.filterMap Entry.unreasoned?)

theorem Book.unreasoned_unreasoned (book : Book F) :
    book.unreasoned.unreasoned = book.unreasoned := by
  unfold Book.unreasoned
  rw [Dict.mapVal_mapVal]
  rfl

theorem Book.unreasoned_get? (book : Book F) (ticker : Ticker) :
    book.unreasoned.positions.get? ticker =
      (book.positions.get? ticker).map Position.unreasoned := Dict.get?_mapVal ..

theorem Book.unreasoned_insert (cash : F) (positions : Dict Ticker (Position F)) (ticker : Ticker)
    (position : Position F) :
    Book.unreasoned ⟨cash, positions.insert ticker position⟩ =
      ⟨cash, (positions.mapVal fun _ => Position.unreasoned).insert ticker position.unreasoned⟩ := by
  rw [Book.unreasoned, Dict.mapVal_insert]

theorem Book.unreasoned_erase (cash : F) (positions : Dict Ticker (Position F)) (ticker : Ticker) :
    Book.unreasoned ⟨cash, positions.erase ticker⟩ =
      ⟨cash, (positions.mapVal fun _ => Position.unreasoned).erase ticker⟩ := by
  rw [Book.unreasoned, Dict.mapVal_erase]

theorem Book.positions_unreasoned (book : Book F) :
    (book.unreasoned.positions.mapVal fun _ => Position.unreasoned) =
      book.positions.mapVal fun _ => Position.unreasoned :=
  congrArg Book.positions book.unreasoned_unreasoned

section
variable {F : Type} [PyFloat F]

theorem applyToPosition_unreasoned (book : Book F) (ticker : Ticker) (position : Position F)
    (kind : CorporateActionType F) :
    (applyToPosition book ticker position kind).map (fun r => (r.1.unreasoned, r.2)) =
      (applyToPosition book.unreasoned ticker position.unreasoned kind).map
        fun r => (r.1.unreasoned, r.2) := by
  cases kind with
  | split ratio =>
    apply map_bind_same
    intro newQuantity
    apply map_ite_congr Iff.rfl rfl
    apply congrArg Except.ok
    simp only [Book.unreasoned_insert, Book.positions_unreasoned]
    rfl
  | cashDividend perShare =>
    apply congrArg Except.ok
    exact congrArg₂ Prod.mk (congrArg (Book.mk _) book.positions_unreasoned.symm) rfl
  | delist recovery =>
    apply congrArg Except.ok
    simp only [Book.unreasoned_erase, Book.positions_unreasoned]
    rfl

theorem applyCorporateAction_unreasoned (date : Date) (book : Book F)
    (event : CorporateActionEvent F) :
    (applyCorporateAction date book event).map bookView =
      (applyCorporateAction date book.unreasoned event).map bookView := by
  unfold applyCorporateAction
  rw [Book.unreasoned_get?]
  split
  · exact congrArg Except.ok (congrArg₂ Prod.mk book.unreasoned_unreasoned.symm rfl)
  · cases book.positions.get? event.ticker with
    | none => exact congrArg Except.ok (congrArg₂ Prod.mk book.unreasoned_unreasoned.symm rfl)
    | some position =>
      apply map_bind_congr (applyToPosition_unreasoned book event.ticker position event.eventType)
      rintro ⟨b₁, applied₁⟩ ⟨b₂, applied₂⟩ hr
      obtain ⟨hb, rfl⟩ := Prod.mk.inj hr
      exact congrArg Except.ok (congrArg₂ Prod.mk hb rfl)

theorem applyCorporateActions_congr {book₁ book₂ : Book F}
    (h : book₁.unreasoned = book₂.unreasoned) :
    (applyCorporateActions spec date book₁).map bookView =
      (applyCorporateActions spec date book₂).map bookView := by
  apply traceM_map_eq (Q := Eq) (f := Book.unreasoned) (g := Book.unreasoned)
    (p := Entry.unreasoned?) (q := Entry.unreasoned?) (List.forall₂_refl _) h
  rintro b₁ b₂ event _ rfl hb
  exact (applyCorporateAction_unreasoned date b₁ event).trans
    (hb ▸ (applyCorporateAction_unreasoned date b₂ event).symm)

theorem settleSell_unreasoned (costModel : CostModel F) (date : Date) (sellPrice : F)
    (position : Position F) (book : Book F) (order : PendingOrder F) (quantity : ℤ)
    (costs : FillCosts F) :
    bookView (settleSell costModel date sellPrice position book order quantity costs) =
      bookView (settleSell costModel date sellPrice position.unreasoned book.unreasoned
        order.unreasoned quantity costs) := by
  apply congrArg₂ Prod.mk
  · dsimp only [settleSell]
    by_cases hall : quantity = position.quantity
    · rw [Position.unreasoned_quantity, if_pos hall, if_pos hall, Book.unreasoned_erase, Book.unreasoned_erase,
        Book.positions_unreasoned]
      rfl
    · rw [Position.unreasoned_quantity, if_neg hall, if_neg hall, Book.unreasoned_insert, Book.unreasoned_insert,
        Book.positions_unreasoned]
      rfl
  · rfl

theorem bookView_unreasoned (book : Book F) (out : List (Entry F)) (out' : List (Entry F))
    (h : out.filterMap Entry.unreasoned? = out'.filterMap Entry.unreasoned?) :
    bookView (book, out) = bookView (book.unreasoned, out') :=
  congrArg₂ Prod.mk book.unreasoned_unreasoned.symm h

theorem executeSell_unreasoned (spec : StrategySpec F) (date : Date) (bars : Bars F) (book : Book F)
    (order : PendingOrder F) :
    (executeSell spec date bars book order).map bookView =
      (executeSell spec date bars book.unreasoned order.unreasoned).map bookView := by
  unfold executeSell
  rw [Book.unreasoned_get?, PendingOrder.unreasoned_ticker]
  cases book.positions.get? order.ticker with
  | none => exact congrArg Except.ok (bookView_unreasoned _ _ _ rfl)
  | some position =>
    rw [Option.map_some]
    dsimp only
    cases bars.get? order.ticker with
    | none => rfl
    | some bar =>
      apply map_bind_same
      rintro ⟨capacity, reason⟩
      cases reason with
      | some reason => exact congrArg Except.ok (bookView_unreasoned _ _ _ rfl)
      | none =>
        apply map_ite_congr Iff.rfl
        · exact congrArg Except.ok (bookView_unreasoned _ _ _ rfl)
        · apply map_bind_same
          exact fun costs => congrArg Except.ok (settleSell_unreasoned ..)

theorem markedValue_unreasoned (bars : Bars F) (price : OhlcvBar F → F) (book : Book F) :
    markedValue bars price book.unreasoned.positions = markedValue bars price book.positions := by
  unfold markedValue
  rw [Book.unreasoned, Dict.mapVal, List.map_map]
  rfl

omit [PyFloat F] in
theorem size_unreasoned (book : Book F) : book.unreasoned.positions.size = book.positions.size :=
  Dict.size_mapVal ..

theorem settleBuy_unreasoned (costModel : CostModel F) (date : Date) (bar : OhlcvBar F) (buyPrice : F)
    (book : Book F) (order : PendingOrder F) (requested quantity : ℤ) (costs : FillCosts F) :
    bookView (settleBuy costModel date bar buyPrice book order requested quantity costs) =
      bookView (settleBuy costModel date bar buyPrice book.unreasoned order.unreasoned requested
        quantity costs) := by
  apply congrArg₂ Prod.mk
  · dsimp only [settleBuy]
    rw [Book.unreasoned_insert, Book.unreasoned_insert, Book.positions_unreasoned]
    rfl
  · rfl

theorem sizeBuy_unreasoned (spec : StrategySpec F) (date : Date) (bars : Bars F) (orderCount : ℕ)
    (bar : OhlcvBar F) (book : Book F) (order : PendingOrder F) :
    (sizeBuy spec date bars orderCount bar book order).map bookView =
      (sizeBuy spec date bars orderCount bar book.unreasoned order.unreasoned).map bookView := by
  unfold sizeBuy
  dsimp only
  rw [markedValue_unreasoned, size_unreasoned]
  split
  · exact congrArg Except.ok (bookView_unreasoned _ _ _ rfl)
  · apply map_bind_same
    intro budget
    apply map_bind_same
    intro budgetQuantity
    apply map_bind_same
    intro cashQuantity
    apply map_bind_same
    rintro ⟨capacity, reason⟩
    cases reason with
    | some reason => exact congrArg Except.ok (bookView_unreasoned _ _ _ rfl)
    | none =>
      apply map_ite_congr Iff.rfl
      · exact congrArg Except.ok (bookView_unreasoned _ _ _ rfl)
      · apply map_bind_same
        exact fun costs => congrArg Except.ok (settleBuy_unreasoned ..)

theorem executeBuy_unreasoned (spec : StrategySpec F) (date : Date) (bars : Bars F) (orderCount : ℕ)
    (book : Book F) (order : PendingOrder F) :
    (executeBuy spec date bars orderCount book order).map bookView =
      (executeBuy spec date bars orderCount book.unreasoned order.unreasoned).map bookView := by
  unfold executeBuy
  rw [size_unreasoned, PendingOrder.unreasoned_ticker]
  split
  · exact congrArg Except.ok (bookView_unreasoned _ _ _ rfl)
  · cases bars.get? order.ticker with
    | none => rfl
    | some bar => exact sizeBuy_unreasoned ..

omit [PyFloat F] in
theorem filter_unreasoned {p : PendingOrder F → Bool} (hp : ∀ order, p order.unreasoned = p order)
    {orders₁ orders₂ : List (PendingOrder F)}
    (h : orders₁.map PendingOrder.unreasoned = orders₂.map PendingOrder.unreasoned) :
    (orders₁.filter p).map PendingOrder.unreasoned =
      (orders₂.filter p).map PendingOrder.unreasoned := by
  have hmap : ∀ orders : List (PendingOrder F), (orders.filter p).map PendingOrder.unreasoned =
      (orders.map PendingOrder.unreasoned).filter p := by
    intro orders
    rw [List.filter_map]
    congr 1
    exact List.filter_congr fun order _ => (hp order).symm
  rw [hmap, hmap, h]

theorem rejectAtOpen_unreasoned (date : Date) (bars : Bars F) (order : PendingOrder F) :
    (rejectAtOpen date bars order.unreasoned) =
      (rejectAtOpen date bars order).map AuditEvent.unreasoned := by
  unfold rejectAtOpen
  rw [PendingOrder.unreasoned_ticker]
  cases bars.get? order.ticker with
  | none => rfl
  | some bar =>
    dsimp only
    split <;> rfl

theorem rejected_unreasoned (date : Date) (bars : Bars F) (orders : List (PendingOrder F)) :
    unreasonedLog ((orders.filterMap (rejectAtOpen date bars)).map Entry.audit) =
      ((orders.map PendingOrder.unreasoned).filterMap (rejectAtOpen date bars)).map Entry.audit := by
  unfold unreasonedLog
  rw [List.filterMap_map, List.filterMap_map, List.filterMap_filterMap, List.map_filterMap]
  apply List.filterMap_congr
  intro order _
  simp only [Function.comp_apply, rejectAtOpen_unreasoned]
  cases rejectAtOpen date bars order <;> rfl

theorem buyPriorityLT_unreasoned (a b : PendingOrder F) :
    buyPriorityLT a.unreasoned b.unreasoned = buyPriorityLT a b := rfl

theorem buyOrders_unreasoned {book₁ book₂ : Book F} (hbook : book₁.unreasoned = book₂.unreasoned)
    (horders : orders₁.map PendingOrder.unreasoned = orders₂.map PendingOrder.unreasoned) :
    (buyOrders book₁.positions orders₁).map PendingOrder.unreasoned =
      (buyOrders book₂.positions orders₂).map PendingOrder.unreasoned := by
  have hheld : ∀ ticker, ticker ∈ book₁.positions ↔ ticker ∈ book₂.positions := by
    intro ticker
    rw [← Dict.mem_mapVal fun _ => Position.unreasoned,
      ← Dict.mem_mapVal (fun _ => Position.unreasoned) book₂.positions]
    exact iff_of_eq (congrArg (fun book : Book F => ticker ∈ book.positions) hbook)
  unfold buyOrders
  rw [← pySorted_map buyPriorityLT_unreasoned, ← pySorted_map buyPriorityLT_unreasoned]
  congr 1
  simp only [← hheld]
  exact filter_unreasoned (fun _ => rfl) horders

theorem executePendingOrders_congr {book₁ book₂ : Book F}
    (hbook : book₁.unreasoned = book₂.unreasoned)
    (horders : pending₁.map PendingOrder.unreasoned = pending₂.map PendingOrder.unreasoned) :
    (executePendingOrders spec date bars book₁ pending₁).map bookView =
      (executePendingOrders spec date bars book₂ pending₂).map bookView := by
  have heligible : (eligibleOrders date pending₁).map PendingOrder.unreasoned =
      (eligibleOrders date pending₂).map PendingOrder.unreasoned :=
    filter_unreasoned (fun _ => rfl) horders
  have hexecutable : (executableOrders date bars pending₁).map PendingOrder.unreasoned =
      (executableOrders date bars pending₂).map PendingOrder.unreasoned := by
    refine filter_unreasoned (fun order => ?_) heligible
    rw [rejectAtOpen_unreasoned, Option.isNone_map]
  have hsells : (sellOrders (executableOrders date bars pending₁)).map PendingOrder.unreasoned =
      (sellOrders (executableOrders date bars pending₂)).map PendingOrder.unreasoned :=
    filter_unreasoned (fun _ => rfl) hexecutable
  have hsell : ∀ b₁ b₂ order₁ order₂, order₁.unreasoned = order₂.unreasoned →
      b₁.unreasoned = b₂.unreasoned →
      (executeSell spec date bars b₁ order₁).map bookView =
        (executeSell spec date bars b₂ order₂).map bookView := by
    intro b₁ b₂ order₁ order₂ horder hb
    rw [executeSell_unreasoned, executeSell_unreasoned spec date bars b₂ order₂, horder, hb]
  have hbuy : ∀ n b₁ b₂ order₁ order₂, order₁.unreasoned = order₂.unreasoned →
      b₁.unreasoned = b₂.unreasoned →
      (executeBuy spec date bars n b₁ order₁).map bookView =
        (executeBuy spec date bars n b₂ order₂).map bookView := by
    intro n b₁ b₂ order₁ order₂ horder hb
    rw [executeBuy_unreasoned, executeBuy_unreasoned spec date bars n b₂ order₂, horder, hb]
  unfold executePendingOrders
  apply map_bind_congr (v := bookView) (w := bookView)
  · exact traceM_map_eq (forall₂_of_map_eq hsells) hbook fun b₁ b₂ o₁ o₂ ho hb =>
      hsell b₁ b₂ o₁ o₂ ho hb
  · rintro ⟨sold₁, sellLog₁⟩ ⟨sold₂, sellLog₂⟩ hsold
    obtain ⟨hsold, hsellLog⟩ := Prod.mk.inj hsold
    have hbuys := buyOrders_unreasoned hsold hexecutable
    have hlength : (buyOrders sold₁.positions (executableOrders date bars pending₁)).length =
        (buyOrders sold₂.positions (executableOrders date bars pending₂)).length := by
      simpa using congrArg List.length hbuys
    apply map_bind_congr (v := bookView) (w := bookView)
    · rw [hlength]
      exact traceM_map_eq (forall₂_of_map_eq hbuys) hsold fun b₁ b₂ o₁ o₂ ho hb =>
        hbuy _ b₁ b₂ o₁ o₂ ho hb
    · rintro ⟨bought₁, buyLog₁⟩ ⟨bought₂, buyLog₂⟩ hbought
      obtain ⟨hbought, hbuyLog⟩ := Prod.mk.inj hbought
      refine congrArg Except.ok (congrArg₂ Prod.mk hbought ?_)
      have hreject := rejected_unreasoned date bars (eligibleOrders date pending₁)
      rw [heligible, ← rejected_unreasoned] at hreject
      simp only [List.filterMap_append, hsellLog, hbuyLog]
      exact congrArg (· ++ _ ++ _) hreject

def staleView (r : StaleBook F × List (Entry F)) : (Book F × Dict Ticker ℤ) × List (Entry F) :=
  ((r.1.book.unreasoned, r.1.staleDays), r.2.filterMap Entry.unreasoned?)

theorem writeOffStalePosition_unreasoned (spec : StrategySpec F) (config : BacktestRunConfig F)
    (date : Date) (bars : Bars F) (s : StaleBook F) (ticker : Ticker) :
    (writeOffStalePosition spec config date bars s ticker).map staleView =
      (writeOffStalePosition spec config date bars ⟨s.book.unreasoned, s.staleDays⟩ ticker).map
        staleView := by
  have hkept : ∀ staleDays, staleView (⟨s.book, staleDays⟩, []) =
      staleView (⟨s.book.unreasoned, staleDays⟩, ([] : List (Entry F))) := by
    intro staleDays
    rw [staleView, staleView, Book.unreasoned_unreasoned]
  unfold writeOffStalePosition
  apply map_ite_congr Iff.rfl
  · exact congrArg Except.ok (hkept _)
  · apply map_ite_congr Iff.rfl
    · exact congrArg Except.ok (hkept _)
    · rw [Book.unreasoned_get?]
      cases s.book.positions.get? ticker with
      | none => rfl
      | some position =>
        apply congrArg Except.ok
        rw [staleView, staleView]
        simp only [writeOff, Book.unreasoned_erase, Book.positions_unreasoned]
        rfl

theorem writeOffStalePositions_congr {s₁ s₂ : StaleBook F}
    (hbook : s₁.book.unreasoned = s₂.book.unreasoned) (hstale : s₁.staleDays = s₂.staleDays) :
    (writeOffStalePositions spec config date bars s₁).map staleView =
      (writeOffStalePositions spec config date bars s₂).map staleView := by
  have hview : (s₁.book.unreasoned, s₁.staleDays) = (s₂.book.unreasoned, s₂.staleDays) :=
    congrArg₂ Prod.mk hbook hstale
  have hkeys : s₁.book.positions.keys = s₂.book.positions.keys := by
    have hmap := congrArg (fun book : Book F => book.positions.keys) hbook
    simpa only [Book.unreasoned, Dict.keys_mapVal] using hmap
  unfold writeOffStalePositions
  apply map_ite_congr Iff.rfl
  · exact congrArg Except.ok (congrArg₂ Prod.mk hview rfl)
  · rw [hkeys]
    apply traceM_map_eq (Q := Eq) (f := fun s : StaleBook F => (s.book.unreasoned, s.staleDays))
      (g := fun s : StaleBook F => (s.book.unreasoned, s.staleDays)) (List.forall₂_refl _) hview
    rintro b₁ b₂ ticker _ rfl hb
    obtain ⟨hb, hdays⟩ := Prod.mk.inj hb
    refine (writeOffStalePosition_unreasoned spec config date bars b₁ ticker).trans ?_
    rw [hb, hdays]
    exact (writeOffStalePosition_unreasoned spec config date bars b₂ ticker).symm

omit [PyFloat F] in
theorem refreshLastPrices_unreasoned (bars : Bars F) (book : Book F) :
    ((refreshLastPrices bars book.positions).mapVal fun _ => Position.unreasoned) =
      refreshLastPrices bars book.unreasoned.positions := by
  unfold refreshLastPrices Book.unreasoned
  rw [Dict.mapVal_mapVal, Dict.mapVal_mapVal]
  congr 1
  funext ticker position
  cases bars.get? ticker <;> rfl

/-- The engine state without texts. -/
def EngineState.unreasoned (s : EngineState F) : EngineState F :=
  { s with
    positions := s.positions.mapVal fun _ => Position.unreasoned
    pendingOrders := s.pendingOrders.map PendingOrder.unreasoned }

/-- What a signal phase queued and logged, without texts. -/
def queueView (r : List (PendingOrder F) × List (Entry F)) : List (PendingOrder F) × List (Entry F) :=
  (r.1.map PendingOrder.unreasoned, r.2.filterMap Entry.unreasoned?)

omit [PyFloat F] in
/-- Texts do not count for the trades of a log. -/
theorem unreasoned_trades (log : List (Entry F)) :
    (log.filterMap Entry.unreasoned?).filterMap Entry.trade? =
      (log.filterMap Entry.trade?).map TradeRecord.unreasoned := by
  rw [List.filterMap_filterMap, List.map_filterMap]
  apply List.filterMap_congr
  intro e _
  cases e <;> rfl

omit [PyFloat F] in
theorem forcedTrades_length {log₁ log₂ : List (Entry F)}
    (h : log₁.filterMap Entry.unreasoned? = log₂.filterMap Entry.unreasoned?) :
    (log₁.filterMap Entry.trade?).length = (log₂.filterMap Entry.trade?).length := by
  have hlength := congrArg (fun log : List (Entry F) => (log.filterMap Entry.trade?).length) h
  simpa only [unreasoned_trades, List.length_map] using hlength

/-- Two sessions look alike when their bars, their strategy and their signal phases do. -/
theorem session_congr {eng₁ eng₂ : BacktestEngine F} {s₁ s₂ : EngineState F}
    (hspec : eng₁.spec = eng₂.spec) (hconfig : eng₁.config = eng₂.config)
    (hbars : eng₁.todayBars included date = some bars)
    (hbars₂ : eng₂.todayBars included date = some bars)
    (hsignals : ∀ book₁ book₂ : Book F, book₁.unreasoned = book₂.unreasoned →
      (generateSignalsForDate eng₁ eng₁.prepared date bars book₁.positions []).map queueView =
        (generateSignalsForDate eng₂ eng₂.prepared date bars book₂.positions []).map queueView)
    (hstate : s₁.unreasoned = s₂.unreasoned) :
    (session eng₁ included s₁ date).map
        (fun r => (r.1.unreasoned, r.2.filterMap Entry.unreasoned?)) =
      (session eng₂ included s₂ date).map
        fun r => (r.1.unreasoned, r.2.filterMap Entry.unreasoned?) := by
  obtain ⟨hcash₀, hpositions, hpending, hprevious, hstale, hforced⟩ :=
    EngineState.mk.injEq .. ▸ hstate
  have hbook : Book.unreasoned ⟨s₁.cash, s₁.positions⟩ = Book.unreasoned ⟨s₂.cash, s₂.positions⟩ :=
    congrArg₂ Book.mk hcash₀ hpositions
  unfold session
  simp only [hbars, hbars₂, hspec, hconfig, Option.elim_some, pure_bind, List.filter_nil,
    List.nil_append]
  apply map_bind_congr (applyCorporateActions_congr hbook)
  rintro ⟨corp₁, corpLog₁⟩ ⟨corp₂, corpLog₂⟩ hcorp
  obtain ⟨hcorp, hcorpLog⟩ := Prod.mk.inj hcorp
  apply map_bind_congr (executePendingOrders_congr hcorp hpending)
  rintro ⟨exec₁, execLog₁⟩ ⟨exec₂, execLog₂⟩ hexec
  obtain ⟨hexec, hexecLog⟩ := Prod.mk.inj hexec
  apply map_bind_congr (writeOffStalePositions_congr hexec hstale)
  rintro ⟨⟨forced₁, days₁⟩, forcedLog₁⟩ ⟨⟨forced₂, days₂⟩, forcedLog₂⟩ hoff
  obtain ⟨hoff, hoffLog⟩ := Prod.mk.inj hoff
  obtain ⟨hoff, hdays⟩ := Prod.mk.inj hoff
  have hoff : forced₁.unreasoned = forced₂.unreasoned := hoff
  have hdays : days₁ = days₂ := hdays
  apply map_bind_congr (hsignals forced₁ forced₂ hoff)
  rintro ⟨orders₁, genLog₁⟩ ⟨orders₂, genLog₂⟩ hgen
  obtain ⟨hgen, hgenLog⟩ := Prod.mk.inj hgen
  obtain ⟨hcash, -⟩ := Book.mk.injEq .. ▸ hoff
  have hrefresh := congrArg (fun book : Book F => refreshLastPrices bars book.positions) hoff
  simp only [← refreshLastPrices_unreasoned] at hrefresh
  have hpoint : equityPoint date forced₂.cash (refreshLastPrices bars forced₁.positions) bars
        s₁.previousEquity =
      equityPoint date forced₂.cash (refreshLastPrices bars forced₂.positions) bars
        s₂.previousEquity := by
    have hmarked := congrArg (markedValue bars OhlcvBar.close) hrefresh
    have herase : ∀ book : Book F, markedValue bars OhlcvBar.close
        ((refreshLastPrices bars book.positions).mapVal fun _ => Position.unreasoned) =
          markedValue bars OhlcvBar.close (refreshLastPrices bars book.positions) := fun book =>
      markedValue_unreasoned bars OhlcvBar.close ⟨book.cash, refreshLastPrices bars book.positions⟩
    rw [herase, herase] at hmarked
    unfold equityPoint
    rw [hmarked, hprevious]
  have hlength := forcedTrades_length hoffLog
  refine congrArg Except.ok (congrArg₂ Prod.mk ?_ ?_)
  · simp only [EngineState.unreasoned, hcash, hrefresh, hgen, hdays, hpoint, hlength, hforced]
  · simp only [List.filterMap_append, hcorpLog, hexecLog, hoffLog, hgenLog, hcash, hpoint]

omit [PyFloat F] in
theorem held_unreasoned {book₁ book₂ : Book F} (h : book₁.unreasoned = book₂.unreasoned)
    (ticker : Ticker) :
    (book₁.positions.get? ticker).map Position.unreasoned =
      (book₂.positions.get? ticker).map Position.unreasoned := by
  rw [← Book.unreasoned_get?, h, Book.unreasoned_get?]

omit [PyFloat F] in
theorem mem_unreasoned {book₁ book₂ : Book F} (h : book₁.unreasoned = book₂.unreasoned)
    (ticker : Ticker) : ticker ∈ book₁.positions ↔ ticker ∈ book₂.positions := by
  rw [Dict.mem_iff_get?, Dict.mem_iff_get?]
  have hget := held_unreasoned h ticker
  cases h₁ : book₁.positions.get? ticker <;> cases h₂ : book₂.positions.get? ticker <;>
    simp [h₁, h₂] at hget ⊢

end
end QuantAgent
