import QuantAgent.DataSource.Timeline

namespace QuantAgent.DataSource
open QuantAgent.Features
set_option autoImplicit true

section Walk
variable {F : Type} [NumPy F]

/-- The figures of the newest of some filings, nothing before the first. -/
def currentRatios (filings : List (Filing F)) : Dict String F :=
  (filings.getLast?.map Filing.ratios).getD .empty

/-- Filings in the order of their dates. -/
def InDateOrder (filings : List (Filing F)) : Prop := filings.Pairwise fun f g => f.filed ≤ g.filed

omit [NumPy F] in
@[simp] theorem currentRatios_concat (filings : List (Filing F)) (filing : Filing F) :
    currentRatios (filings ++ [filing]) = filing.ratios := by
  rw [currentRatios, List.getLast?_concat]
  rfl

/-- A walk that has passed some filings goes on to the ones before the day. -/
theorem advance_eq {filings : List (Filing F)} (hdone : ∀ f ∈ filings, f.filed < day)
    (hsorted : InDateOrder pending) :
    advance day pending (currentRatios filings) =
      (pending.filter fun f => !decide (f.filed < day),
        currentRatios (filings ++ pending.filter fun f => decide (f.filed < day))) := by
  induction pending generalizing filings with
  | nil => simp [advance]
  | cons f pending ih =>
    obtain ⟨hhead, htail⟩ := List.pairwise_cons.mp hsorted
    by_cases h : f.filed < day
    · have hdone' : ∀ g ∈ filings ++ [f], g.filed < day := by
        intro g hg
        rcases List.mem_append.mp hg with hg | hg
        · exact hdone g hg
        · exact List.mem_singleton.mp hg ▸ h
      have hstep := ih hdone' htail
      rw [currentRatios_concat] at hstep
      rw [advance, if_pos h, hstep, List.filter_cons_of_neg (by simpa using h),
        List.filter_cons_of_pos (by simpa using h), List.append_assoc, List.singleton_append]
    · have hlate : ∀ g ∈ f :: pending, ¬ g.filed < day := by
        intro g hg
        rcases List.mem_cons.mp hg with rfl | hg
        · exact h
        · exact fun hlt => h (lt_of_le_of_lt (hhead g hg) hlt)
      have hall : (f :: pending).filter (fun g => !decide (g.filed < day)) = f :: pending :=
        List.filter_eq_self.mpr fun g hg => by simpa using hlate g hg
      have hnone : (f :: pending).filter (fun g => decide (g.filed < day)) = [] :=
        List.filter_eq_nil_iff.mpr fun g hg => by simpa using hlate g hg
      rw [advance, if_neg h, hall, hnone, List.append_nil]

/-- What a bar gets of its ticker's timeline. -/
def barOn (filings : List (Filing F)) (row : Row F) : Row F :=
  match rowDate row with
  | .ok day => attachBar (currentRatios (filings.filter fun f => decide (f.filed < day))) row
  | .error _ => row

/-- The bar at a place has that day. -/
def HasDay (priceRows : List (Row F)) (i : ℕ) (day : PyDate) : Prop :=
  ∃ row, priceRows[i]? = some row ∧ rowDate row = .ok day

/-- The walk gives every bar it meets the filings before its day, and leaves the others alone. -/
theorem walk_eq {passed pending : List (Filing F)} {places : List ℕ} {priceRows : List (Row F)}
    (hsorted : InDateOrder (passed ++ pending)) (hnodup : places.Nodup)
    (hday : ∀ i ∈ places, ∃ day, HasDay priceRows i day ∧ ∀ f ∈ passed, f.filed < day)
    (horder : places.Pairwise fun i j => ∀ d e, HasDay priceRows i d → HasDay priceRows j e → d ≤ e) :
    ∃ out, walk pending (currentRatios passed) places priceRows = .ok out ∧
      ∀ j, out[j]? = if j ∈ places then (priceRows[j]?).map (barOn (passed ++ pending)) else priceRows[j]? := by
  induction places generalizing passed pending priceRows with
  | nil => exact ⟨priceRows, rfl, fun j => by simp⟩
  | cons i places ih =>
    obtain ⟨hi, hnodup⟩ := List.nodup_cons.mp hnodup
    obtain ⟨hfirst, horder⟩ := List.pairwise_cons.mp horder
    obtain ⟨day, ⟨row, hrow, hrowDay⟩, hpassed⟩ := hday i List.mem_cons_self
    have hpending : InDateOrder pending := (List.pairwise_append.mp hsorted).2.1
    let early := pending.filter fun f => decide (f.filed < day)
    let late := pending.filter fun f => !decide (f.filed < day)
    have hsplit : early ++ late = pending := by
      apply filter_append_filter_not
      exact hpending.imp fun {f g} hfg hg => by
        simp only [decide_eq_true_eq] at hg ⊢
        exact lt_of_le_of_lt hfg hg
    have hwhole : (passed ++ early) ++ late = passed ++ pending := by rw [List.append_assoc, hsplit]
    -- the bars after this one are on the same day or later
    have hrest : ∀ j ∈ places, ∃ d, HasDay priceRows j d ∧ ∀ f ∈ passed ++ early, f.filed < d := by
      intro j hj
      obtain ⟨d, hd, _⟩ := hday j (List.mem_cons_of_mem i hj)
      have hle : day ≤ d := hfirst j hj day d ⟨row, hrow, hrowDay⟩ hd
      refine ⟨d, hd, fun f hf => ?_⟩
      rcases List.mem_append.mp hf with hf | hf
      · exact lt_of_lt_of_le (hpassed f hf) hle
      · exact lt_of_lt_of_le (of_decide_eq_true (List.mem_filter.mp hf).2) hle
    let bar := attachBar (currentRatios (passed ++ early)) row
    have hkeep : ∀ j ∈ places, (priceRows.set i bar)[j]? = priceRows[j]? := by
      intro j hj
      exact List.getElem?_set_ne fun h : i = j => hi (h ▸ hj)
    have hdays : ∀ j ∈ places, ∀ d, HasDay (priceRows.set i bar) j d ↔ HasDay priceRows j d := by
      intro j hj d
      rw [HasDay, HasDay, hkeep j hj]
    have hsorted' : InDateOrder ((passed ++ early) ++ late) := hwhole ▸ hsorted
    obtain ⟨out, hout, hplaces⟩ := ih hsorted' hnodup
      (fun j hj => by
        obtain ⟨d, hd, hf⟩ := hrest j hj
        exact ⟨d, (hdays j hj d).mpr hd, hf⟩)
      (horder.imp_of_mem fun {j k} hj hk hjk d e hd he =>
        hjk d e ((hdays j hj d).mp hd) ((hdays k hk e).mp he))
    refine ⟨out, ?_, fun j => ?_⟩
    · have hreached := advance_eq hpassed hpending
      rw [walk, hrow]
      simp only [hrowDay]
      change walk (advance day pending (currentRatios passed)).1 _ _ _ = _
      rw [hreached]
      exact hout
    · rw [hplaces j, hwhole]
      by_cases hj : j ∈ places
      · rw [if_pos hj, if_pos (List.mem_cons_of_mem i hj), hkeep j hj]
      · by_cases hji : j = i
        · subst hji
          have hlt : j < priceRows.length := (List.getElem?_eq_some_iff.mp hrow).1
          have hall : (passed ++ pending).filter (fun f => decide (f.filed < day)) = passed ++ early := by
            rw [List.filter_append, List.filter_eq_self.mpr fun f hf => decide_eq_true (hpassed f hf)]
          rw [if_neg hj, if_pos List.mem_cons_self, List.getElem?_set_self hlt, hrow, Option.map_some,
            barOn, hrowDay]
          simp only [hall]
          rfl
        · have hnot : j ∉ i :: places := by
            rw [List.mem_cons, not_or]
            exact ⟨hji, hj⟩
          rw [if_neg hj, if_neg hnot, List.getElem?_set_ne (Ne.symm hji)]

end Walk

section Tickers
variable {F : Type} [NumPy F]

def rowTicker (row : Row F) : String := tickerKey (row.value "ticker")

theorem barOn_nil (row : Row F) : barOn [] row = row := by
  unfold barOn
  split
  · rfl
  · rfl

/-- A bar as the financials of all tickers leave it. -/
def barOf (financials : Dict String (List (Filing F))) (row : Row F) : Row F :=
  barOn ((financials.get? (rowTicker row)).getD []) row

/-- The date of the row is the text of a day. -/
def Dated (row : Row F) : Prop := ∃ day : PyDate, row.value "date" = .text day.isoformat

theorem Dated.rowDate {row : Row F} {day : PyDate} (h : row.value "date" = .text day.isoformat) :
    rowDate row = .ok day := by
  rw [DataSource.rowDate, h]
  exact PyDate.fromIsoFormat_isoformat day

theorem Dated.date {row : Row F} {day : PyDate} (h : row.value "date" = .text day.isoformat) :
    row.date = day.isoformat := by
  have hne : day.isoformat ≠ "" := by
    intro h
    have hlen := congrArg (fun s : String => s.toList.length) h
    simp [PyDate.isoformat] at hlen
  rw [Row.date, h, Cell.or, if_pos (by simpa [Cell.truthy] using hne)]
  rfl

/-- Sorting by the text of the date sorts by the day. -/
theorem sortByDate_pairwise {priceRows : List (Row F)} {places : List ℕ}
    (hdated : ∀ i ∈ places, ∀ row, priceRows[i]? = some row → Dated row) :
    (sortByDate priceRows places).Pairwise fun i j =>
      ∀ d e, HasDay priceRows i d → HasDay priceRows j e → d ≤ e := by
  have hsorted : (sortByDate priceRows places).Pairwise fun i j =>
      ((priceRows[i]?).map Row.date).getD "" ≤ ((priceRows[j]?).map Row.date).getD "" :=
    pySorted_pairwise (fun _ _ => rfl) places
  have hkey : ∀ i ∈ places, ∀ d, HasDay priceRows i d →
      ((priceRows[i]?).map Row.date).getD "" = d.isoformat := by
    rintro i hi d ⟨row, hrow, hd⟩
    obtain ⟨day, hday⟩ := hdated i hi row hrow
    obtain rfl : day = d := Except.ok.inj ((Dated.rowDate hday).symm.trans hd)
    rw [hrow, Option.map_some, Option.getD_some, Dated.date hday]
  refine hsorted.imp_of_mem fun {i j} hi hj hij d e hd he => ?_
  rw [hkey i ((mem_pySorted _).mp hi) d hd, hkey j ((mem_pySorted _).mp hj) e he] at hij
  exact not_lt.mp fun hlt => absurd (PyDate.isoformat_lt_iff.mpr hlt) (not_lt.mpr hij)

/-- The tickers still to come have their rows as they were. -/
theorem attachTickers_eq {financials : Dict String (List (Filing F))} {rows : List (Row F)}
    (hfilings : financials.All fun _ filings => InDateOrder filings) (hdated : ∀ row ∈ rows, Dated row)
    {entries : List (String × List ℕ)} (hnodup : (entries.map Prod.fst).Nodup)
    (hplaces : ∀ entry ∈ entries, entry.2.Nodup ∧
      ∀ i, i ∈ entry.2 ↔ ∃ row, rows[i]? = some row ∧ rowTicker row = entry.1)
    {priceRows : List (Row F)} (hsame : ∀ (j : ℕ) row, rows[j]? = some row →
      rowTicker row ∈ entries.map Prod.fst → priceRows[j]? = some row) :
    ∃ out : List (Row F), entries.foldlM (attachTicker financials) priceRows = .ok out ∧
      (∀ (j : ℕ) row, rows[j]? = some row → rowTicker row ∈ entries.map Prod.fst →
        out[j]? = some (barOf financials row)) ∧
      ∀ j : ℕ, (∀ row, rows[j]? = some row → rowTicker row ∉ entries.map Prod.fst) → out[j]? = priceRows[j]? := by
  induction entries generalizing priceRows with
  | nil => exact ⟨priceRows, rfl, fun _ _ _ h => absurd h List.not_mem_nil, fun _ _ => rfl⟩
  | cons entry entries ih =>
    obtain ⟨ticker, places⟩ := entry
    rw [List.map_cons, List.nodup_cons] at hnodup
    obtain ⟨hfresh, hnodup⟩ := hnodup
    obtain ⟨hplacesNodup, hmem⟩ := hplaces _ List.mem_cons_self
    have horig : ∀ i ∈ places, ∃ row, rows[i]? = some row ∧ rowTicker row = ticker ∧
        priceRows[i]? = some row := by
      intro i hi
      obtain ⟨row, hrow, hticker⟩ := (hmem i).mp hi
      exact ⟨row, hrow, hticker, hsame i row hrow (hticker ▸ List.mem_cons_self)⟩
    have hdatedPlaces : ∀ i ∈ places, ∀ row, priceRows[i]? = some row → Dated row := by
      intro i hi row hrow
      obtain ⟨row', hrow', _, hprice⟩ := horig i hi
      obtain rfl : row' = row := Option.some.inj (hprice.symm.trans hrow)
      exact hdated row' (List.mem_of_getElem? hrow')
    -- this ticker's rows are walked, the others kept
    have hstep : ∃ mid, attachTicker financials priceRows (ticker, places) = .ok mid ∧
        ∀ j, mid[j]? = if j ∈ places then (priceRows[j]?).map (barOf financials) else priceRows[j]? := by
      have hbar : ∀ j ∈ places, (priceRows[j]?).map (barOf financials) =
          (priceRows[j]?).map (barOn ((financials.get? ticker).getD [])) := by
        intro j hj
        obtain ⟨row, _, hticker, hprice⟩ := horig j hj
        rw [hprice, Option.map_some, Option.map_some, barOf, hticker]
      unfold attachTicker
      simp only
      split
      · rename_i hnone
        refine ⟨priceRows, rfl, fun j => ?_⟩
        split
        · rename_i hj
          rw [hbar j hj, hnone, show barOn [] = id from funext barOn_nil, Option.map_id, id]
        · rfl
      · have hinOrder : InDateOrder ([] ++ (financials.get? ticker).getD []) := by
          cases hget : financials.get? ticker with
          | none => exact List.Pairwise.nil
          | some filings => exact hfilings ticker filings hget
        obtain ⟨mid, hmid, hall⟩ := walk_eq hinOrder ((pySorted_perm _ places).nodup_iff.mpr hplacesNodup)
          (fun i hi => by
            obtain ⟨row, hrow, _, hprice⟩ := horig i ((mem_pySorted _).mp hi)
            obtain ⟨day, hday⟩ := hdated row (List.mem_of_getElem? hrow)
            exact ⟨day, ⟨row, hprice, Dated.rowDate hday⟩, fun _ h => absurd h List.not_mem_nil⟩)
          (sortByDate_pairwise hdatedPlaces)
        refine ⟨mid, hmid, fun j => ?_⟩
        rw [hall j]
        by_cases hj : j ∈ places
        · rw [if_pos ((mem_pySorted _).mpr hj), if_pos hj, hbar j hj]
          rfl
        · rw [if_neg fun h => hj ((mem_pySorted _).mp h), if_neg hj]
    obtain ⟨mid, hmid, hmidAt⟩ := hstep
    have hother : ∀ (j : ℕ) (row : Row F), rows[j]? = some row → rowTicker row ≠ ticker → mid[j]? = priceRows[j]? := by
      intro j row hrow hne
      have hj : j ∉ places := by
        intro hj
        obtain ⟨row', hrow', hticker⟩ := (hmem j).mp hj
        obtain rfl : row' = row := Option.some.inj (hrow'.symm.trans hrow)
        exact hne hticker
      rw [hmidAt j, if_neg hj]
    have hsame' : ∀ (j : ℕ) (row : Row F), rows[j]? = some row → rowTicker row ∈ entries.map Prod.fst →
        mid[j]? = some row := by
      intro j row hrow hin
      rw [hother j row hrow fun h => hfresh (h ▸ hin)]
      exact hsame j row hrow (List.mem_cons_of_mem _ hin)
    obtain ⟨out, hout, hdone, hkept⟩ :=
      ih hnodup (fun e he => hplaces e (List.mem_cons_of_mem _ he)) hsame'
    refine ⟨out, ?_, fun j row hrow hin => ?_, fun j hnot => ?_⟩
    · rw [List.foldlM_cons, hmid]
      exact hout
    · rw [List.map_cons, List.mem_cons] at hin
      by_cases hlater : rowTicker row ∈ entries.map Prod.fst
      · exact hdone j row hrow hlater
      · have hticker : rowTicker row = ticker := hin.resolve_right hlater
        have hj : j ∈ places := (hmem j).mpr ⟨row, hrow, hticker⟩
        rw [hkept j fun row' hrow' => by
            obtain rfl : row = row' := Option.some.inj (hrow.symm.trans hrow')
            exact hlater,
          hmidAt j, if_pos hj, hsame j row hrow (hticker ▸ List.mem_cons_self), Option.map_some]
    · rw [hkept j fun row hrow hin => hnot row hrow (List.mem_cons_of_mem _ hin)]
      have hj : j ∉ places := by
        intro hj
        obtain ⟨row, hrow, hticker⟩ := (hmem j).mp hj
        exact hnot row hrow (hticker ▸ List.mem_cons_self)
      rw [hmidAt j, if_neg hj]

/-- The places of a ticker are those of its rows, each once. -/
theorem rowsByTicker_places {rows : List (Row F)} (h : (rowsByTicker rows).get? ticker = some places) :
    places.Nodup ∧ ∀ i, i ∈ places ↔ ∃ row, rows[i]? = some row ∧ rowTicker row = ticker := by
  rw [rowsByTicker, Dict.get?_group] at h
  split at h
  · cases h
  · have hfold : ∀ (l : List (ℕ × Row F)) (acc : List ℕ),
        l.foldl (fun places entry => places ++ [entry.1]) acc = acc ++ l.map Prod.fst := by
      intro l acc
      induction l generalizing acc with
      | nil => simp
      | cons e l ih => rw [List.foldl_cons, ih, List.map_cons, List.append_assoc, List.singleton_append]
    rw [hfold, List.nil_append, Option.some.injEq] at h
    subst h
    have hfst : ((List.range rows.length).zip rows).map Prod.fst = List.range rows.length :=
      List.map_fst_zip (by simp)
    constructor
    · exact (List.nodup_range.sublist (hfst ▸ List.filter_sublist.map Prod.fst))
    · intro i
      rw [List.mem_map]
      constructor
      · rintro ⟨⟨j, row⟩, hmem, rfl⟩
        obtain ⟨hmem, hticker⟩ := List.mem_filter.mp hmem
        obtain ⟨k, hk⟩ := List.getElem?_of_mem hmem
        rw [List.getElem?_zip_eq_some] at hk
        obtain ⟨hrange, hrow⟩ := hk
        have : k = j := by
          have := (List.getElem?_eq_some_iff.mp hrange).2
          simpa using this
        exact ⟨row, this ▸ hrow, of_decide_eq_true hticker⟩
      · rintro ⟨row, hrow, hticker⟩
        refine ⟨(i, row), List.mem_filter.mpr ⟨?_, decide_eq_true hticker⟩, rfl⟩
        have hlt : i < rows.length := (List.getElem?_eq_some_iff.mp hrow).1
        exact List.mem_of_getElem? (List.getElem?_zip_eq_some.mpr ⟨List.getElem?_range hlt, hrow⟩)

/-- Attaching treats every bar by itself. -/
theorem attachPointInTimeFinancials_eq {financials : Dict String (List (Filing F))} {rows : List (Row F)}
    (hfilings : financials.All fun _ filings => InDateOrder filings) (hdated : ∀ row ∈ rows, Dated row) :
    attachPointInTimeFinancials rows financials = .ok (rows.map (barOf financials)) := by
  have hkeys : ∀ (j : ℕ) (row : Row F), rows[j]? = some row → rowTicker row ∈ (rowsByTicker rows).entries.map Prod.fst := by
    intro j row hrow
    have hlt : j < rows.length := (List.getElem?_eq_some_iff.mp hrow).1
    refine Dict.mem_group.mpr ⟨(j, row), ?_, rfl⟩
    exact List.mem_of_getElem? (List.getElem?_zip_eq_some.mpr ⟨List.getElem?_range hlt, hrow⟩)
  have hsame : ∀ (j : ℕ) (row : Row F), rows[j]? = some row →
      rowTicker row ∈ (rowsByTicker rows).entries.map Prod.fst → rows[j]? = some row :=
    fun _ _ hrow _ => hrow
  obtain ⟨out, hout, hdone, hkept⟩ := attachTickers_eq hfilings hdated (rowsByTicker rows).nodup
    (fun entry hentry => rowsByTicker_places (Dict.get?_of_entry_mem hentry)) hsame
  rw [attachPointInTimeFinancials, hout]
  congr 1
  apply List.ext_getElem?
  intro j
  rw [List.getElem?_map]
  cases hrow : rows[j]? with
  | some row => exact hdone j row hrow (hkeys j row hrow)
  | none =>
    rw [hkept j fun row h => absurd (hrow.symm.trans h) nofun, hrow]
    rfl

end Tickers

section Records
variable {F : Type} [NumPy F]

/-- A ticker's rows of the filings query. -/
def recordsOf (records : List (FilingRecord F)) (ticker : String) : List (FilingRecord F) :=
  records.filter fun record => tickerKey record.symbol = ticker

/-- The filings of a ticker that are out before a day. -/
def knownBefore (records : List (FilingRecord F)) (ticker : String) (day : PyDate) : List (Filing F) :=
  ((recordsOf records ticker).filter fun record => decide (record.filed < day)).map FilingRecord.filing

/-- The query's rows come by filing date for each symbol. -/
def FiledInOrder (records : List (FilingRecord F)) : Prop :=
  ∀ ticker, (recordsOf records ticker).Pairwise fun r s => r.filed ≤ s.filed

theorem getD_fetchFinancialTimeline (records : List (FilingRecord F)) (ticker : String) :
    ((fetchFinancialTimeline records).get? ticker).getD [] =
      timeline ((recordsOf records ticker).map FilingRecord.filing) := by
  have hfold : ∀ (l : List (FilingRecord F)) (acc : List (Filing F)),
      l.foldl (fun filings record => filings ++ [record.filing]) acc = acc ++ l.map FilingRecord.filing := by
    intro l acc
    induction l generalizing acc with
    | nil => simp
    | cons e l ih => rw [List.foldl_cons, ih, List.map_cons, List.append_assoc, List.singleton_append]
  rw [fetchFinancialTimeline, Dict.get?_mapVal, Dict.get?_group, hfold, List.nil_append]
  change (Option.map _ (if recordsOf records ticker = [] then _ else some _)).getD [] = _
  by_cases h : recordsOf records ticker = []
  · rw [if_pos h, h]
    rfl
  · rw [if_neg h]
    rfl

theorem timeline_filed (filings : List (Filing F)) :
    (timeline filings).map Filing.filed = filings.map Filing.filed := by
  induction filings using List.reverseRecOn with
  | nil => rfl
  | append_singleton filings filing ih =>
    obtain ⟨ratios, h, _⟩ := timeline_concat filings filing
    rw [h, List.map_append, List.map_append, ih]
    rfl

theorem timeline_append (filings more : List (Filing F)) :
    ∃ rest, timeline (filings ++ more) = timeline filings ++ rest := by
  induction more using List.reverseRecOn with
  | nil => exact ⟨[], by simp⟩
  | append_singleton more filing ih =>
    obtain ⟨rest, hrest⟩ := ih
    obtain ⟨ratios, h, _⟩ := timeline_concat (filings ++ more) filing
    exact ⟨rest ++ [⟨filing.filed, ratios, none⟩], by rw [← List.append_assoc, h, hrest, List.append_assoc]⟩

/-- Later filings change nothing of what a timeline says before a day. -/
theorem timeline_filter {filings : List (Filing F)} (h : InDateOrder filings) (day : PyDate) :
    (timeline filings).filter (fun f => decide (f.filed < day)) =
      timeline (filings.filter fun f => decide (f.filed < day)) := by
  have hsplit : filings.filter (fun f => decide (f.filed < day)) ++
      filings.filter (fun f => !decide (f.filed < day)) = filings := by
    apply filter_append_filter_not
    exact h.imp fun {f g} hfg hg => by
      simp only [decide_eq_true_eq] at hg ⊢
      exact lt_of_le_of_lt hfg hg
  generalize hearly : filings.filter (fun f => decide (f.filed < day)) = early at hsplit ⊢
  generalize hlate : filings.filter (fun f => !decide (f.filed < day)) = late at hsplit
  obtain ⟨rest, hrest⟩ := timeline_append early late
  have hfiled := timeline_filed (early ++ late)
  rw [hrest, List.map_append, List.map_append, timeline_filed, List.append_cancel_left_eq] at hfiled
  have hmember : ∀ {l m : List (Filing F)}, l.map Filing.filed = m.map Filing.filed →
      ∀ f ∈ l, ∃ g ∈ m, g.filed = f.filed := by
    intro l m hlm f hf
    exact List.mem_map.mp (hlm ▸ List.mem_map_of_mem hf)
  rw [← hsplit, hrest, List.filter_append, List.filter_eq_self.mpr, List.filter_eq_nil_iff.mpr,
    List.append_nil]
  · intro f hf
    obtain ⟨g, hg, hgf⟩ := hmember hfiled f hf
    rw [← hlate] at hg
    simpa [← hgf] using (List.mem_filter.mp hg).2
  · intro f hf
    obtain ⟨g, hg, hgf⟩ := hmember (timeline_filed early) f hf
    rw [← hearly] at hg
    simpa [← hgf] using (List.mem_filter.mp hg).2

theorem inDateOrder_of_filed {filings : List (Filing F)} (h : InDateOrder filings) :
    InDateOrder (timeline filings) := by
  rw [InDateOrder, ← List.pairwise_map (R := (· ≤ ·))] at h ⊢
  rwa [timeline_filed]

theorem fetchFinancialTimeline_inDateOrder {records : List (FilingRecord F)} (h : FiledInOrder records) :
    (fetchFinancialTimeline records).All fun _ filings => InDateOrder filings := by
  intro ticker filings hget
  have heq := getD_fetchFinancialTimeline records ticker
  rw [hget, Option.getD_some] at heq
  rw [heq]
  exact inDateOrder_of_filed (List.pairwise_map.mpr (h ticker))

/-- A bar only depends on the filings known before its day. -/
theorem barOf_fetchFinancialTimeline {records : List (FilingRecord F)} (h : FiledInOrder records)
    {row : Row F} {day : PyDate} (hday : row.value "date" = .text day.isoformat) :
    barOf (fetchFinancialTimeline records) row =
      attachBar (currentRatios (timeline (knownBefore records (rowTicker row) day))) row := by
  have horder : InDateOrder ((recordsOf records (rowTicker row)).map FilingRecord.filing) :=
    List.pairwise_map.mpr (h _)
  rw [barOf, getD_fetchFinancialTimeline, barOn, Dated.rowDate hday]
  simp only
  rw [timeline_filter horder, List.filter_map]
  rfl

end Records

end QuantAgent.DataSource
