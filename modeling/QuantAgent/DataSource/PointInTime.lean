import QuantAgent.DataSource.Attach

namespace QuantAgent.DataSource
open QuantAgent.Features
set_option autoImplicit true

/-- The figures a filing gives by itself. -/
def filingFigures : List String :=
  ["roe", "debt_to_equity", "operating_margin", "operating_income", "revenue"]

/-- Every key the financials put on a bar. -/
def financialKeys : List String := filingFigures ++ "eps" :: "per" :: streakMetrics.map upStreak

section Figures
variable {F : Type} [NumPy F]

theorem get?_ratios_of_notMem (record : FilingRecord F) (h : key ∉ filingFigures) :
    record.ratios.get? key = none := by
  simp only [filingFigures, List.mem_cons, List.not_mem_nil, or_false, not_or] at h
  obtain ⟨hroe, hdebt, hmargin, hincome, hrevenue⟩ := h
  unfold FilingRecord.ratios
  simp only [get?_setIfSome, if_neg hincome, if_neg hrevenue]
  cases positive (optionalFloatValue record.revenue) with
  | none =>
    cases positive (optionalFloatValue record.equity) with
    | none => rfl
    | some equity => simp [get?_setIfSome, hroe, hdebt, Dict.get?_empty]
  | some revenue =>
    cases positive (optionalFloatValue record.equity) with
    | none => simp [get?_setIfSome, hmargin, Dict.get?_empty]
    | some equity => simp [get?_setIfSome, hroe, hdebt, hmargin, Dict.get?_empty]

/-- What the newest of the known filings reports of a metric. -/
def latest (known : List (Filing F)) (key : String) : Option F :=
  known.getLast?.bind fun filing => filing.ratios.get? key

/-- The figures a bar gets, from the filings known before it. -/
structure CurrentFigures (known : List (Filing F)) (ratios : Dict String F) : Prop where
  figures : ∀ key ∈ filingFigures, ratios.get? key = latest known key
  eps : ratios.get? "eps" = newestAnnualEps known
  streak : ∀ m ∈ streakMetrics, ratios.get? (upStreak m) =
    (latest known m).map fun _ => lit (rises (reported m known))
  others : ∀ key ∉ financialKeys, ratios.get? key = none
  per : ratios.get? "per" = none

theorem filingFigures_names : ∀ key ∈ filingFigures,
    key ≠ "eps" ∧ ∀ m ∈ streakMetrics, key ≠ upStreak m := by
  decide +kernel

theorem upStreak_notMem_figures : ∀ m ∈ streakMetrics, upStreak m ∉ filingFigures := by
  decide +kernel

example : upStreak "roe" ∉ filingFigures := by decide +kernel

theorem currentFigures_timeline (records : List (FilingRecord F)) :
    CurrentFigures (records.map FilingRecord.filing)
      (currentRatios (timeline (records.map FilingRecord.filing))) := by
  cases records using List.reverseRecOn with
  | nil => exact ⟨fun _ _ => rfl, rfl, fun _ _ => rfl, fun _ _ => rfl, rfl⟩
  | append_singleton records record =>
    rw [List.map_append, List.map_singleton]
    obtain ⟨ratios, htimeline, hdiscloses⟩ := timeline_concat (records.map FilingRecord.filing) record.filing
    have hlatest (key : String) :
        latest (records.map FilingRecord.filing ++ [record.filing]) key = record.ratios.get? key := by
      rw [latest, List.getLast?_concat]
      rfl
    have hown {key : String} (h : key ∉ filingFigures) : record.filing.ratios.get? key = none :=
      get?_ratios_of_notMem record h
    rw [htimeline, currentRatios_concat]
    refine ⟨fun key hkey => ?_, ?_, fun m hm => ?_, fun key hkey => ?_, ?_⟩
    · have hnames := filingFigures_names key hkey
      rw [hdiscloses.figures key hnames.1 hnames.2, hlatest]
      rfl
    · rw [hdiscloses.eps, hown (by decide), Option.or_none]
    · rw [hdiscloses.streak m hm, hown (upStreak_notMem_figures m hm), hlatest]
      have hratio : record.filing.ratios.get? m = record.ratios.get? m := rfl
      rw [hratio]
      cases record.ratios.get? m with
      | none => rfl
      | some value => rfl
    · simp only [financialKeys, List.mem_append, List.mem_cons, List.mem_map, not_or, not_exists,
        not_and] at hkey
      rw [hdiscloses.figures key hkey.2.1 fun m hm => Ne.symm (hkey.2.2.2 m hm), hown hkey.1]
    · rw [hdiscloses.figures "per" (by decide) (by decide +kernel), hown (by decide)]

end Figures

section Bars
variable {F : Type} [NumPy F]

theorem get?_setDefault (row : Row F) (key : String) (value : F) :
    (setDefault row key value).get? j =
      (row.get? j).or (if j = key then some (.number value) else none) := by
  unfold setDefault
  by_cases h : key ∈ row
  · rw [if_pos h]
    by_cases hj : j = key
    · obtain ⟨cell, hcell⟩ := Dict.mem_iff_get?.mp h
      rw [hj, hcell]
      rfl
    · rw [if_neg hj, Option.or_none]
  · rw [if_neg h, Dict.get?_insert]
    by_cases hj : j = key
    · rw [if_pos hj, if_pos hj, hj, Dict.get?_eq_none_iff.mpr h, Option.none_or]
    · rw [if_neg hj, if_neg hj, Option.or_none]

theorem get?_carried (entries : List (String × F)) (row : Row F) :
    (entries.foldl (fun row entry => setDefault row entry.1 entry.2) row).get? j =
      (row.get? j).or ((Dict.find j entries).map .number) := by
  induction entries generalizing row with
  | nil => exact Option.or_none.symm
  | cons entry entries ih =>
    obtain ⟨key, value⟩ := entry
    rw [List.foldl_cons, ih, get?_setDefault, Option.or_assoc, Dict.find]
    by_cases h : j = key
    · simp [h]
    · simp [h]

/-- A bar holds the figures of the filings known before it, its EPS, the PER at some close, and the
streaks; nothing else of it changes. -/
structure PointInTime (close : Option F) (known : List (Filing F)) (row bar : Row F) : Prop where
  figures : ∀ key ∈ filingFigures, bar.get? key = (latest known key).map .number
  eps : bar.get? "eps" = (newestAnnualEps known).map .number
  per : bar.get? "per" = (positive (newestAnnualEps known)).bind fun eps =>
    close.map fun close => .number (close / eps)
  streak : ∀ m ∈ streakMetrics, bar.get? (upStreak m) =
    (latest known m).map fun _ => .number (lit (rises (reported m known)))
  others : ∀ key ∉ financialKeys, bar.get? key = row.get? key

/-- The row carries no financial figure yet. -/
def Fresh (row : Row F) : Prop := ∀ key ∈ financialKeys, key ∉ row

theorem attachBar_pointInTime {known : List (Filing F)} {ratios : Dict String F}
    (h : CurrentFigures known ratios) {row : Row F} (hfresh : Fresh row) :
    PointInTime (perClose row) known row (attachBar ratios row) := by
  generalize hcarried : ratios.entries.foldl (fun row entry => setDefault row entry.1 entry.2) row = carried
  have hget (key : String) : carried.get? key = (row.get? key).or ((ratios.get? key).map .number) :=
    hcarried ▸ get?_carried ratios.entries row
  have hnew {key : String} (hkey : key ∈ financialKeys) :
      carried.get? key = (ratios.get? key).map .number := by
    rw [hget, Dict.get?_eq_none_iff.mpr (hfresh key hkey), Option.none_or]
  have hold {key : String} (hkey : key ∉ financialKeys) : carried.get? key = row.get? key := by
    rw [hget, h.others key hkey]
    exact Option.or_none
  have hclose : perClose carried = perClose row := by
    rw [perClose, perClose, Row.value, Row.value, hold (by decide +kernel), hold (by decide +kernel)]
    rfl
  have hbar : ∃ per : Option F, attachBar ratios row = per.elim carried (setDefault carried "per") ∧
      per = (positive (newestAnnualEps known)).bind fun eps => (perClose row).map fun close => close / eps := by
    refine ⟨_, ?_, rfl⟩
    simp only [attachBar, hcarried, hclose, h.eps]
    cases positive (newestAnnualEps known) with
    | none => rfl
    | some eps =>
      cases perClose row with
      | none => rfl
      | some close => rfl
  obtain ⟨per, hbar, hper⟩ := hbar
  have hother {key : String} (hkey : key ≠ "per") : (attachBar ratios row).get? key = carried.get? key := by
    rw [hbar]
    cases per with
    | none => rfl
    | some per => rw [Option.elim_some, get?_setDefault, if_neg hkey, Option.or_none]
  refine ⟨fun key hkey => ?_, ?_, ?_, fun m hm => ?_, fun key hkey => ?_⟩
  · rw [hother (ne_of_mem_of_not_mem hkey (by decide)), hnew (List.mem_append_left _ hkey), h.figures key hkey]
  · rw [hother (by decide), hnew (by decide +kernel), h.eps]
  · have hnone : carried.get? "per" = none := by
      rw [hnew (by decide +kernel), h.per]
      rfl
    have hmap : (positive (newestAnnualEps known)).bind (fun eps =>
        (perClose row).map fun close => Cell.number (close / eps)) = per.map .number := by
      rw [hper, Option.map_bind]
      simp [Function.comp_def]
    rw [hmap, hbar]
    cases per with
    | none => exact hnone
    | some per => rw [Option.elim_some, get?_setDefault, hnone, if_pos rfl, Option.none_or, Option.map_some]
  · have hkey : upStreak m ∈ financialKeys :=
      List.mem_append_right _ (List.mem_cons_of_mem _ (List.mem_cons_of_mem _ (List.mem_map_of_mem hm)))
    have hne : upStreak m ≠ "per" := by
      revert m
      decide +kernel
    rw [hother hne, hnew hkey, h.streak m hm, Option.map_map]
    rfl
  · have hne : key ≠ "per" := by
      rintro rfl
      exact hkey (by decide +kernel)
    rw [hother hne, hold hkey]

/-- After both functions every bar is what the filings before its day say, and it is a function of
those: filings of its own day or later, added, changed or removed, do not touch it. -/
theorem attached_pointInTime {records : List (FilingRecord F)} {rows : List (Row F)}
    (hfiled : FiledInOrder records) (hdated : ∀ row ∈ rows, Dated row) (hfresh : ∀ row ∈ rows, Fresh row) :
    ∃ bars, attachPointInTimeFinancials rows (fetchFinancialTimeline records) = .ok bars ∧
      bars.length = rows.length ∧
      (∀ (i : ℕ) row bar (day : PyDate), rows[i]? = some row → bars[i]? = some bar →
        row.value "date" = .text day.isoformat →
        PointInTime (perClose row) (knownBefore records (rowTicker row) day) row bar) ∧
      ∀ others bars', FiledInOrder others →
        attachPointInTimeFinancials rows (fetchFinancialTimeline others) = .ok bars' →
        ∀ (i : ℕ) row (day : PyDate), rows[i]? = some row → row.value "date" = .text day.isoformat →
          (recordsOf records (rowTicker row)).filter (fun r => decide (r.filed < day)) =
            (recordsOf others (rowTicker row)).filter (fun r => decide (r.filed < day)) →
          bars[i]? = bars'[i]? := by
  refine ⟨_, attachPointInTimeFinancials_eq (fetchFinancialTimeline_inDateOrder hfiled) hdated,
    List.length_map _, ?_, ?_⟩
  · intro i row bar day hrow hbar hday
    rw [List.getElem?_map, hrow, Option.map_some, Option.some.injEq] at hbar
    rw [← hbar, barOf_fetchFinancialTimeline hfiled hday]
    exact attachBar_pointInTime (currentFigures_timeline _) (hfresh row (List.mem_of_getElem? hrow))
  · intro others bars' hothers hbars' i row day hrow hday hsame
    rw [attachPointInTimeFinancials_eq (fetchFinancialTimeline_inDateOrder hothers) hdated,
      Except.ok.injEq] at hbars'
    rw [← hbars', List.getElem?_map, List.getElem?_map, hrow, Option.map_some, Option.map_some,
      barOf_fetchFinancialTimeline hfiled hday, barOf_fetchFinancialTimeline hothers hday, knownBefore,
      knownBefore, hsame]

end Bars

/-- One annual report, and the bar of the next day with no as-reported close. -/
def annualReport : FilingRecord (Flt ℚ) where
  symbol := .text "005930"
  filed := ⟨2024, 3, 12, by decide, by decide, by decide⟩
  equity := .number (.num 100)
  liabilities := .none
  profit_loss := .number (.num 10)
  revenue := .none
  operating_income := .none
  annual_eps := .number (.num 8)

def nextDay : PyDate := ⟨2024, 3, 13, by decide, by decide, by decide⟩

def nextBar (rawClose : Cell (Flt ℚ)) : Row (Flt ℚ) where
  entries := [("date", .text "2024-03-13"), ("ticker", .text "005930"), ("close", .number (.num 16)),
    ("raw_close", rawClose)]
  nodup := (by decide : ["date", "ticker", "close", "raw_close"].Nodup)

example : perClose (nextBar (.number (.num 40))) = some (.num 40) := by decide +kernel

theorem filedInOrder_annualReport : FiledInOrder [annualReport] :=
  fun _ => List.Pairwise.sublist List.filter_sublist (List.pairwise_singleton _ _)

theorem nextBar_date (rawClose : Cell (Flt ℚ)) : (nextBar rawClose).value "date" = .text nextDay.isoformat :=
  congrArg Cell.text (by decide +kernel)

theorem nextBar_fresh (rawClose : Cell (Flt ℚ)) : Fresh (nextBar rawClose) :=
  (by decide +kernel : ∀ key ∈ financialKeys, key ∉ ["date", "ticker", "close", "raw_close"])

theorem nextBar_dated (rawClose : Cell (Flt ℚ)) : ∀ row ∈ [nextBar rawClose], Dated row :=
  List.forall_mem_singleton.mpr ⟨nextDay, nextBar_date rawClose⟩

theorem positive_annualReport (rawClose : Cell (Flt ℚ)) :
    positive (newestAnnualEps (((recordsOf [annualReport] (rowTicker (nextBar rawClose))).filter
      fun record => decide (record.filed < nextDay)).map FilingRecord.filing)) = some (.num 8) := by
  have hticker : rowTicker (nextBar rawClose) = "005930" := by
    change tickerKey (.text "005930" : Cell (Flt ℚ)) = "005930"
    decide +kernel
  rw [hticker]
  decide +kernel

/-- With an as-reported close the PER is priced with it. -/
theorem attached_nextBar : ∃ bars bar,
    attachPointInTimeFinancials [nextBar (.number (.num 80))] (fetchFinancialTimeline [annualReport]) =
      .ok bars ∧ bars[0]? = some bar ∧ bar.get? "per" = some (.number (.num 10)) := by
  obtain ⟨bars, hbars, hlength, hpoint, _⟩ := attached_pointInTime filedInOrder_annualReport
    (nextBar_dated (.number (.num 80))) (List.forall_mem_singleton.mpr (nextBar_fresh (.number (.num 80))))
  have hlt : 0 < bars.length := by rw [hlength]; exact Nat.one_pos
  refine ⟨bars, bars[0], hbars, List.getElem?_eq_getElem hlt, ?_⟩
  have hclose : perClose (nextBar (.number (.num 80))) = some (.num 80) := by decide +kernel
  have hper : (Flt.num 80 : Flt ℚ) / .num 8 = .num 10 := by decide +kernel
  rw [(hpoint 0 _ _ nextDay rfl (List.getElem?_eq_getElem hlt) (nextBar_date _)).per, knownBefore,
    positive_annualReport, hclose, Option.bind_some, Option.map_some, hper]

/-- A bar with no as-reported close gets a PER all the same, priced with the adjusted close. -/
theorem per_without_raw_close :
    ¬ ∀ (records : List (FilingRecord (Flt ℚ))) (rows bars : List (Row (Flt ℚ))), FiledInOrder records →
      (∀ row ∈ rows, Dated row) → (∀ row ∈ rows, Fresh row) →
      attachPointInTimeFinancials rows (fetchFinancialTimeline records) = .ok bars →
      ∀ (i : ℕ) row bar (day : PyDate), rows[i]? = some row → bars[i]? = some bar →
        row.value "date" = .text day.isoformat →
        PointInTime (optionalFloatValue (row.value "raw_close"))
          (knownBefore records (rowTicker row) day) row bar := by
  intro h
  have hfiled := filedInOrder_annualReport
  have hdated := nextBar_dated .none
  have hfresh := List.forall_mem_singleton.mpr (nextBar_fresh .none)
  have hbars := attachPointInTimeFinancials_eq (fetchFinancialTimeline_inDateOrder hfiled) hdated
  have hclaim := (h _ _ _ hfiled hdated hfresh hbars 0 _ _ nextDay rfl rfl (nextBar_date .none)).per
  have hcode := (attachBar_pointInTime (currentFigures_timeline ((recordsOf [annualReport]
    (rowTicker (nextBar .none))).filter fun record => decide (record.filed < nextDay)))
    (nextBar_fresh .none)).per
  have hraw : optionalFloatValue ((nextBar (.none : Cell (Flt ℚ))).value "raw_close") = none := rfl
  have hclose : perClose (nextBar (.none : Cell (Flt ℚ))) = some (.num 16) := by decide +kernel
  rw [barOf_fetchFinancialTimeline hfiled (nextBar_date .none), knownBefore, positive_annualReport, hraw] at hclaim
  rw [positive_annualReport, hclose] at hcode
  cases hclaim.symm.trans hcode

end QuantAgent.DataSource
