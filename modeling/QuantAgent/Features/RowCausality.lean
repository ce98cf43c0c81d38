import QuantAgent.Lib.PyExcept
import QuantAgent.Lib.StableSort
import QuantAgent.Features.GeneratorCausality
import QuantAgent.Features.Generators

namespace QuantAgent.Features
set_option autoImplicit true

section SessionIndex
variable {F : Type} {S T : PreparedFeatureStore F}

theorem lastIndex_eq_some_iff [DecidableEq α] {l : List α} (hnodup : l.Nodup) (a : α) (k : ℕ) :
    lastIndex (fun b => decide (b = a)) l = some k ↔ l[k]? = some a := by
  induction l generalizing k with
  | nil => simp [lastIndex]
  | cons b l ih =>
    rw [List.nodup_cons] at hnodup
    have ih := ih hnodup.2
    rw [lastIndex]
    cases hlater : lastIndex (fun b => decide (b = a)) l with
    | some j =>
      have hj := (ih j).mp hlater
      have hne : b ≠ a := fun heq => hnodup.1 (heq ▸ List.mem_of_getElem? hj)
      cases k with
      | zero => simp [hne]
      | succ k =>
        rw [Option.map_some, Option.some_or, List.getElem?_cons_succ, ← ih k, hlater]
        simp
    | none =>
      cases k with
      | zero => by_cases hb : b = a <;> simp [hb]
      | succ k =>
        have hk := (ih k).not.mp (by rw [hlater]; exact Option.some_ne_none _ ∘ Eq.symm)
        rw [List.getElem?_cons_succ]
        by_cases hb : b = a <;> simp [hb, hk]

/-- The date of a session. -/
def sessionDate (S : PreparedFeatureStore F) (indices : List ℕ) : String :=
  (indices.head?.bind (S.dates[·]?)).getD ""

theorem sessionDate_eq (h : SamePast S T n) {indices : List ℕ} (hindices : ∀ i ∈ indices, i < n) :
    sessionDate S indices = sessionDate T indices := by
  unfold sessionDate
  cases indices with
  | nil => rfl
  | cons i indices =>
    rw [List.head?_cons, Option.bind_some, Option.bind_some]
    rw [show S.dates[i]? = T.dates[i]? from
      (Shared.column h Bar.date).getElem? (hindices i List.mem_cons_self)]

/-- Sessions of dates in order have different dates. -/
theorem sessionDates_nodup (hdates : S.dates.Pairwise (· ≤ ·)) : S.sessionDates.Nodup := by
  have hlen : S.dates.length = (List.range S.size).length := by
    rw [List.length_range, PreparedFeatureStore.dates, List.length_map, PreparedFeatureStore.size]
  have hincreasing := keyRuns_increasing hlen hdates
  have hne : ∀ run ∈ keyRuns S.dates (List.range S.size), run ≠ [] :=
    fun run hrun => List.ne_nil_of_mem_splitBy hrun
  have hdate : ∀ run ∈ keyRuns S.dates (List.range S.size), ∃ e ∈ run,
      sessionDate S (run.map Prod.snd) = e.1 := by
    intro run hrun
    cases run with
    | nil => exact absurd rfl (hne _ hrun)
    | cons e rest =>
      refine ⟨e, List.mem_cons_self, ?_⟩
      rw [sessionDate, List.map_cons, List.head?_cons, Option.bind_some,
        getElem?_of_mem_keyRuns hrun List.mem_cons_self, Option.getD_some]
  change (S.dateRanges.map (sessionDate S)).Nodup
  rw [PreparedFeatureStore.dateRanges, List.map_map, List.Nodup, List.pairwise_map]
  refine hincreasing.imp_of_mem ?_
  intro run later hrun hlater hlt heq
  obtain ⟨e, he, hsame⟩ := hdate run hrun
  obtain ⟨e', he', hsame'⟩ := hdate later hlater
  have hlt := hlt e he e' he'
  rw [← hsame, ← hsame'] at hlt
  exact absurd heq hlt.ne

/-- A date finds the same session of the common front in both stores. -/
theorem sessionIndex_front (h : SamePast S T n) (hS : S.dates.Pairwise (· ≤ ·))
    (hT : T.dates.Pairwise (· ≤ ·)) (session : Option String) (hk : k < (frontSessions S n).length) :
    S.sessionIndex session = some k ↔ T.sessionIndex session = some k := by
  cases session with
  | none => exact Iff.rfl
  | some date =>
    have hfront : S.sessionDates[k]? = T.sessionDates[k]? := by
      obtain ⟨backS, hsplitS, -⟩ := dateRanges_split h.cut
      obtain ⟨backT, hsplitT, -⟩ := dateRanges_split h.cut'
      rw [← frontSessions_eq h] at hsplitT
      have hsame : (frontSessions S n).map (sessionDate S) = (frontSessions S n).map (sessionDate T) :=
        List.map_congr_left fun indices hindices =>
          sessionDate_eq h fun i hi => frontSessions_lt hindices hi
      change (S.dateRanges.map (sessionDate S))[k]? = (T.dateRanges.map (sessionDate T))[k]?
      rw [hsplitS, hsplitT, List.map_append, List.map_append, hsame,
        List.getElem?_append_left (by rwa [List.length_map]),
        List.getElem?_append_left (by rwa [List.length_map])]
    change lastIndex _ S.sessionDates = some k ↔ lastIndex _ T.sessionDates = some k
    rw [lastIndex_eq_some_iff (sessionDates_nodup hS), lastIndex_eq_some_iff (sessionDates_nodup hT), hfront]

end SessionIndex

section LookAhead
variable {F : Type} [NumPy F] {S T : PreparedFeatureStore F}

omit [NumPy F] in
theorem SamePast.bars_eq_nil (h : SamePast S T n) (hn : 0 < n) : S.bars = [] ↔ T.bars = [] := by
  have htake := h.bars
  constructor
  · intro hnil
    rw [hnil, List.take_nil] at htake
    exact (List.take_eq_nil_iff.mp htake.symm).resolve_left hn.ne'
  · intro hnil
    rw [hnil, List.take_nil] at htake
    exact (List.take_eq_nil_iff.mp htake).resolve_left hn.ne'

/-- Two stores with one past give the same actions and scores at every shared row. -/
theorem buildRankedActions_shared (h : SamePast S T n) (hS : S.dates.Pairwise (· ≤ ·))
    (hT : T.dates.Pairwise (· ≤ ·)) (strategyIr : StrategyIR F) {parameters : CandidateParameters F}
    (hlookback : 0 < parameters.lookback) (resetSession stopAfterSession : Option String)
    {ranked ranked' : RankedActions F} {c c' d d' : FeatureCaches F} (hc : SharedCaches S T n c c')
    (hrunS : (S.buildRankedActions strategyIr parameters resetSession stopAfterSession).exec c =
      (.ok ranked, d))
    (hrunT : (T.buildRankedActions strategyIr parameters resetSession stopAfterSession).exec c' =
      (.ok ranked', d')) :
    ranked.actions.take n = ranked'.actions.take n ∧ ranked.scores.take n = ranked'.scores.take n := by
  have hreset : ∀ session : Option String, ∀ k < (frontSessions S n).length,
      S.sessionIndex session = some k ↔ T.sessionIndex session = some k :=
    fun session k hk => sessionIndex_front h hS hT session hk
  have hstop : ∀ k < (frontSessions S n).length,
      (∃ last ∈ S.sessionIndex stopAfterSession, last < k) ↔
        ∃ last ∈ T.sessionIndex stopAfterSession, last < k := by
    intro k hk
    refine exists_congr fun last => and_congr_left fun hlt => ?_
    exact hreset stopAfterSession last (hlt.trans hk)
  have hfeatures := Shared.features h hlookback
  rcases Nat.eq_zero_or_pos n with rfl | hn
  · simp
  have hbars := h.bars_eq_nil hn
  unfold PreparedFeatureStore.buildRankedActions at hrunS hrunT
  dsimp only at hrunS hrunT
  split at hrunS
  · rename_i hcompiled
    rw [if_pos hcompiled] at hrunT
    refine generate_front h (hreset resetSession) hstop ?_ ?_ ?_ hc hrunS hrunT
    · intro k indices states hk hindices
      exact Related.compiledSession h hbars strategyIr parameters (hreset resetSession k hk) hindices states
    · exact fun _ _ _ _ _ _ _ hrun => (compiledSession_decides hrun).1.rows
    · exact fun _ _ _ _ _ _ _ hrun => (compiledSession_decides hrun).1.rows
  · rename_i hcompiled
    rw [if_neg hcompiled] at hrunT
    split at hrunS
    · rename_i hrotation
      rw [if_pos hrotation] at hrunT
      refine generate_front h (hreset resetSession) hstop ?_ ?_ ?_ hc hrunS hrunT
      · intro k indices states hk hindices
        have hday : PreparedFeatureStore.rotationDay parameters (S.sessionIndex resetSession) k =
            PreparedFeatureStore.rotationDay parameters (T.sessionIndex resetSession) k := by
          unfold PreparedFeatureStore.rotationDay
          rw [show (S.sessionIndex resetSession == some k) = (T.sessionIndex resetSession == some k) by
            rw [Bool.eq_iff_iff, beq_iff_eq, beq_iff_eq, hreset resetSession k hk]]
        exact .pure (rotationSession_eq h hfeatures parameters hday hindices states)
      · exact ownRows_pure fun _ _ _ d hd => (settleRows_mem _ _ _ d hd).1
      · exact ownRows_pure fun _ _ _ d hd => (settleRows_mem _ _ _ d hd).1
    · rename_i hrotation
      rw [if_neg hrotation] at hrunT
      refine generate_front h (hreset resetSession) hstop ?_ ?_ ?_ hc hrunS hrunT
      · intro k indices states hk hindices
        exact .pure (profileSession_eq h hfeatures parameters hindices states)
      · exact ownRows_pure fun _ _ _ d hd => (settleRows_mem _ _ _ d hd).1
      · exact ownRows_pure fun _ _ _ d hd => (settleRows_mem _ _ _ d hd).1

end LookAhead

section Rows
variable {F : Type} [NumPy F] {S T : PreparedFeatureStore F}

theorem bar_date {row : Row F} (h : row.bar = .ok bar) : bar.date = row.date := by
  unfold Row.bar at h
  simp only [bind_eq_ok] at h
  obtain ⟨_, _, _, _, _, _, _, _, _, _, h⟩ := h
  obtain ⟨_, _, h⟩ := h
  cases h
  rfl

/-- The rows of a store in its order. -/
def orderedRows (rows : List (Row F)) : List (Row F) :=
  pySorted (fun a b => dateTickerLT (a.date, a.ticker) (b.date, b.ticker)) rows

theorem dateTickerLT_eq (a b : Row F) : dateTickerLT (a.date, a.ticker) (b.date, b.ticker) =
    decide (toLex (a.date, a.ticker) < toLex (b.date, b.ticker)) := by
  unfold dateTickerLT
  rw [← Bool.decide_and, ← Bool.decide_or, decide_eq_decide, Prod.Lex.toLex_lt_toLex]

theorem ofRows_bars {rows : List (Row F)} (h : PreparedFeatureStore.ofRows rows false = .ok S) :
    (orderedRows rows).mapM Row.bar = .ok S.bars := by
  unfold PreparedFeatureStore.ofRows at h
  obtain ⟨bars, hbars, h⟩ := bind_eq_ok.mp h
  cases h
  exact hbars

theorem dates_of_bars {rows : List (Row F)} {bars : List (Bar F)}
    (h : rows.mapM Row.bar = .ok bars) : bars.map Bar.date = rows.map Row.date := by
  have hall := mapM_eq_ok.mp h
  clear h
  induction hall with
  | nil => rfl
  | cons hbar _ ih => rw [List.map_cons, List.map_cons, bar_date hbar, ih]

/-- A store built from rows has its dates in order. -/
theorem ofRows_sorted {rows : List (Row F)} (h : PreparedFeatureStore.ofRows rows false = .ok S) :
    S.dates.Pairwise (· ≤ ·) := by
  change (S.bars.map Bar.date).Pairwise (· ≤ ·)
  rw [dates_of_bars (ofRows_bars h), List.pairwise_map]
  refine (pySorted_pairwise dateTickerLT_eq rows).imp ?_
  intro a b hab
  exact (Prod.Lex.toLex_le_toLex.mp hab).elim le_of_lt fun heq => heq.1.le

/-- The rows up to a date come first. -/
theorem orderedRows_split (rows : List (Row F)) (cutoff : String) :
    orderedRows rows = orderedRows (rows.filter fun row => decide (row.date ≤ cutoff)) ++
      orderedRows (rows.filter fun row => !decide (row.date ≤ cutoff)) := by
  apply pySorted_below dateTickerLT_eq
  intro a _ b _ ha hb
  have ha := of_decide_eq_true ha
  have hb := not_le.mp (of_decide_eq_false hb)
  exact Prod.Lex.toLex_lt_toLex.mpr (.inl (ha.trans_lt hb))

/-- Stores of rows that agree up to a date have one past. -/
theorem samePast_of_rows {rows rows' : List (Row F)} {cutoff : String}
    (hagree : (rows.filter fun row => decide (row.date ≤ cutoff)) =
      rows'.filter fun row => decide (row.date ≤ cutoff))
    (hS : PreparedFeatureStore.ofRows rows false = .ok S)
    (hT : PreparedFeatureStore.ofRows rows' false = .ok T) :
    SamePast S T (rows.filter fun row => decide (row.date ≤ cutoff)).length := by
  have hsplit : ∀ {rows : List (Row F)} {S : PreparedFeatureStore F},
      PreparedFeatureStore.ofRows rows false = .ok S → ∃ front back,
        (orderedRows (rows.filter fun row => decide (row.date ≤ cutoff))).mapM Row.bar = .ok front ∧
        (orderedRows (rows.filter fun row => !decide (row.date ≤ cutoff))).mapM Row.bar = .ok back ∧
        S.bars = front ++ back := by
    intro rows S hrows
    have hbars := ofRows_bars hrows
    rw [orderedRows_split rows cutoff, List.mapM_append] at hbars
    obtain ⟨front, hfront, hbars⟩ := bind_eq_ok.mp hbars
    obtain ⟨back, hback, hbars⟩ := bind_eq_ok.mp hbars
    exact ⟨front, back, hfront, hback, (Except.ok.inj hbars).symm⟩
  have hlength : ∀ {rows : List (Row F)} {front : List (Bar F)},
      (orderedRows rows).mapM Row.bar = .ok front → front.length = rows.length :=
    fun h => (length_of_mapM_ok h).trans (pySorted_perm _ _).length_eq
  have hcut : ∀ {rows : List (Row F)} {S : PreparedFeatureStore F} {front back : List (Bar F)},
      (orderedRows (rows.filter fun row => decide (row.date ≤ cutoff))).mapM Row.bar = .ok front →
      (orderedRows (rows.filter fun row => !decide (row.date ≤ cutoff))).mapM Row.bar = .ok back →
      S.bars = front ++ back → RunCut S.dates front.length := by
    intro rows S front back hfront hback hbars a ha b hb heq
    have hdates : S.dates = front.map Bar.date ++ back.map Bar.date := by
      rw [PreparedFeatureStore.dates, hbars, List.map_append]
    have hflen : (front.map Bar.date).length = front.length := List.length_map _
    rw [hdates, ← hflen, List.take_left] at ha
    rw [hdates, ← hflen, List.drop_left] at hb
    have hearly : a ∈ front.map Bar.date := List.mem_of_getLast? ha
    have hlate : b ∈ back.map Bar.date := List.mem_of_mem_head? hb
    rw [dates_of_bars hfront] at hearly
    rw [dates_of_bars hback] at hlate
    obtain ⟨row, hrow, rfl⟩ := List.mem_map.mp hearly
    obtain ⟨row', hrow', rfl⟩ := List.mem_map.mp hlate
    have hle := of_decide_eq_true (List.mem_filter.mp ((mem_pySorted _).mp hrow)).2
    have hgt := (List.mem_filter.mp ((mem_pySorted _).mp hrow')).2
    rw [Bool.not_eq_true', decide_eq_false_iff_not, ← heq] at hgt
    exact hgt hle
  obtain ⟨front, back, hfront, hback, hbars⟩ := hsplit hS
  obtain ⟨front', back', hfront', hback', hbars'⟩ := hsplit hT
  have hsame : front' = front := by
    rw [← hagree, hfront] at hfront'
    exact (Except.ok.inj hfront').symm
  subst hsame
  rw [← hlength hfront]
  refine ⟨?_, hcut hfront hback hbars, hcut hfront' hback' hbars'⟩
  rw [hbars, hbars', List.take_left, List.take_left]

/-- A row of a store that is dated up to the cutoff is among the rows up to it. -/
theorem ofRows_lt {rows : List (Row F)} {cutoff : String}
    (hS : PreparedFeatureStore.ofRows rows false = .ok S) {i : ℕ}
    (hi : ∃ bar, S.bars[i]? = some bar ∧ bar.date ≤ cutoff) :
    i < (rows.filter fun row => decide (row.date ≤ cutoff)).length := by
  obtain ⟨bar, hbar, hdate⟩ := hi
  by_contra hge
  have hbars := ofRows_bars hS
  rw [orderedRows_split rows cutoff, List.mapM_append] at hbars
  obtain ⟨front, hfront, hbars⟩ := bind_eq_ok.mp hbars
  obtain ⟨back, hback, hbars⟩ := bind_eq_ok.mp hbars
  have hbars : front ++ back = S.bars := Except.ok.inj hbars
  have hlength : front.length = (rows.filter fun row => decide (row.date ≤ cutoff)).length :=
    (length_of_mapM_ok hfront).trans (pySorted_perm _ _).length_eq
  rw [← hbars, List.getElem?_append_right (by omega)] at hbar
  obtain ⟨row, hrow, hdate'⟩ := mem_of_mapM_ok hback (List.mem_of_getElem? hbar)
  have hgt := (List.mem_filter.mp ((mem_pySorted _).mp hrow)).2
  rw [Bool.not_eq_true', decide_eq_false_iff_not, ← bar_date hdate'] at hgt
  exact hgt hdate

/-- No generator looks ahead: rows after a date, whatever they are, change no action and no score up to it. -/
theorem buildRankedActions_noLookAhead {rows rows' : List (Row F)} {cutoff : String}
    (hagree : (rows.filter fun row => decide (row.date ≤ cutoff)) =
      rows'.filter fun row => decide (row.date ≤ cutoff))
    (hS : PreparedFeatureStore.ofRows rows false = .ok S)
    (hT : PreparedFeatureStore.ofRows rows' false = .ok T) (strategyIr : StrategyIR F)
    {parameters : CandidateParameters F} (hlookback : 0 < parameters.lookback)
    (resetSession stopAfterSession : Option String) {ranked ranked' : RankedActions F} {d d' : FeatureCaches F}
    (hrunS : (S.buildRankedActions strategyIr parameters resetSession stopAfterSession).exec .empty =
      (.ok ranked, d))
    (hrunT : (T.buildRankedActions strategyIr parameters resetSession stopAfterSession).exec .empty =
      (.ok ranked', d')) (i : ℕ) (hi : ∃ bar, S.bars[i]? = some bar ∧ bar.date ≤ cutoff) :
    T.bars[i]? = S.bars[i]? ∧ ranked'.actions[i]? = ranked.actions[i]? ∧
      ranked'.scores[i]? = ranked.scores[i]? := by
  have hpast := samePast_of_rows hagree hS hT
  generalize hn : (rows.filter fun row => decide (row.date ≤ cutoff)).length = n at hpast
  have hin : i < n := hn ▸ ofRows_lt hS hi
  obtain ⟨hactions, hscores⟩ := buildRankedActions_shared hpast (ofRows_sorted hS) (ofRows_sorted hT)
    strategyIr hlookback resetSession stopAfterSession .empty hrunS hrunT
  have hshared : ∀ {α : Type} {l l' : List α}, l.take n = l'.take n → l'[i]? = l[i]? := by
    intro α l l' htake
    rw [← List.getElem?_take_of_lt hin, ← htake, List.getElem?_take_of_lt hin]
  exact ⟨hshared hpast.bars, hshared hactions, hshared hscores⟩

/-- Other closes on the second day. -/
def otherSampleRows : List (Row (Flt ℚ)) :=
  [sampleRow "2024-01-02" "005930" 10, sampleRow "2024-01-02" "000660" 20,
    sampleRow "2024-01-03" "005930" 7]

/-- The store of rows that make one. -/
def storeOf (rows : List (Row F)) : PreparedFeatureStore F :=
  (PreparedFeatureStore.ofRows rows false).toOption.getD ⟨[]⟩

theorem ofRows_storeOf {rows : List (Row F)} (h : (PreparedFeatureStore.ofRows rows false).toBool = true) :
    PreparedFeatureStore.ofRows rows false = .ok (storeOf rows) := by
  unfold storeOf
  cases hrows : PreparedFeatureStore.ofRows rows false with
  | error e =>
    rw [hrows] at h
    cases h
  | ok S => rfl

theorem ofRows_sampleRows : PreparedFeatureStore.ofRows sampleRows false = .ok (storeOf sampleRows) :=
  ofRows_storeOf (by decide +kernel)

theorem ofRows_otherSampleRows :
    PreparedFeatureStore.ofRows otherSampleRows false = .ok (storeOf otherSampleRows) :=
  ofRows_storeOf (by decide +kernel)

theorem sampleRows_agree : (sampleRows.filter fun row => decide (row.date ≤ "2024-01-02")) =
    otherSampleRows.filter fun row => decide (row.date ≤ "2024-01-02") := rfl

theorem buildRankedActions_noLookAhead_sample :
    ∃ (S T : PreparedFeatureStore (Flt ℚ)) (ranked ranked' : RankedActions (Flt ℚ)),
      PreparedFeatureStore.ofRows sampleRows false = .ok S ∧
        PreparedFeatureStore.ofRows otherSampleRows false = .ok T ∧
        ∀ i : ℕ, (∃ bar, S.bars[i]? = some bar ∧ Bar.date bar ≤ "2024-01-02") →
          T.bars[i]? = S.bars[i]? ∧ ranked'.actions[i]? = ranked.actions[i]? ∧
            ranked'.scores[i]? = ranked.scores[i]? := by
  obtain ⟨ranked, d, hrunS⟩ := exec_of_isOk (s := FeatureCaches.empty)
    (show (((storeOf sampleRows).buildRankedActions sampleIr (sampleParameters .compiledConditions) none
      none).exec .empty).1.toBool = true by decide +kernel)
  obtain ⟨ranked', d', hrunT⟩ := exec_of_isOk (s := FeatureCaches.empty)
    (show (((storeOf otherSampleRows).buildRankedActions sampleIr (sampleParameters .compiledConditions) none
      none).exec .empty).1.toBool = true by decide +kernel)
  refine ⟨_, _, ranked, ranked', ofRows_sampleRows, ofRows_otherSampleRows, ?_⟩
  exact buildRankedActions_noLookAhead sampleRows_agree ofRows_sampleRows ofRows_otherSampleRows sampleIr
    (by decide) none none hrunS hrunT

end Rows
end QuantAgent.Features
