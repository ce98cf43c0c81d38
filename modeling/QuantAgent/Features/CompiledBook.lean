import QuantAgent.Features.CompiledActions

namespace QuantAgent.Features
set_option autoImplicit true
open Holdings

theorem foldlM_inv {P : β → Prop} {f : β → α → StateE ε σ β} {l : List α}
    (hstep : ∀ b a s b' s', a ∈ l → P b → (f b a).exec s = (.ok b', s') → P b') (hb : P b)
    (hrun : (l.foldlM f b).exec s = (.ok b', s')) : P b' := by
  induction l generalizing b s with
  | nil =>
    rw [List.foldlM_nil, StateE.exec_pure] at hrun
    cases hrun
    exact hb
  | cons a l ih =>
    rw [List.foldlM_cons] at hrun
    obtain ⟨b₁, s₁, hfirst, hrest⟩ := exec_bind_inv hrun
    apply ih _ _ hrest
    · exact fun b a s b' s' ha => hstep b a s b' s' (List.mem_cons_of_mem _ ha)
    · exact hstep b a s b₁ s₁ List.mem_cons_self hb hfirst

section
variable {F : Type} {S : PreparedFeatureStore F}

/-- A row of the session with its own ticker. -/
def RowOf (S : PreparedFeatureStore F) (indices : List ℕ) (row : ℕ × String) : Prop :=
  row.1 ∈ indices ∧ row.2 = S.tickerAt row.1

theorem size_erase_of_mem {states : States F} (h : ticker ∈ states) :
    (states.erase ticker).size + 1 = states.size := by
  have hcard : heldNames (states.erase ticker) = (heldNames states).erase ticker := by
    ext other
    rw [Finset.mem_erase, mem_heldNames, mem_heldNames, Dict.mem_erase]
  have hmem : ticker ∈ heldNames states := mem_heldNames.mpr h
  rw [← card_heldNames, ← card_heldNames, hcard, Finset.card_erase_add_one hmem]

/-- What the exits leave. -/
structure Sold (S : PreparedFeatureStore F) (indices : List ℕ) (states : States F)
    (decisions : List (Decision F)) (states' : States F) (exited : List String) : Prop where
  sells : ∀ d ∈ decisions, ∃ i ∈ indices, d = .sell i
  names : decisions.map S.decided = exited
  nodup : exited.Nodup
  held : ∀ ticker ∈ exited, ticker ∈ states
  after : ∀ ticker, ticker ∈ states' ↔ ticker ∈ states ∧ ticker ∉ exited
  size : states'.size + exited.length = states.size

theorem sellExits_sold {indices : List ℕ} {exits : List (ℕ × String)} (hexits : ∀ x ∈ exits, RowOf S indices x)
    (states : States F) :
    Sold S indices states (sellExits exits states).1 (sellExits exits states).2.1
      (sellExits exits states).2.2 := by
  induction exits generalizing states with
  | nil =>
    refine ⟨nofun, rfl, List.nodup_nil, nofun, ?_, rfl⟩
    intro ticker
    exact (and_iff_left List.not_mem_nil).symm
  | cons x exits ih =>
    obtain ⟨index, ticker⟩ := x
    rw [List.forall_mem_cons] at hexits
    obtain ⟨⟨hindex, hticker⟩, hlater⟩ := hexits
    rw [sellExits]
    split
    · rename_i hheld
      have hrest := ih hlater (states.erase ticker)
      have hnot : ticker ∉ (sellExits exits (states.erase ticker)).2.2 := by
        intro hmem
        exact (Dict.mem_erase.mp (hrest.held ticker hmem)).1 rfl
      constructor
      · rw [List.forall_mem_cons]
        exact ⟨⟨index, hindex, rfl⟩, hrest.sells⟩
      · rw [List.map_cons, hrest.names, PreparedFeatureStore.decided, Decision.index, ← hticker]
      · exact List.nodup_cons.mpr ⟨hnot, hrest.nodup⟩
      · rw [List.forall_mem_cons]
        exact ⟨hheld, fun t ht => (Dict.mem_erase.mp (hrest.held t ht)).2⟩
      · intro t
        rw [hrest.after, Dict.mem_erase, List.mem_cons, not_or]
        tauto
      · exact (congrArg (· + 1) hrest.size).trans (size_erase_of_mem hheld)
    · exact ih hlater states

/-- What the entries leave. -/
structure Bought (S : PreparedFeatureStore F) (indices : List ℕ) (states : States F) (exited : List String)
    (decisions : List (Decision F)) (states' : States F) : Prop where
  buys : ∀ d ∈ decisions, ∃ i ∈ indices, ∃ score, d = .buy i score
  nodup : (decisions.map S.decided).Nodup
  fresh : ∀ d ∈ decisions, S.decided d ∉ exited ∧ S.decided d ∉ states
  after : ∀ ticker, ticker ∈ states' ↔ ticker ∈ states ∨ ticker ∈ decisions.map S.decided
  size : states'.size = states.size + decisions.length

theorem buyEntries_bought {indices : List ℕ} {entries : List (Eligible F)}
    (hentries : ∀ e ∈ entries, RowOf S indices (e.index, e.ticker)) (maxPositions : ℕ) (exited : List String)
    (states : States F) :
    Bought S indices states exited (buyEntries maxPositions exited entries states.size states).1
        (buyEntries maxPositions exited entries states.size states).2 ∧
      (states.size ≤ maxPositions →
        (buyEntries maxPositions exited entries states.size states).2.size ≤ maxPositions) := by
  have hdone : ∀ states : States F, Bought S indices states exited [] states := by
    intro states
    refine ⟨nofun, List.nodup_nil, nofun, ?_, rfl⟩
    intro ticker
    exact (or_iff_left List.not_mem_nil).symm
  induction entries generalizing states with
  | nil => exact ⟨hdone states, id⟩
  | cons entry entries ih =>
    rw [List.forall_mem_cons] at hentries
    obtain ⟨⟨hindex, hticker⟩, hlater⟩ := hentries
    rw [buyEntries]
    split
    · exact ⟨hdone states, id⟩
    · rename_i hfree
      split
      · exact ih hlater states
      · rename_i hopen
        rw [not_or] at hopen
        have hsize := Dict.size_insert_of_not_mem (v := ⟨entry.close, entry.close, 0⟩) hopen.2
        have hrest := ih hlater (states.insert entry.ticker ⟨entry.close, entry.close, 0⟩)
        rw [hsize] at hrest
        obtain ⟨hbought, hfits⟩ := hrest
        have hdecided : S.decided (.buy entry.index entry.score : Decision F) = entry.ticker := hticker.symm
        refine ⟨⟨?_, ?_, ?_, ?_, ?_⟩, fun _ => hfits (by omega)⟩
        · rw [List.forall_mem_cons]
          exact ⟨⟨entry.index, hindex, entry.score, rfl⟩, hbought.buys⟩
        · rw [List.map_cons, List.nodup_cons, hdecided]
          refine ⟨?_, hbought.nodup⟩
          intro hmem
          obtain ⟨d, hd, hsame⟩ := List.mem_map.mp hmem
          exact (hbought.fresh d hd).2 (Dict.mem_insert.mpr (.inl hsame))
        · rw [List.forall_mem_cons, hdecided]
          refine ⟨hopen, ?_⟩
          intro d hd
          have hnot := hbought.fresh d hd
          exact ⟨hnot.1, fun hmem => hnot.2 (Dict.mem_insert.mpr (.inr hmem))⟩
        · intro ticker
          rw [hbought.after, Dict.mem_insert, List.map_cons, List.mem_cons, hdecided]
          tauto
        · rw [hbought.size, hsize, List.length_cons]
          omega

/-- Exits and then entries are trades of a session. -/
theorem Sold.decides {indices : List ℕ} {states states₁ states₂ : States F} {sells buys : List (Decision F)}
    {exited : List String} (hsold : Sold S indices states sells states₁ exited)
    (hbought : Bought S indices states₁ exited buys states₂) :
    Decides S indices states (sells ++ buys) states₂ := by
  have hsell : ∀ {i}, .sell i ∈ sells ++ buys → .sell i ∈ sells := by
    intro i hmem
    rcases List.mem_append.mp hmem with hsells | hbuys
    · exact hsells
    · obtain ⟨_, _, _, heq⟩ := hbought.buys _ hbuys
      cases heq
  have hbuy : ∀ {i score}, .buy i score ∈ sells ++ buys → .buy i score ∈ buys := by
    intro i score hmem
    rcases List.mem_append.mp hmem with hsells | hbuys
    · obtain ⟨_, _, heq⟩ := hsold.sells _ hsells
      cases heq
    · exact hbuys
  have hexited : ∀ ticker, ticker ∈ exited ↔ ∃ i, .sell i ∈ sells ++ buys ∧ S.tickerAt i = ticker := by
    intro ticker
    rw [← hsold.names, List.mem_map]
    constructor
    · rintro ⟨d, hd, hticker⟩
      obtain ⟨i, -, rfl⟩ := hsold.sells d hd
      exact ⟨i, List.mem_append_left _ hd, hticker⟩
    · rintro ⟨i, hmem, hticker⟩
      exact ⟨_, hsell hmem, hticker⟩
  have hnew : ∀ ticker, ticker ∈ buys.map S.decided ↔
      ∃ i score, .buy i score ∈ sells ++ buys ∧ S.tickerAt i = ticker := by
    intro ticker
    rw [List.mem_map]
    constructor
    · rintro ⟨d, hd, hticker⟩
      obtain ⟨i, -, score, rfl⟩ := hbought.buys d hd
      exact ⟨i, score, List.mem_append_right _ hd, hticker⟩
    · rintro ⟨i, score, hmem, hticker⟩
      exact ⟨_, hbuy hmem, hticker⟩
  constructor
  · intro d hd
    rcases List.mem_append.mp hd with hsells | hbuys
    · obtain ⟨i, hi, rfl⟩ := hsold.sells d hsells
      exact hi
    · obtain ⟨i, hi, score, rfl⟩ := hbought.buys d hbuys
      exact hi
  · rw [List.map_append, List.nodup_append', hsold.names]
    refine ⟨hsold.nodup, hbought.nodup, ?_⟩
    intro ticker hout hin
    obtain ⟨d, hd, rfl⟩ := List.mem_map.mp hin
    exact (hbought.fresh d hd).1 hout
  · intro i hmem
    exact hsold.held _ ((hexited _).mpr ⟨i, hmem, rfl⟩)
  · intro i score hmem hheld
    have hfresh := hbought.fresh _ (hbuy hmem)
    exact hfresh.2 ((hsold.after _).mpr ⟨hheld, hfresh.1⟩)
  · intro ticker
    rw [hbought.after, hsold.after, hnew, hexited]
    simp only [not_exists, not_and, ne_eq]

variable [NumPy F] {strategyIr : StrategyIR F} {parameters : CandidateParameters F}

theorem mem_sortEligible {eligible : List (Eligible F)} : e ∈ sortEligible eligible ↔ e ∈ eligible :=
  mem_pySorted _

omit [NumPy F] in
theorem settleSession_decides (parameters : CandidateParameters F) {indices : List ℕ} {eligible : List (Eligible F)} {exits : List (ℕ × String)}
    (heligible : ∀ e ∈ eligible, RowOf S indices (e.index, e.ticker))
    (hexits : ∀ x ∈ exits, RowOf S indices x) (rotationDay : Bool) (states : States F) :
    Decides S indices states (S.settleSession parameters rotationDay indices eligible exits states).1
        (S.settleSession parameters rotationDay indices eligible exits states).2 ∧
      (states.size ≤ parameters.maxPositions →
        (S.settleSession parameters rotationDay indices eligible exits states).2.size ≤
          parameters.maxPositions) := by
  have hsettle : ∀ exits : List (ℕ × String), (∀ x ∈ exits, RowOf S indices x) →
      ∀ entries : List (Eligible F), (∀ e ∈ entries, e ∈ eligible) →
      let sold := sellExits exits states
      let bought := buyEntries parameters.maxPositions sold.2.2 entries sold.2.1.size sold.2.1
      Decides S indices states (sold.1 ++ bought.1) bought.2 ∧
        (states.size ≤ parameters.maxPositions → bought.2.size ≤ parameters.maxPositions) := by
    intro exits hexits entries hentries sold bought
    have hsold := sellExits_sold hexits states
    obtain ⟨hbought, hfits⟩ := buyEntries_bought (fun e he => heligible e (hentries e he))
      parameters.maxPositions sold.2.2 sold.2.1
    refine ⟨hsold.decides hbought, fun hsize => hfits ?_⟩
    have hsoldSize : sold.2.1.size + sold.2.2.length = states.size := hsold.size
    omega
  unfold PreparedFeatureStore.settleSession
  cases rotationDay with
  | false => exact hsettle exits hexits eligible fun _ he => he
  | true =>
    apply hsettle
    · intro x hx
      rcases List.mem_append.mp hx with hrule | hrotation
      · exact hexits x hrule
      · obtain ⟨index, hindex, rfl⟩ := List.mem_map.mp hrotation
        exact ⟨(List.mem_filter.mp hindex).1, rfl⟩
    · exact fun _ he => (List.mem_filter.mp he).1

/-- What the first loop collects are rows of the session, and it leaves the same tickers in position. -/
structure ScanOf (S : PreparedFeatureStore F) (indices : List ℕ) (states : States F)
    (scan : SessionScan F) : Prop where
  keys : scan.states.keys = states.keys
  eligible : ∀ e ∈ scan.eligible, RowOf S indices (e.index, e.ticker)
  exits : ∀ x ∈ scan.exits, RowOf S indices x

theorem exitAt_eq (hrun : (S.exitAt strategyIr parameters index state).exec c = (.ok exits, c'))
    (hx : x ∈ exits) : x = (index, S.tickerAt index) := by
  unfold PreparedFeatureStore.exitAt at hrun
  cases state with
  | none =>
    cases hrun
    cases hx
  | some state =>
    obtain ⟨matched, c₁, -, hrun⟩ := exec_bind_inv hrun
    rw [StateE.exec_pure] at hrun
    cases hrun
    split at hx
    · exact List.mem_singleton.mp hx
    · cases hx

theorem scanRow_scanOf {indices : List ℕ} {states : States F} {scan scan' : SessionScan F}
    (hindex : index ∈ indices) (h : ScanOf S indices states scan)
    (hrun : (S.scanRow strategyIr parameters scan index).exec c = (.ok scan', c')) :
    ScanOf S indices states scan' := by
  unfold PreparedFeatureStore.scanRow at hrun
  obtain ⟨score, c₁, -, hrun⟩ := exec_bind_inv hrun
  obtain ⟨exits, c₂, hexits, hrun⟩ := exec_bind_inv hrun
  rw [StateE.exec_pure] at hrun
  cases hrun
  constructor
  · cases hstate : scan.states.get? (S.tickerAt index) with
    | none => exact h.keys
    | some state => exact (Dict.keys_insert_of_mem (Dict.mem_of_get? hstate)).trans h.keys
  · intro e he
    rcases List.mem_append.mp he with hbefore | hnew
    · exact h.eligible e hbefore
    · rw [Option.mem_toList, Option.map_eq_some_iff] at hnew
      obtain ⟨score, -, rfl⟩ := hnew
      exact ⟨hindex, rfl⟩
  · intro x hx
    rcases List.mem_append.mp hx with hbefore | hnew
    · exact h.exits x hbefore
    · rw [exitAt_eq hexits hnew]
      exact ⟨hindex, rfl⟩

theorem rankCut_subset {indices : List ℕ} {eligible eligible' : List (Eligible F)}
    (hrun : (S.rankCut indices eligible condition).exec c = (.ok eligible', c')) :
    ∀ e ∈ eligible', e ∈ eligible := by
  unfold PreparedFeatureStore.rankCut at hrun
  obtain ⟨scored, c₁, -, hrun⟩ := exec_bind_inv hrun
  dsimp only at hrun
  split at hrun
  · cases hrun
  · cases hrun
    exact fun e he => (List.mem_filter.mp he).1

omit [NumPy F] in
theorem keys_size {states states' : States F} (h : states.keys = states'.keys) : states.size = states'.size := by
  have hlength := congrArg List.length h
  rwa [Dict.keys, Dict.keys, List.length_map, List.length_map] at hlength

/-- A session of `_compiled_actions` does legal trades and keeps to the slots. -/
theorem compiledSession_decides {indices : List ℕ} {states states' : States F}
    (hrun : (S.compiledSession strategyIr parameters resetIndex number indices states).exec c =
      (.ok (decisions, states'), c')) :
    Decides S indices states decisions states' ∧
      (states.size ≤ parameters.maxPositions → states'.size ≤ parameters.maxPositions) := by
  unfold PreparedFeatureStore.compiledSession at hrun
  obtain ⟨scan, c₁, hscan, hrun⟩ := exec_bind_inv hrun
  obtain ⟨eligible, c₂, hcuts, hrun⟩ := exec_bind_inv hrun
  have hstart : ScanOf S indices states ⟨states, [], []⟩ :=
    ⟨rfl, fun _ he => absurd he List.not_mem_nil, fun _ hx => absurd hx List.not_mem_nil⟩
  have hscan : ScanOf S indices states scan :=
    foldlM_inv (fun _ _ _ _ _ hindex h hstep => scanRow_scanOf hindex h hstep) hstart hscan
  have heligible : ∀ e ∈ eligible, RowOf S indices (e.index, e.ticker) :=
    foldlM_inv (P := fun eligible : List (Eligible F) => ∀ e ∈ eligible, RowOf S indices (e.index, e.ticker))
      (fun _ _ _ _ _ _ h hstep e he => h e (rankCut_subset hstep e he)) hscan.eligible hcuts
  rw [StateE.exec_pure] at hrun
  obtain ⟨hdecides, hfits⟩ := settleSession_decides parameters
    (fun e he => heligible e (mem_sortEligible.mp he)) hscan.exits
    (strategyIr.executionMode == .scheduledRotation &&
      (resetIndex == some number || number % parameters.rebalanceIntervalDays == 0)) scan.states
  have hsame : ∀ ticker, ticker ∈ scan.states ↔ ticker ∈ states := by
    intro ticker
    change ticker ∈ scan.states.keys ↔ ticker ∈ states.keys
    rw [hscan.keys]
  injection hrun with hresult _
  injection hresult with hresult
  rw [Prod.mk.injEq] at hresult
  obtain ⟨rfl, rfl⟩ := hresult
  constructor
  · refine ⟨hdecides.rows, hdecides.once, ?_, ?_, ?_⟩
    · exact fun i hi => (hsame _).mp (hdecides.sells i hi)
    · exact fun i score hi hheld => hdecides.buys i score hi ((hsame _).mpr hheld)
    · intro ticker
      rw [hdecides.after, hsame]
  · intro hsize
    apply hfits
    rwa [keys_size hscan.keys]

end
end QuantAgent.Features
