import QuantAgent.Features.MetricCalls

namespace QuantAgent.Features
set_option autoImplicit true

/-- The keys of the metric cache that a builder reads and writes. -/
def Kept.touched : Kept → List Kept
  | .trueRange => [.trueRange]
  | .dailyReturns => [.dailyReturns]
  | .atr period => [.atr period, .trueRange]
  | .oscillator family _ =>
    [.oscillator family .line, .oscillator family .signal, .oscillator family .hist]
  | .directional _ period => [.directional .adx period, .directional .plusDi period,
      .directional .minusDi period, .atr period, .trueRange]

theorem toString_injective {n m : ℕ} (h : toString n = toString m) : n = m := by
  have hn := digits?_toString n
  rw [h, digits?_toString] at hn
  exact (Option.some.inj hn).symm

theorem Directional.key_injective {kind kind' : Directional} {n m : ℕ}
    (h : kind.key n = kind'.key m) : kind = kind' ∧ n = m := by
  cases kind <;> cases kind' <;>
    simp [Directional.key, Directional.name, ← String.toList_inj] at h <;>
    refine ⟨rfl, toString_injective ?_⟩ <;>
    simpa [← String.toList_inj] using h

/-- The beginning of a key tells the kinds of series apart. -/
def Kept.family : Kept → List Char
  | .trueRange => ['_', '_', 't']
  | .dailyReturns => ['_', '_', 'd']
  | .atr _ => ['a', 't', 'r']
  | .oscillator .macd _ => ['m', 'a', 'c']
  | .oscillator .ppo _ => ['p', 'p', 'o']
  | .oscillator .pvo _ => ['p', 'v', 'o']
  | .directional .adx _ => ['a', 'd', 'x']
  | .directional .plusDi _ => ['p', 'l', 'u']
  | .directional .minusDi _ => ['m', 'i', 'n']

theorem Kept.take_key (e : Kept) : e.key.toList.take 3 = e.family := by
  cases e with
  | trueRange => rfl
  | dailyReturns => rfl
  | atr period => simp [Kept.key, Kept.family]
  | oscillator family part => cases family <;> cases part <;> rfl
  | directional kind period =>
    cases kind <;> simp [Kept.key, Kept.family, Directional.key, Directional.name]

theorem Oscillator.key_injective {family : OscillatorFamily} {part part' : Oscillator}
    (h : Oscillator.key family.name part = Oscillator.key family.name part') : part = part' := by
  cases family <;> cases part <;> cases part' <;> first | rfl | exact absurd h (by decide)

theorem Kept.key_injective {e e' : Kept} (h : e.key = e'.key) : e = e' := by
  have hfamily : e.family = e'.family := by rw [← e.take_key, ← e'.take_key, h]
  rcases e with _ | _ | p | ⟨_ | _ | _, part⟩ | ⟨_ | _ | _, p⟩ <;>
    rcases e' with _ | _ | p' | ⟨_ | _ | _, part'⟩ | ⟨_ | _ | _, p'⟩ <;>
    simp only [Kept.family, List.cons.injEq, Char.reduceEq, false_and, and_false] at hfamily <;>
    first
    | rfl
    | exact congrArg _ (Oscillator.key_injective h)
    | exact congrArg _ (Directional.key_injective h).2
    | exact congrArg Kept.atr (toString_injective (by simpa [Kept.key, ← String.toList_inj] using h))

/-- The catalog metric of the same name. -/
def Kept.entry : Kept → Option CatalogMetric
  | .oscillator .macd part => some (.macd part)
  | .oscillator .ppo part => some (.ppo part)
  | .oscillator .pvo part => some (.pvo part)
  | .directional kind period => some (.directional kind period)
  | _ => none

/-- No text that starts with `front` is `base` and a number behind it. -/
def apart : List Char → List Char → Bool
  | b :: base, f :: front => if b = f then apart base front else true
  | [], f :: _ => !f.isDigit
  | _, [] => false

theorem apart_not_prefix {base front : List Char} (h : apart base front) (n : ℕ) :
    ¬ front <+: base ++ Nat.toDigits 10 n := by
  induction base generalizing front with
  | nil =>
    cases front with
    | nil => cases h
    | cons f front => exact not_prefix_toDigits (by simpa [apart] using h) front n
  | cons b base ih =>
    cases front with
    | nil => cases h
    | cons f front =>
      rw [List.cons_append, List.cons_prefix_cons]
      rintro ⟨hb, hstarts⟩
      rw [apart, if_pos hb.symm] at h
      exact ih h hstarts

theorem apart_append {base front : List Char} (h : apart base front) (tail : List Char) :
    apart base (front ++ tail) := by
  induction base generalizing front with
  | nil =>
    cases front with
    | nil => cases h
    | cons f front => exact h
  | cons b base ih =>
    cases front with
    | nil => cases h
    | cons f front =>
      by_cases hb : b = f
      · rw [apart, if_pos hb] at h
        rw [List.cons_append, apart, if_pos hb]
        exact ih h
      · rw [List.cons_append, apart, if_neg hb]

/-- A literal is compared by its characters. -/
theorem apart_ofList {text : String} (hbase : text.toList = base) (h : apart base front = true) :
    apart text.toList (String.ofList front).toList = true := by
  rwa [hbase, String.toList_ofList]

/-- A test of the catalog accepts no name of `base` and a number. -/
def Misses (base : String) (test : String → Option CatalogMetric) : Prop :=
  ∀ n : ℕ, test (base ++ toString n) = none

theorem toList_numbered (base : String) (n : ℕ) :
    (base ++ toString n).toList = base.toList ++ Nat.toDigits 10 n := by
  rw [String.toList_append, Nat.toString_eq_repr, Nat.toList_repr]

theorem after?_apart (h : apart base.toList front.toList) (n : ℕ) :
    after? front (base ++ toString n).toList = none := by
  rw [toList_numbered, after?, if_neg]
  rw [List.isPrefixOf_iff_prefix]
  exact apart_not_prefix h n

theorem numbered?_apart (h : apart base.toList front.toList) (tail : String) (n : ℕ) :
    numbered? front tail (base ++ toString n) = none := by
  rw [numbered?, after?_apart h]
  rfl

theorem ne_of_apart {base front text : String} (h : apart base.toList front.toList) (hfront : front.toList <+: text.toList)
    (n : ℕ) : base ++ toString n ≠ text := by
  intro htext
  rw [← htext, toList_numbered] at hfront
  exact apart_not_prefix h n hfront

theorem Misses.pattern (h : apart base.toList front.toList) : Misses base (pattern front tail metric) := by
  intro n
  rw [Features.pattern, numbered?_apart h]
  rfl

theorem Misses.exactly (h : apart base.toList text.toList) : Misses base (exactly text metric) :=
  fun n => if_neg (ne_of_apart h List.prefix_rfl n)

theorem Misses.spaced (h : apart base.toList front.toList) :
    Misses base fun name => (spaced? front name).map metric := by
  intro n
  have hlong : apart base.toList (front ++ "_").toList := by
    rw [String.toList_append]
    exact apart_append h _
  simp only [spaced?, numbered?_apart h, numbered?_apart hlong, Option.or_none, Option.map_none]

theorem Misses.oscillator (h : apart base.toList family.toList) :
    Misses base (oscillator family metric) := by
  intro n
  have hstarts : ∀ tail : String, family.toList <+: (family ++ tail).toList := by simp
  rw [Features.oscillator, Features.exactly, Features.exactly, Features.exactly,
    if_neg (ne_of_apart h List.prefix_rfl n), if_neg (ne_of_apart h (hstarts _) n),
    if_neg (ne_of_apart h (hstarts _) n)]
  rfl

theorem Misses.drawdownRecovery (h : apart base.toList "drawdown_recovery_".toList) :
    Misses base drawdownRecovery? := by
  intro n
  rw [drawdownRecovery?, after?_apart h]
  rfl

theorem catalogMetric?_atr (n : ℕ) : catalogMetric? ("atr_" ++ toString n) = none := by
  have hmisses : ∀ test ∈ catalogPatterns, Misses "atr_" test := by
    unfold catalogPatterns
    simp only [List.forall_mem_cons]
    repeat' apply And.intro
    all_goals first
      | with_reducible refine .exactly ?_
        exact apart_ofList String.toList_ofList (by decide)
      | with_reducible refine .pattern ?_
        exact apart_ofList String.toList_ofList (by decide)
      | exact .spaced (apart_ofList String.toList_ofList (by decide))
      | exact .oscillator (apart_ofList String.toList_ofList (by decide))
      | exact .drawdownRecovery (apart_ofList String.toList_ofList (by decide))
      | nofun
  rw [catalogMetric?, List.findSome?_eq_none_iff]
  exact fun test htest => hmisses test htest n

/-- The test behind `k` others decides when these miss. -/
theorem catalogMetric?_of_misses (hmisses : ∀ test ∈ catalogPatterns.take k, Misses base test)
    (hk : catalogPatterns[k]? = some test) (n : ℕ) (htest : test (base ++ toString n) = some entry) :
    catalogMetric? (base ++ toString n) = some entry := by
  have hfront : (catalogPatterns.take k).findSome? (fun test => test (base ++ toString n)) = none :=
    List.findSome?_eq_none_iff.mpr fun test htest => hmisses test htest n
  have hsplit : catalogPatterns = catalogPatterns.take k ++ catalogPatterns.drop k :=
    (List.take_append_drop k _).symm
  have hdrop : catalogPatterns.drop k = test :: catalogPatterns.drop (k + 1) := by
    obtain ⟨hlt, rfl⟩ := List.getElem?_eq_some_iff.mp hk
    exact List.drop_eq_getElem_cons hlt
  rw [catalogMetric?, hsplit, List.findSome?_append, hfront, Option.none_or, hdrop,
    List.findSome?_cons, htest]

/-- How many tests of the catalog stand before the one of a directional name. -/
def Directional.place : Directional → ℕ
  | .adx => 12
  | .plusDi => 13
  | .minusDi => 14

/-- The characters before the period. -/
def Directional.chars : Directional → List Char
  | .adx => ['a', 'd', 'x', '_']
  | .plusDi => ['p', 'l', 'u', 's', '_', 'd', 'i', '_']
  | .minusDi => ['m', 'i', 'n', 'u', 's', '_', 'd', 'i', '_']

theorem Directional.toList_name (kind : Directional) : (kind.name ++ "_").toList = kind.chars := by
  rw [String.toList_append]
  cases kind with
  | adx => exact congrArg₂ (· ++ ·) (String.toList_ofList (l := ['a', 'd', 'x'])) String.toList_ofList
  | plusDi =>
    exact congrArg₂ (· ++ ·) (String.toList_ofList (l := ['p', 'l', 'u', 's', '_', 'd', 'i']))
      String.toList_ofList
  | minusDi =>
    exact congrArg₂ (· ++ ·) (String.toList_ofList (l := ['m', 'i', 'n', 'u', 's', '_', 'd', 'i']))
      String.toList_ofList

theorem misses_before_directional (kind : Directional) :
    ∀ test ∈ catalogPatterns.take kind.place, Misses (kind.name ++ "_") test := by
  unfold catalogPatterns
  cases kind <;> simp only [Directional.place, List.take_succ_cons, List.take_zero,
    List.forall_mem_cons] <;> repeat' apply And.intro
  all_goals first
    | with_reducible refine .exactly ?_
      exact apart_ofList (Directional.toList_name _) (by decide)
    | with_reducible refine .pattern ?_
      exact apart_ofList (Directional.toList_name _) (by decide)
    | exact .spaced (apart_ofList (Directional.toList_name _) (by decide))
    | exact .oscillator (apart_ofList (Directional.toList_name _) (by decide))
    | nofun

theorem catalogMetric?_directional (kind : Directional) (n : ℕ) :
    catalogMetric? (kind.key n) = some (.directional kind n) := by
  have htest : ∀ front, pattern front "" (.directional kind) (front ++ toString n) =
      some (.directional kind n) := by
    intro front
    have hn := numbered?_toString front "" n
    rw [String.append_empty] at hn
    rw [pattern, hn]
    rfl
  apply catalogMetric?_of_misses (misses_before_directional kind) (n := n) ?_ (htest _)
  cases kind <;> rfl

theorem normalName_numbered (h : base.toList.all fun c => !isPySpace c && decide (c.toLower = c))
    (n : ℕ) : normalName (base ++ toString n) = base ++ toString n := by
  have hdigit : ∀ c : Char, c.isDigit → isPySpace c = false ∧ c.toLower = c := by
    intro c hc
    obtain ⟨hlow, hhigh⟩ := Char.isDigit_iff_toNat.mp hc
    rw [← Char.ofNat_toNat c]
    generalize c.toNat = k at hlow hhigh
    have hnine : '9'.toNat = 57 := rfl
    have hzero : '0'.toNat = 48 := rfl
    rw [hnine] at hhigh
    rw [hzero] at hlow
    interval_cases k <;> decide
  have hkey : ∀ c ∈ (base ++ toString n).toList, isPySpace c = false ∧ c.toLower = c := by
    intro c hc
    rw [toList_numbered, List.mem_append] at hc
    rcases hc with hc | hc
    · simpa using List.all_eq_true.mp h c hc
    · exact hdigit c (Nat.isDigit_of_mem_toDigits (by decide) (by decide) hc)
  rw [normalName, pyStrip_eq_self fun c hc => (hkey c hc).1, pyLower_eq_self fun c hc => (hkey c hc).2]

theorem derivedSeriesSpec_numbered {base : String} {n : ℕ} (h : normalName (base ++ toString n) = base ++ toString n)
    (hvol : apart base.toList "realized_volatility_".toList)
    (hstrength : apart base.toList "relative_strength_".toList) :
    derivedSeriesSpec (base ++ toString n) = none := by
  have hpercentile : percentileBase? (base ++ toString n) = none := by
    rw [percentileBase?, toList_numbered, before?_toDigits (c := 'e') rfl rfl]
    rfl
  rw [derivedSeriesSpec, h, numbered?_apart hvol, numbered?_apart hstrength, hpercentile]
  rfl

/-- What the tables say of the name of a kept series. -/
theorem Kept.tables (e : Kept) :
    catalogMetric? e.key = e.entry ∧ derivedSeriesSpec e.key = none := by
  have hname : ∀ base n, base.toList.all (fun c => !isPySpace c && decide (c.toLower = c)) = true →
      apart base.toList "realized_volatility_".toList = true →
      apart base.toList "relative_strength_".toList = true →
      derivedSeriesSpec (base ++ toString n) = none :=
    fun base n hbase => derivedSeriesSpec_numbered (normalName_numbered hbase n)
  cases e with
  | trueRange => decide +kernel
  | dailyReturns => decide +kernel
  | atr period =>
    have hchars : "atr_".toList = ['a', 't', 'r', '_'] := String.toList_ofList
    exact ⟨catalogMetric?_atr period, hname "atr_" period (by rw [hchars]; decide)
      (apart_ofList hchars (by decide)) (apart_ofList hchars (by decide))⟩
  | oscillator family part => cases family <;> cases part <;> decide +kernel
  | directional kind period =>
    have hchars := kind.toList_name
    refine ⟨catalogMetric?_directional kind period, ?_⟩
    cases kind with
    | adx =>
      exact hname _ period (by rw [hchars]; decide) (apart_ofList hchars (by decide))
        (apart_ofList hchars (by decide))
    | plusDi =>
      exact hname _ period (by rw [hchars]; decide) (apart_ofList hchars (by decide))
        (apart_ofList hchars (by decide))
    | minusDi =>
      exact hname _ period (by rw [hchars]; decide) (apart_ofList hchars (by decide))
        (apart_ofList hchars (by decide))

theorem catalogMetric?_key (e : Kept) : catalogMetric? e.key = e.entry := e.tables.1

theorem derivedSeriesSpec_key (e : Kept) : derivedSeriesSpec e.key = none := e.tables.2

/-- The beginnings of all keys. -/
def keptFamilies : List (List Char) :=
  [['_', '_', 't'], ['_', '_', 'd'], ['a', 't', 'r'], ['m', 'a', 'c'], ['p', 'p', 'o'], ['p', 'v', 'o'],
    ['a', 'd', 'x'], ['p', 'l', 'u'], ['m', 'i', 'n']]

theorem Kept.key_ne (e : Kept) (h : name.toList.take 3 ∉ keptFamilies) : e.key ≠ name := by
  rintro rfl
  apply h
  rw [e.take_key]
  rcases e with _ | _ | p | ⟨_ | _ | _, part⟩ | ⟨_ | _ | _, p⟩ <;> simp [Kept.family, keptFamilies]

theorem derivedRatios_key (e : Kept) : derivedRatios.lookup e.key = none := by
  cases hratio : derivedRatios.lookup e.key with
  | none => rfl
  | some ratio =>
    have hnames : ∀ entry ∈ derivedRatios, entry.1.toList.take 3 ∉ keptFamilies := by
      simp [derivedRatios, keptFamilies]
    exact absurd rfl (e.key_ne (hnames _ (lookup_eq_some hratio)))

end QuantAgent.Features
