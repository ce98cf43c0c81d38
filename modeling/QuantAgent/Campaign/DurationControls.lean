import QuantAgent.Campaign.DurationPhrases
import QuantAgent.Lib.Occurrences
import Mathlib.Data.Sign.Basic

namespace QuantAgent.StrategyPreferences
set_option autoImplicit true

variable {T : CharTables}

/-- A term that a phrase shares no character with, and that no blank starts or ends. -/
structure PlainTerm (t : List Char) : Prop where
  ne_nil : t ≠ []
  head : t.head? ≠ some ' '
  last : t.getLast? ≠ some ' '
  apart : ∀ c ∈ t, c ∉ '개' :: '월' :: "0123456789".toList

instance (t : List Char) : Decidable (PlainTerm t) :=
  decidable_of_iff (t ≠ [] ∧ t.head? ≠ some ' ' ∧ t.getLast? ≠ some ' ' ∧
      ∀ c ∈ t, c ∉ '개' :: '월' :: "0123456789".toList)
    ⟨fun h => ⟨h.1, h.2.1, h.2.2.1, h.2.2.2⟩, fun h => ⟨h.ne_nil, h.head, h.last, h.apart⟩⟩

theorem plainTerm_of_mem {t : List Char}
    (h : t ∈ aggressivePreferenceTerms ∨ t ∈ defensivePreferenceTerms) : PlainTerm t := by
  have haggressive : ∀ t ∈ aggressivePreferenceTerms, PlainTerm t := by decide +kernel
  have hdefensive : ∀ t ∈ defensivePreferenceTerms, PlainTerm t := by decide +kernel
  rcases h with h | h
  · exact haggressive t h
  · exact hdefensive t h

theorem infix_spaced {t : List Char} (h : PlainTerm t) (words : List (List Char)) :
    t <:+: spaced words ↔ t <:+: joinChars ' ' words := by
  cases words with
  | nil => rfl
  | cons word words =>
    rw [spaced_eq, List.infix_cons_iff]
    constructor
    · rintro (hhead | hin)
      · cases t with
        | nil => exact absurd rfl h.ne_nil
        | cons c t =>
          obtain ⟨rest, hrest⟩ := hhead
          obtain ⟨rfl, -⟩ := List.cons.inj hrest
          exact absurd rfl h.head
      · exact hin
    · exact .inr

theorem infix_concat_blank {t s : List Char} (h : PlainTerm t) : t <:+: s ++ [' '] ↔ t <:+: s := by
  rw [List.infix_concat_iff]
  constructor
  · rintro (hsuffix | hin)
    · obtain ⟨front, hfront⟩ := hsuffix
      have hlast := congrArg List.getLast? hfront
      rw [List.getLast?_append_of_ne_nil _ h.ne_nil, List.getLast?_concat] at hlast
      exact absurd hlast h.last
    · exact hin
  · exact .inr

theorem mem_durationPhrase {n : ℕ} {c : Char} (h : c ∈ durationPhrase n) :
    c ∈ '개' :: '월' :: "0123456789".toList := by
  rcases List.mem_append.mp h with hdigit | hmonth
  · have hdigit' : c.isDigit = true := Nat.isDigit_of_mem_toDigits (by decide) (by decide) hdigit
    obtain ⟨hlow, hhigh⟩ := Bool.and_eq_true_iff.mp hdigit'
    have hlow' : 48 ≤ c.toNat := of_decide_eq_true hlow
    have hhigh' : c.toNat ≤ 57 := of_decide_eq_true hhigh
    have hc : c = Char.ofNat c.toNat := (Char.ofNat_toNat c).symm
    rw [hc]
    generalize c.toNat = k at hlow' hhigh'
    interval_cases k <;> decide
  · simp only [List.mem_cons, List.not_mem_nil, or_false] at hmonth
    rcases hmonth with rfl | rfl
    · exact List.mem_cons_self ..
    · exact List.mem_cons_of_mem _ (List.mem_cons_self ..)

theorem durationPhrase_ne_nil (n : ℕ) : durationPhrase n ≠ [] :=
  List.append_ne_nil_of_right_ne_nil _ (List.cons_ne_nil _ _)

/-- A term stands in the words around a phrase only on one side of it. -/
theorem infix_phrase {t : List Char} (h : PlainTerm t) (us vs : List (List Char)) (n : ℕ) :
    t <:+: joinChars ' ' (us ++ durationPhrase n :: vs) ↔
      t <:+: joinChars ' ' us ∨ t <:+: joinChars ' ' vs := by
  have happend : spaced us ++ ' ' :: (durationPhrase n ++ spaced vs) =
      (spaced us ++ [' ']) ++ (durationPhrase n ++ spaced vs) := by simp
  rw [← infix_spaced h, spaced_append, spaced_cons, happend,
    infix_around h.ne_nil (durationPhrase_ne_nil n) fun c hc hp => h.apart c hc (mem_durationPhrase hp),
    infix_concat_blank h, infix_spaced h, infix_spaced h]

/-- How far a text leans to risk, by the terms of the two lists. -/
def leaning (text : List Char) : ℤ :=
  termScore text aggressivePreferenceTerms - termScore text defensivePreferenceTerms

/-- The same for the terms that stand whole in one of two texts. -/
def leaningApart (left right : List Char) : ℤ :=
  (aggressivePreferenceTerms.countP fun t => termIn left t || termIn right t) -
    (defensivePreferenceTerms.countP fun t => termIn left t || termIn right t)

theorem leaning_phrase (us vs : List (List Char)) (n : ℕ) :
    leaning (joinChars ' ' (us ++ durationPhrase n :: vs)) =
      leaningApart (joinChars ' ' us) (joinChars ' ' vs) := by
  have hterm : ∀ t, t ∈ aggressivePreferenceTerms ∨ t ∈ defensivePreferenceTerms →
      (termIn (joinChars ' ' (us ++ durationPhrase n :: vs)) t = true ↔
        (termIn (joinChars ' ' us) t || termIn (joinChars ' ' vs) t) = true) := by
    intro t ht
    rw [Bool.or_eq_true, termIn, termIn, termIn, decide_eq_true_iff, decide_eq_true_iff,
      decide_eq_true_iff]
    exact infix_phrase (plainTerm_of_mem ht) us vs n
  rw [leaning, leaningApart, termScore, termScore, List.countP_congr fun t ht => hterm t (.inl ht),
    List.countP_congr fun t ht => hterm t (.inr ht)]

/-- What a requested count adds to the leaning. -/
def bias (requested : Option ℕ) : ℤ :=
  (if requested.any (· ≤ 7) then 1 else 0) - (if requested.any (15 ≤ ·) then 1 else 0)

def riskStyleOf (score : ℤ) : RiskStyle :=
  if 0 < score then .aggressive else if score < 0 then .defensive else .balanced

def defaultPositions : RiskStyle → ℕ
  | .aggressive => 8
  | .balanced => 10
  | .defensive => 15

theorem riskStyleOf_eq_iff (a b : ℤ) :
    riskStyleOf a = riskStyleOf b ↔ SignType.sign a = SignType.sign b := by
  rcases lt_trichotomy a 0 with ha | rfl | ha <;> rcases lt_trichotomy b 0 with hb | rfl | hb <;>
    simp [riskStyleOf, *, not_lt_of_gt]

theorem infer_riskStyle (query : String) :
    (inferAutomaticStrategyPreferences T query).riskStyle =
      riskStyleOf (leaning (normalized T query) + bias (positionCount T (normalized T query))) := by
  have hcompare : ∀ a d x y : ℕ,
      (if d + y < a + x then RiskStyle.aggressive else if a + x < d + y then .defensive else .balanced) =
        riskStyleOf ((a : ℤ) - d + ((x : ℤ) - y)) := by
    intro a d x y
    unfold riskStyleOf
    split_ifs <;> first | rfl | omega
  refine (hcompare _ _ _ _).trans ?_
  rw [leaning, bias]
  congr 2
  push_cast
  rfl

theorem infer_maxPositions (query : String) :
    (inferAutomaticStrategyPreferences T query).maxPositions =
      (positionCount T (normalized T query)).getD
        (defaultPositions (inferAutomaticStrategyPreferences T query).riskStyle) := by
  have hdefault : ∀ style : RiskStyle,
      (match style with | .aggressive => 8 | .balanced => 10 | .defensive => 15) =
        defaultPositions style := by
    intro style
    cases style <;> rfl
  rw [← hdefault]
  rfl

/-- The controls that a holding period must leave alone. -/
structure SameControls (p p' : AutomaticStrategyPreferences) : Prop where
  maxPositions : p.maxPositions = p'.maxPositions
  riskStyle : p.riskStyle = p'.riskStyle
  stopLossPct : p.stopLossPct = p'.stopLossPct
  trailingStopPct : p.trailingStopPct = p'.trailingStopPct

theorem sameControls_iff (query query' : String) :
    SameControls (inferAutomaticStrategyPreferences T query)
        (inferAutomaticStrategyPreferences T query') ↔
      (inferAutomaticStrategyPreferences T query).maxPositions =
          (inferAutomaticStrategyPreferences T query').maxPositions ∧
        (inferAutomaticStrategyPreferences T query).riskStyle =
          (inferAutomaticStrategyPreferences T query').riskStyle := by
  have hstops : ∀ q, ((inferAutomaticStrategyPreferences T q).stopLossPct,
      (inferAutomaticStrategyPreferences T q).trailingStopPct) =
        (match (inferAutomaticStrategyPreferences T q).riskStyle with
        | .aggressive => ((25 / 100, 30 / 100) : ℚ × ℚ)
        | .balanced => (20 / 100, 25 / 100)
        | .defensive => (12 / 100, 15 / 100)) := by
    intro q
    unfold inferAutomaticStrategyPreferences
    rfl
  constructor
  · intro h
    exact ⟨h.maxPositions, h.riskStyle⟩
  · rintro ⟨hmax, hstyle⟩
    have hboth := hstops query
    rw [hstyle, ← hstops query'] at hboth
    obtain ⟨hstop, htrailing⟩ := Prod.mk.inj hboth
    exact ⟨hmax, hstyle, hstop, htrailing⟩

/-- The phrase is the first number the pattern reads, and not the one it would have read. -/
def ReadFirst (T : CharTables) (us : List (List Char)) (n : ℕ) (vs : List (List Char)) : Prop :=
  3 ≤ n ∧ n ≤ 30 ∧ positionCount T (joinChars ' ' us) = none ∧
    positionCount T (joinChars ' ' vs) ≠ some n

/-- When a phrase between the words leaves the controls alone. -/
def KeepsControls (T : CharTables) (us : List (List Char)) (n : ℕ) (vs : List (List Char)) : Prop :=
  let whole := leaning (joinChars ' ' (us ++ vs))
  let apart := leaningApart (joinChars ' ' us) (joinChars ' ' vs)
  let read := (positionCount T (joinChars ' ' us)).or (positionCount T (joinChars ' ' vs))
  -- the months are the portfolio's size by default
  (ReadFirst T us n vs → read = none ∧
    (n = 8 ∧ 0 < whole ∧ 0 < apart ∨ n = 10 ∧ whole = 0 ∧ apart = 0 ∨
      n = 15 ∧ whole < 0 ∧ apart ≤ 0)) ∧
  -- no term of two words is cut in a way that counts
  (¬ ReadFirst T us n vs → SignType.sign (apart + bias read) = SignType.sign (whole + bias read))

theorem default_iff {whole apart : ℤ} (n : ℕ) :
    (n = defaultPositions (riskStyleOf (whole + bias none)) ∧
        riskStyleOf (apart + bias (some n)) = riskStyleOf (whole + bias none)) ↔
      (n = 8 ∧ 0 < whole ∧ 0 < apart ∨ n = 10 ∧ whole = 0 ∧ apart = 0 ∨
        n = 15 ∧ whole < 0 ∧ apart ≤ 0) := by
  have hnone : whole + bias none = whole := Int.add_zero whole
  have height : bias (some 8) = 0 := rfl
  have hten : bias (some 10) = 0 := rfl
  have hfifteen : bias (some 15) = -1 := rfl
  rw [hnone]
  rcases lt_trichotomy whole 0 with hw | rfl | hw
  · have hstyle : riskStyleOf whole = .defensive := by simp [riskStyleOf, hw, not_lt_of_gt hw]
    rw [hstyle, defaultPositions]
    constructor
    · rintro ⟨rfl, hsame⟩
      rw [hfifteen, ← hstyle, riskStyleOf_eq_iff, sign_neg hw, sign_eq_neg_one_iff] at hsame
      exact .inr (.inr ⟨rfl, hw, by omega⟩)
    · rintro (⟨-, hpos, -⟩ | ⟨-, hzero, -⟩ | ⟨rfl, -, hapart⟩)
      · omega
      · omega
      · refine ⟨rfl, ?_⟩
        rw [hfifteen, ← hstyle, riskStyleOf_eq_iff, sign_neg hw, sign_eq_neg_one_iff]
        omega
  · have hstyle : riskStyleOf 0 = .balanced := rfl
    rw [hstyle, defaultPositions]
    constructor
    · rintro ⟨rfl, hsame⟩
      rw [hten, ← hstyle, riskStyleOf_eq_iff, sign_zero, sign_eq_zero_iff] at hsame
      exact .inr (.inl ⟨rfl, rfl, by omega⟩)
    · rintro (⟨-, hpos, -⟩ | ⟨rfl, -, hapart⟩ | ⟨-, hneg, -⟩)
      · omega
      · refine ⟨rfl, ?_⟩
        rw [hten, hapart]
        rfl
      · omega
  · have hstyle : riskStyleOf whole = .aggressive := by simp [riskStyleOf, hw]
    rw [hstyle, defaultPositions]
    constructor
    · rintro ⟨rfl, hsame⟩
      rw [height, ← hstyle, riskStyleOf_eq_iff, sign_pos hw, sign_eq_one_iff] at hsame
      exact .inl ⟨rfl, hw, by omega⟩
    · rintro (⟨rfl, -, hapart⟩ | ⟨-, hzero, -⟩ | ⟨-, hneg, -⟩)
      · refine ⟨rfl, ?_⟩
        rw [height, ← hstyle, riskStyleOf_eq_iff, sign_pos hw, sign_eq_one_iff]
        omega
      · omega
      · omega

theorem sameControls_phrase_iff {query query' : String} {us vs : List (List Char)} {n : ℕ}
    (hquery : words T query = us ++ vs) (hquery' : words T query' = us ++ durationPhrase n :: vs)
    (hcount : OnlyDurations T false (normalized T query)) :
    SameControls (inferAutomaticStrategyPreferences T query')
        (inferAutomaticStrategyPreferences T query) ↔ KeepsControls T us n vs := by
  have hread : positionCount T (normalized T query) =
      (positionCount T (joinChars ' ' us)).or (positionCount T (joinChars ' ' vs)) := by
    rw [normalized, hquery] at hcount ⊢
    exact positionCount_apart hcount
  have hread' : positionCount T (normalized T query') = (positionCount T (joinChars ' ' us)).or
      ((if 3 ≤ n ∧ n ≤ 30 then some n else none).or (positionCount T (joinChars ' ' vs))) := by
    rw [normalized, hquery']
    exact positionCount_phrase us vs n
  have hwhole : leaning (normalized T query) = leaning (joinChars ' ' (us ++ vs)) := by
    rw [normalized, hquery]
  have hapart : leaning (normalized T query') =
      leaningApart (joinChars ' ' us) (joinChars ' ' vs) := by
    rw [normalized, hquery', leaning_phrase]
  rw [sameControls_iff, infer_maxPositions, infer_maxPositions, infer_riskStyle, infer_riskStyle,
    hread, hread', hwhole, hapart]
  unfold KeepsControls
  dsimp only
  by_cases hfirst : ReadFirst T us n vs
  · obtain ⟨hlow, hhigh, hus, hvs⟩ := hfirst
    rw [hus, if_pos ⟨hlow, hhigh⟩]
    simp only [Option.none_or, Option.some_or, Option.getD_some, ReadFirst, hlow, hhigh, hus, hvs,
      ne_eq, not_false_eq_true, and_self, true_implies, not_true_eq_false, false_implies, and_true]
    cases hread : positionCount T (joinChars ' ' vs) with
    | none => rw [Option.getD_none, default_iff]; simp only [true_and]
    | some m =>
      constructor
      · rintro ⟨hsame, -⟩
        rw [Option.getD_some] at hsame
        exact absurd (by rw [hread, hsame]) hvs
      · rintro ⟨hnone, -⟩
        cases hnone
  · have hsame : (positionCount T (joinChars ' ' us)).or
        ((if 3 ≤ n ∧ n ≤ 30 then some n else none).or (positionCount T (joinChars ' ' vs))) =
        (positionCount T (joinChars ' ' us)).or (positionCount T (joinChars ' ' vs)) := by
      by_cases hrange : 3 ≤ n ∧ n ≤ 30
      · rw [if_pos hrange]
        cases hus : positionCount T (joinChars ' ' us) with
        | some k => rfl
        | none =>
          have hvs : positionCount T (joinChars ' ' vs) = some n := by
            by_contra hvs
            exact hfirst ⟨hrange.1, hrange.2, hus, hvs⟩
          rw [hvs]
          rfl
      · rw [if_neg hrange, Option.none_or]
    rw [hsame, riskStyleOf_eq_iff]
    simp only [hfirst, false_implies, not_false_eq_true, true_implies, true_and]
    constructor
    · exact fun h => h.2
    · intro hsign
      rw [(riskStyleOf_eq_iff _ _).mpr hsign]
      exact ⟨rfl, hsign⟩

theorem unitText_stock {after : List Char} (hafter : ∀ c ∈ after.head?, T.decimal c = none) :
    UnitText T ('종' :: '목' :: after) where
  unit := by
    have hspace : T.isSpace '종' = false := (T.letter '종' (by decide)).1
    have hnext : noDigitNext T after = true := by
      cases after with
      | nil => rfl
      | cons c after =>
        rw [noDigitNext, List.head?_cons, Option.any_some, hafter c rfl]
        rfl
    rw [unitFollows, List.dropWhile_cons_of_neg (by rw [hspace]; exact Bool.false_ne_true), unitAt,
      Bool.or_eq_true]
    right
    exact List.any_eq_true.mpr ⟨"종목".toList, List.mem_cons_self .., hnext⟩
  head := ⟨'종', rfl, (T.letter '종' (by decide)).2⟩

/-- A stated count, and what the pattern reads before it. -/
theorem maxPositions_stated_iff {query : String} {before after : List Char} {k : ℕ} (hlow : 3 ≤ k)
    (hhigh : k ≤ 30)
    (hquery : normalized T query = before ++ (Nat.toDigits 10 k ++ '종' :: '목' :: after))
    (hbefore : ∀ c ∈ before.getLast?, T.decimal c = none)
    (hafter : ∀ c ∈ after.head?, T.decimal c = none) :
    (inferAutomaticStrategyPreferences T query).maxPositions = k ↔
      positionCountIn T false before (Nat.toDigits 10 k ++ '종' :: '목' :: after) = none ∨
        positionCountIn T false before (Nat.toDigits 10 k ++ '종' :: '목' :: after) = some k := by
  have hstated : positionCountIn T false (Nat.toDigits 10 k ++ '종' :: '목' :: after) [] = some k := by
    have hnumber := numberAt_toDigits k (unitText_stock hafter)
    rw [if_pos ⟨hlow, hhigh⟩] at hnumber
    match hform : Nat.toDigits 10 k with
    | [] => exact absurd hform Nat.toDigits_ne_nil
    | c :: digits =>
      rw [hform] at hnumber
      rw [List.cons_append, positionCountIn, List.append_nil, positionCountAt,
        if_neg Bool.false_ne_true, ← List.cons_append, hnumber]
      rfl
  have hlast : ∀ b, b = (before.getLast?.map fun c => (T.decimal c).isSome).getD false → b = false := by
    rintro b rfl
    cases hend : before.getLast? with
    | none => rfl
    | some c =>
      rw [Option.map_some, hbefore c hend]
      rfl
  obtain ⟨b, hparts, hb⟩ := positionCountIn_append (T := T) false before
    (Nat.toDigits 10 k ++ '종' :: '목' :: after) []
  rw [hlast b hb, hstated, List.append_nil] at hparts
  rw [infer_maxPositions, hquery, positionCount, hparts]
  cases positionCountIn T false before (Nat.toDigits 10 k ++ '종' :: '목' :: after) with
  | none => simp
  | some m => simp

/-- A holding period leaves the controls alone, and a stated count is the portfolio's size, exactly
where no number of months is read as a count. -/
theorem durations_and_position_counts (T : CharTables) :
    (∀ (query query' : String) (us vs : List (List Char)) (n : ℕ), 0 < n →
        words T query = us ++ vs → words T query' = us ++ durationPhrase n :: vs →
        OnlyDurations T false (normalized T query) →
        (SameControls (inferAutomaticStrategyPreferences T query')
          (inferAutomaticStrategyPreferences T query) ↔ KeepsControls T us n vs)) ∧
      ∀ (query : String) (before after : List Char) (k : ℕ), 3 ≤ k → k ≤ 30 →
        normalized T query = before ++ (Nat.toDigits 10 k ++ '종' :: '목' :: after) →
        (∀ c ∈ before.getLast?, T.decimal c = none) → (∀ c ∈ after.head?, T.decimal c = none) →
        ((inferAutomaticStrategyPreferences T query).maxPositions = k ↔
          positionCountIn T false before (Nat.toDigits 10 k ++ '종' :: '목' :: after) = none ∨
            positionCountIn T false before (Nat.toDigits 10 k ++ '종' :: '목' :: after) = some k) := by
  refine ⟨?_, ?_⟩
  · intro query query' us vs n _ hquery hquery' hcount
    exact sameControls_phrase_iff hquery hquery' hcount
  · intro query before after k hlow hhigh hquery hbefore hafter
    exact maxPositions_stated_iff hlow hhigh hquery hbefore hafter

/-- Lower case, blanks and digits of ASCII. -/
def asciiTables : CharTables where
  casefold := pyLower
  isSpace := isPySpace
  decimal c := if c.isDigit then some (c.toNat - '0'.toNat) else none
  space := by decide
  decimal_digitChar := by decide
  decimal_space c h := by
    simp only [isPySpace, decide_eq_true_eq, List.mem_cons, List.not_mem_nil, or_false] at h
    rcases h with rfl | rfl | rfl | rfl | rfl | rfl <;> rfl
  letter := by decide

theorem onlyDurations_of_no_digit {s : List Char} (b : Bool) (h : ∀ c ∈ s, c ∉ "123456789".toList) :
    OnlyDurations T b s := by
  induction s generalizing b with
  | nil => trivial
  | cons c s ih =>
    refine ⟨fun hread => ?_, ih _ fun d hd => h d (List.mem_cons_of_mem _ hd)⟩
    unfold positionCountAt at hread
    split at hread
    · cases hread
    · rw [numberAt_of_not_digit (h c (List.mem_cons_self ..))] at hread
      cases hread

example : words asciiTables "12개월 모멘텀" = [durationPhrase 12, "모멘텀".toList] := by decide +kernel

theorem durations_and_position_counts_threeYears :
    SameControls (inferAutomaticStrategyPreferences asciiTables "36개월 모멘텀")
        (inferAutomaticStrategyPreferences asciiTables "모멘텀") ∧
      (inferAutomaticStrategyPreferences asciiTables "36개월 10종목").maxPositions = 10 := by
  constructor
  · apply ((durations_and_position_counts asciiTables).1 "모멘텀" "36개월 모멘텀" [] ["모멘텀".toList] 36
      (by decide) (by decide +kernel) (by decide +kernel)
      (onlyDurations_of_no_digit false (by decide +kernel))).mpr
    refine ⟨fun hread => absurd hread.2.1 (by decide), fun _ => by decide +kernel⟩
  · apply ((durations_and_position_counts asciiTables).2 "36개월 10종목" "36개월 ".toList [] 10
      (by decide) (by decide) (by decide +kernel) (by decide +kernel) (by decide +kernel)).mpr
    decide +kernel

/-- Six months are read as six stocks, with or without a stated count. -/
theorem six_months_read_as_six_stocks :
    (words asciiTables "모멘텀" = [] ++ ["모멘텀".toList] ∧
        words asciiTables "6개월 모멘텀" = [] ++ durationPhrase 6 :: ["모멘텀".toList] ∧
        OnlyDurations asciiTables false (normalized asciiTables "모멘텀") ∧
        ¬ SameControls (inferAutomaticStrategyPreferences asciiTables "6개월 모멘텀")
          (inferAutomaticStrategyPreferences asciiTables "모멘텀")) ∧
      normalized asciiTables "6개월 10종목" =
          "6개월 ".toList ++ (Nat.toDigits 10 10 ++ '종' :: '목' :: []) ∧
      (inferAutomaticStrategyPreferences asciiTables "6개월 10종목").maxPositions = 6 := by
  refine ⟨⟨by decide +kernel, by decide +kernel,
    onlyDurations_of_no_digit false (by decide +kernel), fun h => ?_⟩, by decide +kernel,
    by decide +kernel⟩
  have hmax := h.maxPositions
  revert hmax
  decide +kernel

end QuantAgent.StrategyPreferences
