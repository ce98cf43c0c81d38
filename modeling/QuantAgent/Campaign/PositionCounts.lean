import QuantAgent.Campaign.StrategyPreferences

namespace QuantAgent.StrategyPreferences
set_option autoImplicit true

variable {T : CharTables}

/-- The text is over, or a digit comes next. -/
def Blocked (T : CharTables) (w : List Char) : Prop := ∀ c ∈ w.head?, (T.decimal c).isSome = true

theorem decimal_blank : T.decimal ' ' = none := T.decimal_space ' ' T.space

theorem isSpace_of_decimal (h : (T.decimal c).isSome = true) : T.isSpace c = false := by
  apply Bool.eq_false_iff.mpr
  intro hspace
  rw [T.decimal_space c hspace] at h
  cases h

theorem noDigitNext_append (s w : List Char) : noDigitNext T (s ++ ' ' :: w) = noDigitNext T s := by
  cases s with
  | nil =>
    rw [noDigitNext, noDigitNext, List.nil_append, List.head?_cons, Option.any_some, decimal_blank]
    rfl
  | cons c s => rfl

theorem literal_append {word : List Char} (hword : ' ' ∉ word) (next : List Char → Bool)
    (s w : List Char) :
    literal word next (s ++ ' ' :: w) = literal word (fun rest => next (rest ++ ' ' :: w)) s := by
  induction word generalizing s with
  | nil => rfl
  | cons c word ih =>
    cases s with
    | nil =>
      have hne : c ≠ ' ' := fun h => hword (h ▸ List.mem_cons_self ..)
      simp [literal, List.isPrefixOf, hne]
    | cons d s =>
      have htail := ih (fun h => hword (List.mem_cons_of_mem _ h)) s
      simp only [literal, List.cons_append, List.isPrefixOf, List.length_cons, List.drop_succ_cons,
        Bool.and_assoc] at htail ⊢
      rw [htail]

theorem literal_mono {word : List Char} {next next' : List Char → Bool}
    (h : ∀ rest, next rest = true → next' rest = true) (hs : literal word next s = true) :
    literal word next' s = true := by
  rw [literal, Bool.and_eq_true] at hs ⊢
  exact ⟨hs.1, h _ hs.2⟩

/-- A word that starts with a letter does not stand where a digit comes next. -/
theorem literal_blocked {c : Char} (hc : c ∈ ['개', '월', '종', 'n', 's']) (word : List Char)
    (next : List Char → Bool) (hw : Blocked T w) : literal (c :: word) next w = false := by
  cases w with
  | nil => rfl
  | cons d w =>
    have hd := hw d rfl
    have hne : c ≠ d := by
      rintro rfl
      rw [(T.letter c hc).2] at hd
      cases hd
    simp [literal, List.isPrefixOf, hne]

theorem plainUnits_head {unit : List Char} (h : unit ∈ plainUnits) :
    ' ' ∉ unit ∧ ∃ c ∈ ['개', '월', '종', 'n', 's'], ∃ word, unit = c :: word := by
  simp only [plainUnits, List.mem_cons, List.not_mem_nil, or_false] at h
  rcases h with rfl | rfl | rfl | rfl | rfl
  · exact ⟨by decide, '종', by decide, ['목'], rfl⟩
  · exact ⟨by decide, 'n', by decide, ['a', 'm', 'e'], rfl⟩
  · exact ⟨by decide, 'n', by decide, ['a', 'm', 'e', 's'], rfl⟩
  · exact ⟨by decide, 's', by decide, ['t', 'o', 'c', 'k'], rfl⟩
  · exact ⟨by decide, 's', by decide, ['t', 'o', 'c', 'k', 's'], rfl⟩

theorem unitAt_blocked (hw : Blocked T w) : unitAt T w = false := by
  rw [unitAt, Bool.or_eq_false_iff]
  refine ⟨literal_blocked (by decide) _ _ hw, List.any_eq_false.mpr fun unit hunit => ?_⟩
  obtain ⟨-, c, hc, word, rfl⟩ := plainUnits_head hunit
  rw [literal_blocked hc word _ hw]
  exact Bool.false_ne_true

theorem dropWhile_blocked (hw : Blocked T w) : w.dropWhile T.isSpace = w := by
  cases w with
  | nil => rfl
  | cons c w =>
    rw [List.dropWhile_cons_of_neg]
    rw [isSpace_of_decimal (hw c rfl)]
    exact Bool.false_ne_true

theorem unitFollows_blocked (hw : Blocked T w) : unitFollows T w = false := by
  rw [unitFollows, dropWhile_blocked hw, unitAt_blocked hw]

/-- A blank and what comes after it change nothing for a word behind optional blanks. -/
theorem literal_dropWhile_append (hw : Blocked T w) {c : Char} (hc : c ∈ ['개', '월', '종', 'n', 's'])
    {word : List Char} (hword : ' ' ∉ c :: word) (s : List Char) :
    literal (c :: word) (noDigitNext T) ((s ++ ' ' :: w).dropWhile T.isSpace) =
      literal (c :: word) (noDigitNext T) (s.dropWhile T.isSpace) := by
  rw [List.dropWhile_append]
  split
  · next hempty =>
    rw [List.isEmpty_iff.mp hempty, List.dropWhile_cons_of_pos T.space, dropWhile_blocked hw,
      literal_blocked hc word _ hw]
    rfl
  · rw [literal_append hword]
    simp only [noDigitNext_append]

theorem unitAt_append (hw : Blocked T w) (s : List Char) : unitAt T (s ++ ' ' :: w) = unitAt T s := by
  have hplain : ∀ unit ∈ plainUnits, literal unit (noDigitNext T) (s ++ ' ' :: w) =
      literal unit (noDigitNext T) s := by
    intro unit hunit
    rw [literal_append (plainUnits_head hunit).1]
    simp only [noDigitNext_append]
  rw [unitAt, unitAt, literal_append (by decide)]
  congr 1
  · congr 1
    funext rest
    rw [noDigitNext_append]
    congr 1
    exact literal_dropWhile_append hw (by decide) (by decide) rest
  · rw [Bool.eq_iff_iff, List.any_eq_true, List.any_eq_true]
    constructor
    · rintro ⟨unit, hunit, h⟩
      rw [hplain unit hunit] at h
      exact ⟨unit, hunit, h⟩
    · rintro ⟨unit, hunit, h⟩
      rw [← hplain unit hunit] at h
      exact ⟨unit, hunit, h⟩

theorem literal_ne_nil {word : List Char} (hne : word ≠ []) (h : literal word next s = true) : s ≠ [] := by
  rintro rfl
  cases word with
  | nil => exact hne rfl
  | cons c word => cases h

theorem unitAt_mono (h : unitAt T s = true) (w : List Char) : unitAt T (s ++ ' ' :: w) = true := by
  rw [unitAt, Bool.or_eq_true] at h ⊢
  rcases h with h | h
  · left
    rw [literal_append (by decide)]
    apply literal_mono _ h
    intro rest hrest
    rw [Bool.or_eq_true] at hrest ⊢
    rcases hrest with hrest | hrest
    · left
      have hne := literal_ne_nil (by decide) hrest
      rw [List.dropWhile_append, if_neg (by simpa using hne), literal_append (by decide)]
      simpa only [noDigitNext_append] using hrest
    · right
      rwa [noDigitNext_append]
  · right
    obtain ⟨unit, hunit, hs⟩ := List.any_eq_true.mp h
    refine List.any_eq_true.mpr ⟨unit, hunit, ?_⟩
    rw [literal_append (plainUnits_head hunit).1]
    simpa only [noDigitNext_append] using hs

theorem unitFollows_append (hw : Blocked T w) (s : List Char) :
    unitFollows T (s ++ ' ' :: w) = unitFollows T s := by
  rw [unitFollows, unitFollows, List.dropWhile_append]
  split
  · next hempty =>
    rw [List.isEmpty_iff.mp hempty, List.dropWhile_cons_of_pos T.space, dropWhile_blocked hw,
      unitAt_blocked hw]
    rfl
  · exact unitAt_append hw _

theorem unitFollows_mono (h : unitFollows T s = true) (w : List Char) :
    unitFollows T (s ++ ' ' :: w) = true := by
  have hne : s.dropWhile T.isSpace ≠ [] := by
    intro hnil
    rw [unitFollows, hnil] at h
    cases h
  rw [unitFollows, List.dropWhile_append, if_neg (by simpa using hne)]
  exact unitAt_mono h w

theorem blocked_cons (h : (T.decimal d).isSome = true) (s : List Char) : Blocked T (d :: s) := by
  intro c hc
  cases hc
  exact h

/-- A number's match does not reach over a blank in front of a digit. -/
theorem numberAt_append (hw : Blocked T w) (c : Char) (s : List Char) :
    numberAt T (c :: s ++ ' ' :: w) = numberAt T (c :: s) := by
  cases s with
  | nil =>
    have hunit : unitFollows T (' ' :: w) = false := by
      have happend := unitFollows_append hw []
      rwa [unitFollows_blocked (w := []) (fun _ h => by cases h)] at happend
    change numberAt T (c :: ' ' :: w) = none
    rw [numberAt, if_neg fun hone => Bool.false_ne_true (hunit.symm.trans hone.2), decimal_blank]
  | cons d s =>
    have hone := unitFollows_append hw (d :: s)
    have htwo := unitFollows_append hw s
    simp only [List.cons_append] at hone ⊢
    rw [numberAt, numberAt, hone, htwo]

theorem numberAt_mono (h : numberAt T (c :: s) = some k) (w : List Char) :
    numberAt T (c :: s ++ ' ' :: w) = some k := by
  cases s with
  | nil => cases h
  | cons d s =>
    simp only [List.cons_append]
    rw [numberAt] at h ⊢
    split at h
    · next hone =>
      rw [if_pos ⟨hone.1, unitFollows_mono hone.2 w⟩]
      exact h
    · cases hd : T.decimal d with
      | none =>
        rw [hd] at h
        cases h
      | some e =>
        rw [hd] at h
        have hblocked := unitFollows_blocked (blocked_cons (by rw [hd]; rfl) (s ++ ' ' :: w))
        rw [if_neg fun hone => Bool.false_ne_true (hblocked.symm.trans hone.2)]
        cases hunit : unitFollows T s with
        | false =>
          simp only [hunit] at h
          cases h
        | true =>
          simp only [hunit] at h
          simp only [unitFollows_mono hunit w]
          exact h

/-- What can follow a number: a unit that starts with a letter. -/
structure UnitText (T : CharTables) (w : List Char) : Prop where
  unit : unitFollows T w = true
  head : ∃ c ∈ w.head?, T.decimal c = none

/-- Behind a run of digits only the digits decide what is read. -/
theorem numberAt_digits {digits : List Char} (hdigits : ∀ c ∈ digits, (T.decimal c).isSome = true)
    (hne : digits ≠ []) (hw : UnitText T w) (hw' : UnitText T w') :
    numberAt T (digits ++ w) = numberAt T (digits ++ w') := by
  match digits, hne, hdigits with
  | [c], _, _ =>
    have hform : ∀ v, UnitText T v → numberAt T ([c] ++ v) =
        if c ∈ "3456789".toList then some (c.toNat - '0'.toNat) else none := by
      intro v hv
      obtain ⟨d, hd, hnone⟩ := hv.head
      cases v with
      | nil => cases hd
      | cons d v =>
        cases hd
        rw [List.cons_append, List.nil_append, numberAt, hv.unit, hnone]
        by_cases hc : c ∈ "3456789".toList
        · rw [if_pos ⟨hc, rfl⟩, if_pos hc]
        · rw [if_neg fun h => hc h.1, if_neg hc]
    rw [hform w hw, hform w' hw']
  | [c, d], _, hdigits =>
    have hd := hdigits d (List.mem_cons_of_mem _ (List.mem_cons_self ..))
    have hfirst : ∀ v, unitFollows T (d :: v) = false := fun v => unitFollows_blocked (blocked_cons hd v)
    simp only [List.cons_append, List.nil_append]
    rw [numberAt, numberAt, hfirst, hfirst, hw.unit, hw'.unit]
  | c :: d :: e :: digits, _, hdigits =>
    have hd := hdigits d (List.mem_cons_of_mem _ (List.mem_cons_self ..))
    have he := hdigits e (List.mem_cons_of_mem _ (List.mem_cons_of_mem _ (List.mem_cons_self ..)))
    have hfirst : ∀ v, unitFollows T (d :: v) = false := fun v => unitFollows_blocked (blocked_cons hd v)
    have hsecond : ∀ v, unitFollows T (e :: v) = false := fun v => unitFollows_blocked (blocked_cons he v)
    simp only [List.cons_append]
    rw [numberAt, numberAt, hfirst, hfirst, hsecond, hsecond]

theorem decimal_toDigits (n : ℕ) : ∀ c ∈ Nat.toDigits 10 n, (T.decimal c).isSome = true := by
  induction n using Nat.strongRecOn with
  | ind n ih =>
    by_cases hn : n < 10
    · intro c hc
      rw [Nat.toDigits_of_lt_base hn, List.mem_singleton] at hc
      rw [hc, T.decimal_digitChar n hn]
      rfl
    · intro c hc
      rw [Nat.toDigits_of_base_le (by decide) (by omega), List.mem_append, List.mem_singleton] at hc
      rcases hc with hc | rfl
      · exact ih (n / 10) (Nat.div_lt_self (by omega) (by decide)) c hc
      · rw [T.decimal_digitChar _ (Nat.mod_lt _ (by decide))]
        rfl

/-- The pattern reads exactly the numbers from 3 to 30. -/
theorem numberAt_toDigits (n : ℕ) (hw : UnitText T w) :
    numberAt T (Nat.toDigits 10 n ++ w) = if 3 ≤ n ∧ n ≤ 30 then some n else none := by
  obtain ⟨x, hx, hnone⟩ := hw.head
  match w, hx with
  | x :: w, rfl =>
  by_cases hsmall : n < 10
  · rw [Nat.toDigits_of_lt_base hsmall, List.cons_append, List.nil_append, numberAt, hw.unit, hnone]
    interval_cases n <;> rfl
  · rw [Nat.toDigits_of_base_le (by decide) (by omega)]
    have hlast := T.decimal_digitChar (n % 10) (Nat.mod_lt _ (by decide))
    by_cases hmiddle : n / 10 < 10
    · have hfirst := unitFollows_blocked (blocked_cons (by rw [hlast]; rfl) (x :: w))
      rw [Nat.toDigits_of_lt_base hmiddle]
      simp only [List.cons_append, List.nil_append, numberAt, hlast, hw.unit, hfirst,
        Nat.digitChar_eq_one, Nat.digitChar_eq_two, Nat.digitChar_eq_three, Nat.digitChar_eq_zero]
      split_ifs <;> simp_all <;> omega
    · rw [Nat.toDigits_of_base_le (by decide) (by omega)]
      have hpenultimate := T.decimal_digitChar (n / 10 % 10) (Nat.mod_lt _ (by decide))
      rw [if_neg (by omega)]
      have hdigits : ∀ c ∈ Nat.toDigits 10 (n / 10 / 10), (T.decimal c).isSome = true :=
        decimal_toDigits _
      match hfront : Nat.toDigits 10 (n / 10 / 10), hdigits with
      | [], _ => exact absurd hfront Nat.toDigits_ne_nil
      | [c], _ =>
        have hone := unitFollows_blocked
          (blocked_cons (by rw [hpenultimate]; rfl) ((n % 10).digitChar :: x :: w))
        have htwo := unitFollows_blocked (blocked_cons (by rw [hlast]; rfl) (x :: w))
        simp [numberAt, hone, htwo, hpenultimate]
      | c :: d :: front, hdigits =>
        have hd := hdigits d (List.mem_cons_of_mem _ (List.mem_cons_self ..))
        have hone : ∀ v, unitFollows T (d :: v) = false := fun v => unitFollows_blocked (blocked_cons hd v)
        have htwo : unitFollows T (front ++ ((n / 10 % 10).digitChar :: (n % 10).digitChar :: x :: w)) =
            false := by
          apply unitFollows_blocked
          intro e he
          cases front with
          | nil =>
            cases he
            rw [hpenultimate]
            rfl
          | cons e' front =>
            cases he
            exact hdigits e (List.mem_cons_of_mem _ (List.mem_cons_of_mem _ (List.mem_cons_self ..)))
        obtain ⟨value, hvalue⟩ := Option.isSome_iff_exists.mp hd
        simp [numberAt, hone, htwo, hvalue]

end QuantAgent.StrategyPreferences
