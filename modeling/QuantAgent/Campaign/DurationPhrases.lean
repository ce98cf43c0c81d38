import QuantAgent.Campaign.PositionCounts

namespace QuantAgent.StrategyPreferences
set_option autoImplicit true

variable {T : CharTables}

/-- The digits of a number and the word for months. -/
def durationPhrase (n : ℕ) : List Char := Nat.toDigits 10 n ++ ['개', '월']

/-- Digits and, at once after them, the word for months. -/
def IsDuration (T : CharTables) (s : List Char) : Prop :=
  ∃ digits rest, (∀ c ∈ digits, (T.decimal c).isSome = true) ∧ s = digits ++ '개' :: '월' :: rest

/-- Whatever the pattern reads in the text is a duration. -/
def OnlyDurations (T : CharTables) (afterDigit : Bool) : List Char → Prop
  | [] => True
  | c :: s => ((positionCountAt T afterDigit (c :: s)).isSome = true → IsDuration T (c :: s)) ∧
      OnlyDurations T (T.decimal c).isSome s

/-- Each word with a blank in front of it. -/
def spaced (words : List (List Char)) : List Char := words.flatMap fun word => ' ' :: word

theorem spaced_cons (word : List Char) (words : List (List Char)) :
    spaced (word :: words) = ' ' :: (word ++ spaced words) := List.flatMap_cons

theorem spaced_append (us vs : List (List Char)) : spaced (us ++ vs) = spaced us ++ spaced vs :=
  List.flatMap_append

theorem spaced_eq (word : List Char) (words : List (List Char)) :
    spaced (word :: words) = ' ' :: joinChars ' ' (word :: words) := by
  induction words generalizing word with
  | nil => exact congrArg (' ' :: ·) (List.append_nil word)
  | cons next words ih =>
    rw [spaced_cons, ih next]
    rfl

theorem numberAt_of_not_digit (h : c ∉ "123456789".toList) (s : List Char) :
    numberAt T (c :: s) = none := by
  have hone : c ∉ "3456789".toList := by
    intro hc
    apply h
    simp at hc ⊢
    tauto
  have htwo : c ≠ '1' ∧ c ≠ '2' ∧ c ≠ '3' := by
    refine ⟨?_, ?_, ?_⟩ <;> rintro rfl <;> exact h (by decide)
  cases s with
  | nil => rfl
  | cons d s =>
    rw [numberAt, if_neg fun hread => hone hread.1]
    cases T.decimal d with
    | none => rfl
    | some e => simp [htwo]

theorem positionCountIn_blank (b : Bool) (s rest : List Char) :
    positionCountIn T b (' ' :: s) rest = positionCountIn T false s rest := by
  have hplace : positionCountAt T b (' ' :: s ++ rest) = none := by
    unfold positionCountAt
    split
    · rfl
    · exact numberAt_of_not_digit (by decide) _
  rw [positionCountIn, hplace, decimal_blank]
  rfl

theorem positionCountIn_spaced (b : Bool) (words : List (List Char)) :
    positionCountIn T b (spaced words) [] = positionCount T (joinChars ' ' words) := by
  cases words with
  | nil => rfl
  | cons word words =>
    rw [spaced_eq, positionCountIn_blank]
    rfl

/-- The places of the first part are read before those of the second. -/
theorem positionCountIn_append (b : Bool) (s t rest : List Char) :
    ∃ b', positionCountIn T b (s ++ t) rest =
      (positionCountIn T b s (t ++ rest)).or (positionCountIn T b' t rest) ∧
      b' = (s.getLast?.map fun c => (T.decimal c).isSome).getD b := by
  induction s generalizing b with
  | nil => exact ⟨b, rfl, rfl⟩
  | cons c s ih =>
    obtain ⟨b', hrest, hlast⟩ := ih (T.decimal c).isSome
    refine ⟨b', ?_, ?_⟩
    · rw [List.cons_append, positionCountIn, positionCountIn, hrest, Option.or_assoc, List.cons_append,
        List.cons_append, List.append_assoc]
    · rw [hlast]
      cases s with
      | nil => rfl
      | cons d s => rw [List.getLast?_cons_cons, List.getLast?_eq_getLast_of_ne_nil (List.cons_ne_nil d s)]; rfl

/-- What follows a blank and starts with a digit does not change what is read before it. -/
theorem positionCountIn_blocked (hw : Blocked T w) (b : Bool) (s : List Char) :
    positionCountIn T b s (' ' :: w) = positionCountIn T b s [] := by
  induction s generalizing b with
  | nil => rfl
  | cons c s ih =>
    rw [positionCountIn, positionCountIn, ih, positionCountAt, positionCountAt, numberAt_append hw,
      List.append_nil]

theorem unitText_month (rest : List Char) : UnitText T ('개' :: '월' :: rest) where
  unit := by
    have hspace : T.isSpace '개' = false := (T.letter '개' (by decide)).1
    have hdigit : T.decimal '월' = none := (T.letter '월' (by decide)).2
    rw [unitFollows, List.dropWhile_cons_of_neg (by rw [hspace]; exact Bool.false_ne_true), unitAt]
    simp [literal, noDigitNext, hdigit]
  head := ⟨'개', rfl, (T.letter '개' (by decide)).2⟩

/-- A duration is read the same way whatever comes after it. -/
theorem numberAt_duration {digits : List Char} (hdigits : ∀ c ∈ digits, (T.decimal c).isSome = true)
    (rest rest' : List Char) :
    numberAt T (digits ++ '개' :: '월' :: rest) = numberAt T (digits ++ '개' :: '월' :: rest') := by
  cases digits with
  | nil =>
    rw [List.nil_append, List.nil_append, numberAt_of_not_digit (by decide),
      numberAt_of_not_digit (by decide)]
  | cons c digits =>
    exact numberAt_digits hdigits (List.cons_ne_nil _ _) (unitText_month rest) (unitText_month rest')

/-- A duration that starts in a text and has a blank after the text ends in the text. -/
theorem IsDuration.of_append {s w : List Char} (h : IsDuration T (s ++ ' ' :: w)) : IsDuration T s := by
  obtain ⟨digits, rest, hdigits, heq⟩ := h
  refine ⟨digits, ?_⟩
  have hno : ' ' ∉ digits ++ ['개', '월'] := by
    intro hmem
    rcases List.mem_append.mp hmem with hmem | hmem
    · have hblank := hdigits _ hmem
      rw [decimal_blank] at hblank
      cases hblank
    · exact absurd hmem (by decide)
  have hassoc : s ++ ' ' :: w = (digits ++ ['개', '월']) ++ rest := by
    rw [heq, List.append_assoc]
    rfl
  rcases List.append_eq_append_iff.mp hassoc with ⟨more, hmore, htail⟩ | ⟨more, hmore, -⟩
  · cases more with
    | nil =>
      rw [List.append_nil] at hmore
      exact ⟨[], hdigits, hmore.symm⟩
    | cons c more =>
      obtain ⟨rfl, -⟩ := List.cons.inj htail
      exact absurd (by rw [hmore]; exact List.mem_append_right _ (List.mem_cons_self ..)) hno
  · refine ⟨more, hdigits, ?_⟩
    rw [hmore, List.append_assoc]
    rfl

/-- Where only durations are read, a word boundary cuts nothing that is read. -/
theorem positionCountAt_boundary {c : Char} {s w : List Char} {b : Bool}
    (h : (positionCountAt T b (c :: s ++ ' ' :: w)).isSome = true → IsDuration T (c :: s ++ ' ' :: w)) :
    positionCountAt T b (c :: s ++ ' ' :: w) = positionCountAt T b (c :: s) := by
  unfold positionCountAt at h ⊢
  cases b with
  | true => rfl
  | false =>
    cases hread : numberAt T (c :: s) with
    | some k => exact numberAt_mono hread w
    | none =>
      cases hacross : numberAt T (c :: s ++ ' ' :: w) with
      | none => rfl
      | some k =>
        obtain ⟨digits, rest, hdigits, heq⟩ := (h (by rw [if_neg Bool.false_ne_true, hacross]; rfl)).of_append
        rw [heq] at hread
        rw [heq, List.append_assoc, List.cons_append, List.cons_append,
          numberAt_duration hdigits _ rest, hread] at hacross
        cases hacross

theorem positionCountIn_boundary {s w : List Char} (b : Bool) (h : OnlyDurations T b (s ++ ' ' :: w)) :
    positionCountIn T b s (' ' :: w) = positionCountIn T b s [] := by
  induction s generalizing b with
  | nil => rfl
  | cons c s ih =>
    rw [positionCountIn, positionCountIn, ih _ h.2, positionCountAt_boundary h.1, List.append_nil]

theorem onlyDurations_spaced (b : Bool) (words : List (List Char))
    (h : OnlyDurations T false (joinChars ' ' words)) : OnlyDurations T b (spaced words) := by
  cases words with
  | nil => trivial
  | cons word words =>
    rw [spaced_eq]
    refine ⟨fun hread => ?_, ?_⟩
    · unfold positionCountAt at hread
      split at hread
      · cases hread
      · rw [numberAt_of_not_digit (by decide)] at hread
        cases hread
    · rw [decimal_blank]
      exact h

/-- Without the phrase, the count is read from the words before it, and else from those after it. -/
theorem positionCount_apart {us vs : List (List Char)}
    (h : OnlyDurations T false (joinChars ' ' (us ++ vs))) :
    positionCount T (joinChars ' ' (us ++ vs)) =
      (positionCount T (joinChars ' ' us)).or (positionCount T (joinChars ' ' vs)) := by
  have hspaced := onlyDurations_spaced false _ h
  rw [spaced_append] at hspaced
  obtain ⟨b, hparts, -⟩ := positionCountIn_append (T := T) false (spaced us) (spaced vs) []
  rw [← positionCountIn_spaced false, spaced_append, hparts, positionCountIn_spaced b vs,
    ← positionCountIn_spaced false us, List.append_nil]
  congr 1
  cases vs with
  | nil => rfl
  | cons word vs =>
    rw [spaced_cons] at hspaced ⊢
    exact positionCountIn_boundary false hspaced

/-- The pattern reads a phrase as a count or not at all, and goes on behind it. -/
theorem positionCountIn_durationPhrase (n : ℕ) (s : List Char) :
    positionCountIn T false (durationPhrase n ++ s) [] =
      (if 3 ≤ n ∧ n ≤ 30 then some n else none).or (positionCountIn T false s []) := by
  have hmonth : ∀ b, positionCountIn T b ('개' :: '월' :: s) [] = positionCountIn T false s [] := by
    intro b
    have hplace : ∀ b c r, c = '개' ∨ c = '월' → positionCountAt T b (c :: r) = none := by
      intro b c r hc
      unfold positionCountAt
      split
      · rfl
      · rcases hc with rfl | rfl <;> exact numberAt_of_not_digit (by decide) _
    rw [positionCountIn, positionCountIn, List.cons_append, List.cons_append,
      hplace b '개' _ (.inl rfl), hplace _ '월' _ (.inr rfl), (T.letter '월' (by decide)).2]
    rfl
  have hdigits : ∀ digits : List Char, (∀ c ∈ digits, (T.decimal c).isSome = true) →
      positionCountIn T true (digits ++ '개' :: '월' :: s) [] = positionCountIn T false s [] := by
    intro digits
    induction digits with
    | nil =>
      intro _
      exact hmonth true
    | cons c digits ih =>
      intro hall
      rw [List.cons_append, positionCountIn, hall c (List.mem_cons_self ..),
        ih fun d hd => hall d (List.mem_cons_of_mem _ hd)]
      rfl
  have hread := numberAt_toDigits n (unitText_month (T := T) s)
  have hall := decimal_toDigits (T := T) n
  rw [durationPhrase, List.append_assoc, ← hread]
  match hform : Nat.toDigits 10 n with
  | [] => exact absurd hform Nat.toDigits_ne_nil
  | c :: digits =>
    rw [hform] at hall
    have hrest := hdigits digits fun d hd => hall d (List.mem_cons_of_mem _ hd)
    have hassoc : c :: digits ++ (['개', '월'] ++ s) = c :: (digits ++ '개' :: '월' :: s) := rfl
    rw [hassoc, positionCountIn, hall c (List.mem_cons_self ..), hrest, List.append_nil]
    rfl

/-- With the phrase, it is read between the words before it and those after it. -/
theorem positionCount_phrase (us vs : List (List Char)) (n : ℕ) :
    positionCount T (joinChars ' ' (us ++ durationPhrase n :: vs)) =
      (positionCount T (joinChars ' ' us)).or
        ((if 3 ≤ n ∧ n ≤ 30 then some n else none).or (positionCount T (joinChars ' ' vs))) := by
  have hblocked : Blocked T (durationPhrase n ++ spaced vs) := by
    intro c hc
    apply decimal_toDigits n c
    rw [durationPhrase, List.append_assoc] at hc
    match hform : Nat.toDigits 10 n with
    | [] => exact absurd hform Nat.toDigits_ne_nil
    | d :: digits =>
      rw [hform] at hc
      cases hc
      exact List.mem_cons_self ..
  obtain ⟨b, hparts, -⟩ := positionCountIn_append (T := T) false (spaced us)
    (spaced (durationPhrase n :: vs)) []
  rw [← positionCountIn_spaced false, spaced_append, hparts, spaced_cons, List.append_nil,
    positionCountIn_blocked hblocked, positionCountIn_blank, positionCountIn_durationPhrase,
    positionCountIn_spaced, positionCountIn_spaced]

end QuantAgent.StrategyPreferences
