import QuantAgent.Lib.Json

namespace QuantAgent.Json
set_option autoImplicit true

section Strings

/-- The code points of texts: what a surrogate stands for is not one. -/
def Scalar (n : ℕ) : Prop := n < 0xD800 ∨ 0xE000 ≤ n ∧ n < 0x110000

theorem scalar_of_mem_codePoints (h : n ∈ codePoints s) : Scalar n := by
  obtain ⟨c, -, rfl⟩ := List.mem_map.mp h
  have hvalid : c.toNat.isValidChar := c.valid
  unfold Nat.isValidChar at hvalid
  unfold Scalar
  omega

theorem hexValue?_hexDigit : ∀ n < 16, hexValue? (hexDigit n) = some n := by decide

theorem hexFour?_digits (h : unit < 0x10000) :
    hexFour? (hexDigit (unit / 4096 % 16)) (hexDigit (unit / 256 % 16)) (hexDigit (unit / 16 % 16))
      (hexDigit (unit % 16)) = some unit := by
  have hvalue : (((unit / 4096 % 16) * 16 + unit / 256 % 16) * 16 + unit / 16 % 16) * 16 + unit % 16 =
      unit := by omega
  simp only [hexFour?, hexValue?_hexDigit _ (Nat.mod_lt _ (by decide)), Option.bind_eq_bind,
    Option.bind_some, Option.pure_def, hvalue]

/-- What a scan of units gives when more units were read before. -/
def before (units : List ℕ) (r : List ℕ × List Char) : List ℕ × List Char := (units ++ r.1, r.2)

theorem scanUnits_escapeUnit (h : unit < 0x10000) (rest : List Char) :
    scanUnits (escapeUnit unit ++ rest) = (scanUnits rest).map (before [unit]) := by
  simp only [escapeUnit, List.cons_append, List.nil_append]
  rw [scanUnits, hexFour?_digits h]
  cases scanUnits rest <;> rfl

theorem scanUnits_escaped (hu : c ≠ 'u') (h : escaped? c = some unit) (rest : List Char) :
    scanUnits ('\\' :: c :: rest) = (scanUnits rest).map (before [unit]) := by
  rw [scanUnits.eq_def]
  split
  · rename_i heq
    cases heq
  · rename_i heq
    cases heq
  · rename_i heq
    cases heq
    exact absurd rfl hu
  · rename_i heq
    cases heq
    rw [h]
    cases scanUnits rest <;> rfl
  · rename_i hnot heq
    cases heq
    exact absurd rfl (hnot _ _ rfl)

theorem scanUnits_plain (hquote : c ≠ '"') (hslash : c ≠ '\\') (hc : 32 ≤ c.toNat) (rest : List Char) :
    scanUnits (c :: rest) = (scanUnits rest).map (before [c.toNat]) := by
  rw [scanUnits.eq_def]
  split
  · rename_i heq
    cases heq
  · rename_i heq
    cases heq
    exact absurd rfl hquote
  · rename_i heq
    cases heq
    exact absurd rfl hslash
  · rename_i heq
    cases heq
    exact absurd rfl hslash
  · rename_i heq
    cases heq
    rw [if_neg (by simp only [hslash, false_or]; omega)]
    cases scanUnits rest <;> rfl

theorem unitsOf_lt (h : Scalar n) : ∀ unit ∈ unitsOf n, unit < 0x10000 := by
  unfold Scalar at h
  intro unit hunit
  unfold unitsOf at hunit
  split at hunit
  · rw [List.mem_singleton.mp hunit]
    assumption
  · simp only [List.mem_cons, List.not_mem_nil, or_false] at hunit
    omega

theorem scanUnits_flatMap (units : List ℕ) (h : ∀ unit ∈ units, unit < 0x10000) (rest : List Char) :
    scanUnits (units.flatMap escapeUnit ++ rest) = (scanUnits rest).map (before units) := by
  induction units with
  | nil =>
    rw [List.flatMap_nil, List.nil_append]
    cases scanUnits rest <;> rfl
  | cons unit units ih =>
    obtain ⟨hunit, hunits⟩ := List.forall_mem_cons.mp h
    rw [List.flatMap_cons, List.append_assoc, scanUnits_escapeUnit hunit, ih hunits, Option.map_map]
    rfl

theorem scanUnits_escape (h : Scalar n) (rest : List Char) :
    scanUnits (escape true n ++ rest) = (scanUnits rest).map (before (unitsOf n)) := by
  have hsmall : n < 0x10000 → unitsOf n = [n] := fun hn => if_pos hn
  unfold escape
  split
  · rename_i hn
    rw [hsmall (by omega), hn]
    exact scanUnits_escaped (by decide) rfl rest
  split
  · rename_i hn
    rw [hsmall (by omega), hn]
    exact scanUnits_escaped (by decide) rfl rest
  split
  · rename_i hn
    rw [hsmall (by omega), hn]
    exact scanUnits_escaped (by decide) rfl rest
  split
  · rename_i hn
    rw [hsmall (by omega), hn]
    exact scanUnits_escaped (by decide) rfl rest
  split
  · rename_i hn
    rw [hsmall (by omega), hn]
    exact scanUnits_escaped (by decide) rfl rest
  split
  · rename_i hn
    rw [hsmall (by omega), hn]
    exact scanUnits_escaped (by decide) rfl rest
  split
  · rename_i hn
    rw [hsmall (by omega), hn]
    exact scanUnits_escaped (by decide) rfl rest
  split
  · rename_i hquote hslash _ _ _ _ _ hn
    simp only [Bool.not_true, Bool.false_eq_true, or_false] at hn
    have hascii : ∀ n < 127, (Char.ofNat n).toNat = n := by decide
    have hvalue := hascii n (by omega)
    rw [hsmall (by omega)]
    have hplain := scanUnits_plain (c := Char.ofNat n) ?_ ?_ (by rw [hvalue]; omega) rest
    · rw [hvalue] at hplain
      exact hplain
    · intro heq
      rw [heq] at hvalue
      exact hquote hvalue.symm
    · intro heq
      rw [heq] at hvalue
      exact hslash hvalue.symm
  · exact scanUnits_flatMap _ (unitsOf_lt h) rest

theorem scanUnits_dump (s : CodePoints) (h : ∀ n ∈ s, Scalar n) (rest : List Char) :
    scanUnits (s.flatMap (escape true) ++ '"' :: rest) = some (s.flatMap unitsOf, rest) := by
  induction s with
  | nil => rfl
  | cons n s ih =>
    obtain ⟨hn, hs⟩ := List.forall_mem_cons.mp h
    rw [List.flatMap_cons, List.append_assoc, scanUnits_escape hn, ih hs]
    rfl

theorem joinSurrogates_cons (h : isHigh unit = false) (units : List ℕ) :
    joinSurrogates (unit :: units) = unit :: joinSurrogates units := by
  cases units with
  | nil => rfl
  | cons low units =>
    rw [joinSurrogates, h]
    rfl

theorem joinSurrogates_units (s : CodePoints) (h : ∀ n ∈ s, Scalar n) :
    joinSurrogates (s.flatMap unitsOf) = s := by
  induction s with
  | nil => rfl
  | cons n s ih =>
    obtain ⟨hn, hs⟩ := List.forall_mem_cons.mp h
    unfold Scalar at hn
    rw [List.flatMap_cons, unitsOf]
    split
    · rw [List.singleton_append, joinSurrogates_cons, ih hs]
      simp only [isHigh, Bool.and_eq_false_iff, decide_eq_false_iff_not]
      omega
    · have hhigh : isHigh (0xD800 + (n - 0x10000) / 0x400) = true := by
        simp only [isHigh, Bool.and_eq_true, decide_eq_true_eq]
        omega
      have hlow : isLow (0xDC00 + (n - 0x10000) % 0x400) = true := by
        simp only [isLow, Bool.and_eq_true, decide_eq_true_eq]
        omega
      have hvalue : 0x10000 + (0xD800 + (n - 0x10000) / 0x400 - 0xD800) * 0x400 +
          (0xDC00 + (n - 0x10000) % 0x400 - 0xDC00) = n := by omega
      rw [List.cons_append, List.cons_append, List.nil_append, joinSurrogates, hhigh, hlow,
        Bool.and_true, if_pos rfl, ih hs, hvalue]

theorem scanString_dump (s : CodePoints) (h : ∀ n ∈ s, Scalar n) (rest : List Char) :
    scanString (s.flatMap (escape true) ++ '"' :: rest) = some (s, rest) := by
  rw [scanString, scanUnits_dump s h, Option.map_some, joinSurrogates_units s h]

end Strings

section Members

/-- The values that the round trip is about: texts, and integers that `int` reads back. -/
inductive Flat : Json → Prop where
  | str (h : ∀ n ∈ s, Scalar n) : Flat (.str s)
  | int (n : ℕ) (h : n < 10 ^ intMaxStrDigits) : Flat (.int n)

/-- What ends a value in a dump. -/
def Ends (c : Char) : Prop := c = ',' ∨ c = '}'

theorem toDigits_ne_zero (h : 0 < n) : Nat.toDigits 10 n ≠ '0' :: ds := by
  induction n using Nat.strong_induction_on generalizing ds with
  | _ n ih =>
    by_cases hn : n < 10
    · have hdigit : ∀ m < 10, 0 < m → m.digitChar ≠ '0' := by decide
      rw [Nat.toDigits_of_lt_base hn]
      intro heq
      exact hdigit n hn h (List.cons.inj heq).1
    · rw [Nat.toDigits_of_base_le (by decide) (by omega)]
      cases hfront : Nat.toDigits 10 (n / 10) with
      | nil => exact absurd hfront Nat.toDigits_ne_nil
      | cons d front =>
        intro heq
        rw [List.cons_append] at heq
        obtain ⟨rfl, -⟩ := List.cons.inj heq
        exact ih (n / 10) (by omega) (by omega) hfront

theorem isDigit_of_ends (hc : Ends c) : c.isDigit = false := by
  rcases hc with rfl | rfl
  · rfl
  · rfl

theorem scanDigits_toDigits (hc : Ends c) (n : ℕ) (rest : List Char) :
    scanDigits (Nat.toDigits 10 n ++ c :: rest) = some (Nat.toDigits 10 n, c :: rest) := by
  have hdigit := isDigit_of_ends hc
  have hall : ∀ d ∈ Nat.toDigits 10 n, d.isDigit := fun d hd =>
    Nat.isDigit_of_mem_toDigits (by decide) (by decide) hd
  by_cases hn : n = 0
  · subst hn
    rfl
  · cases hdigits : Nat.toDigits 10 n with
    | nil => exact absurd hdigits Nat.toDigits_ne_nil
    | cons d ds =>
      rw [hdigits] at hall
      obtain ⟨hd, hds⟩ := List.forall_mem_cons.mp hall
      have hzero : d ≠ '0' := by
        rintro rfl
        exact toDigits_ne_zero (by omega) hdigits
      rw [List.cons_append, scanDigits, if_neg hzero, if_pos hd, List.takeWhile_append_of_pos hds,
        List.dropWhile_append_of_pos hds, List.takeWhile_cons_of_neg (by simp [hdigit]),
        List.dropWhile_cons_of_neg (by simp [hdigit]), List.append_nil]

theorem scanFraction_ends (hc : Ends c) (rest : List Char) :
    scanFraction (c :: rest) = ([], c :: rest) := by
  rcases hc with rfl | rfl
  · rfl
  · rfl

theorem scanExponent_ends (hc : Ends c) (rest : List Char) :
    scanExponent (c :: rest) = ([], c :: rest) := by
  rcases hc with rfl | rfl
  · cases rest <;> rfl
  · cases rest <;> rfl

theorem scanUnsigned_toDigits (hc : Ends c) (hn : n < 10 ^ intMaxStrDigits) (rest : List Char) :
    scanUnsigned false (Nat.toDigits 10 n ++ c :: rest) = some (.int n, c :: rest) := by
  have hlength : (Nat.toDigits 10 n).length ≤ intMaxStrDigits :=
    (Nat.length_toDigits_le_iff (by decide) (by decide)).mpr hn
  have hvalue := digits?_toString n
  rw [Nat.toString_eq_repr, Nat.toList_repr] at hvalue
  rw [scanUnsigned, scanDigits_toDigits hc]
  simp only [scanFraction_ends hc, scanExponent_ends hc, and_self, if_true]
  rw [readInt, if_pos hlength, hvalue]
  rfl

theorem scanAtom_digit {d : Char} (hd : d.isDigit) (rest : List Char) :
    scanAtom (d :: rest) = scanUnsigned false (d :: rest) := by
  unfold scanAtom
  split <;> rename_i heq
  · cases heq
    cases hd
  · cases heq
    cases hd
  · cases heq
    cases hd
  · cases heq
    cases hd
  · cases heq
    cases hd
  · cases heq
    cases hd
  · cases heq
    cases hd
  · rfl

theorem scanOnce_flat (h : Flat value) (hc : Ends c) (fuel : ℕ) (rest : List Char) :
    scanOnce (fuel + 1) (dumps true value ++ c :: rest) = .ofOption (some (value, c :: rest)) := by
  cases h with
  | @str s hs =>
    rw [dumps, dumpString, List.append_assoc, List.cons_append, scanOnce]
    rw [List.singleton_append, scanString_dump s hs]
    rfl
  | int n hn =>
    have hdump : dumps true (.int n) = Nat.toDigits 10 n := by
      rw [dumps, dumpInt, if_neg (by omega), Int.natAbs_natCast]
    rw [hdump]
    have hscan := scanUnsigned_toDigits hc hn rest
    cases hdigits : Nat.toDigits 10 n with
    | nil => exact absurd hdigits Nat.toDigits_ne_nil
    | cons d ds =>
      have hd : d.isDigit := Nat.isDigit_of_mem_toDigits (b := 10) (n := n) (by decide) (by decide)
        (hdigits ▸ List.mem_cons_self ..)
      rw [hdigits] at hscan
      rw [List.cons_append, scanOnce]
      · rw [scanAtom_digit hd, ← List.cons_append, hscan]
      · intro rest' heq
        cases heq
        cases hd
      · intro rest' heq
        cases heq
        cases hd
      · intro rest' heq
        cases heq
        cases hd

/-- The text of the members, one after another. -/
def memberTexts (members : List (CodePoints × Json)) : List Char :=
  commas (members.map fun m => dumpString true m.1 ++ ':' :: dumps true m.2)

theorem dumpMembers_eq (members : List (CodePoints × Json)) : dumpMembers true members =
    members.map fun m => (m.1, dumpString true m.1 ++ ':' :: dumps true m.2) := by
  induction members with
  | nil => rfl
  | cons m members ih =>
    obtain ⟨key, value⟩ := m
    rw [dumpMembers, ih]
    rfl

theorem dumps_obj {members : List (CodePoints × Json)}
    (h : (members.map Prod.fst).Pairwise fun a b => ¬ b < a) :
    dumps true (.obj members) = '{' :: memberTexts members ++ ['}'] := by
  have hsorted : (dumpMembers true members).Pairwise fun a b => decide (b.1 < a.1) = false := by
    rw [dumpMembers_eq, List.pairwise_map]
    exact (List.pairwise_map.mp h).imp fun hab => decide_eq_false hab
  rw [dumps, pySorted_eq_self hsorted, dumpMembers_eq, List.map_map]
  rfl

/-- A text on which `skipSpace` skips nothing. -/
theorem skipSpace_dumpString (s : CodePoints) (rest : List Char) :
    skipSpace (dumpString true s ++ rest) = dumpString true s ++ rest := rfl

theorem skipSpace_flat (h : Flat value) (rest : List Char) :
    skipSpace (dumps true value ++ rest) = dumps true value ++ rest := by
  cases h with
  | str hs =>
    rw [dumps]
    rfl
  | int n hn =>
    rw [dumps, dumpInt, if_neg (by omega), Int.natAbs_natCast]
    cases hdigits : Nat.toDigits 10 n with
    | nil => exact absurd hdigits Nat.toDigits_ne_nil
    | cons d ds =>
      have hd : d.isDigit := Nat.isDigit_of_mem_toDigits (b := 10) (n := n) (by decide) (by decide)
        (hdigits ▸ List.mem_cons_self ..)
      rw [List.cons_append, skipSpace, List.dropWhile_cons_of_neg]
      simp only [Bool.or_eq_true, beq_iff_eq, not_or]
      refine ⟨⟨⟨?_, ?_⟩, ?_⟩, ?_⟩
      · rintro rfl
        cases hd
      · rintro rfl
        cases hd
      · rintro rfl
        cases hd
      · rintro rfl
        cases hd

/-- A member whose text ends well is read, and the scan goes on behind it. -/
theorem scanMembers_one {key : CodePoints} {value : Json} {c : Char} (hkey : ∀ n ∈ key, Scalar n)
    (hvalue : Flat value) (hc : Ends c) (tail : List Char) : scanMembers (fuel + 1 + 1) seen
      (dumpString true key ++ ':' :: dumps true value ++ c :: tail) =
        match skipSpace (c :: tail) with
        | '}' :: rest => .ofOption (some (.obj (seen ++ [(key, value)]), rest))
        | ',' :: rest => scanMembers (fuel + 1) (seen ++ [(key, value)]) (skipSpace rest)
        | _ => .fail := by
  have htext : dumpString true key ++ ':' :: dumps true value ++ c :: tail =
      '"' :: (key.flatMap (escape true) ++ '"' :: (':' :: (dumps true value ++ c :: tail))) := by
    simp [dumpString]
  rw [htext, scanMembers, scanString_dump _ hkey, Scanned.andThen_ofOption_some]
  change (scanOnce (fuel + 1) (skipSpace (dumps true value ++ c :: tail))).andThen _ = _
  rw [skipSpace_flat hvalue, scanOnce_flat hvalue hc]
  exact Scanned.andThen_ofOption_some _ _

theorem scanMembers_flat {members : List (CodePoints × Json)} (hne : members ≠ [])
    (h : ∀ m ∈ members, (∀ n ∈ m.1, Scalar n) ∧ Flat m.2) (hfuel : 2 * members.length ≤ fuel)
    (seen : List (CodePoints × Json)) (rest : List Char) :
    scanMembers fuel seen (memberTexts members ++ '}' :: rest) =
      .ofOption (some (.obj (seen ++ members), rest)) := by
  induction members generalizing fuel seen with
  | nil => exact absurd rfl hne
  | cons m members ih =>
    obtain ⟨⟨hkey, hvalue⟩, hmembers⟩ := List.forall_mem_cons.mp h
    obtain ⟨fuel, rfl⟩ : ∃ k, fuel = k + 1 + 1 := ⟨fuel - 2, by rw [List.length_cons] at hfuel; omega⟩
    cases members with
    | nil => exact scanMembers_one hkey hvalue (.inr rfl) rest
    | cons m' members =>
      have htext : memberTexts (m :: m' :: members) ++ '}' :: rest =
          dumpString true m.1 ++ ':' :: dumps true m.2 ++ ',' :: (memberTexts (m' :: members) ++ '}' :: rest) := by
        simp [memberTexts, commas]
      rw [htext, scanMembers_one hkey hvalue (.inl rfl)]
      have hskip : skipSpace (memberTexts (m' :: members) ++ '}' :: rest) =
          memberTexts (m' :: members) ++ '}' :: rest := by
        cases members <;> rfl
      change scanMembers (fuel + 1) (seen ++ [(m.1, m.2)])
        (skipSpace (memberTexts (m' :: members) ++ '}' :: rest)) = _
      have hrest : 2 * (m' :: members).length ≤ fuel + 1 := by
        simp only [List.length_cons] at hfuel ⊢
        omega
      rw [hskip, ih (List.cons_ne_nil m' members) hmembers hrest]
      simp

theorem length_le_memberTexts (members : List (CodePoints × Json)) :
    members.length ≤ (memberTexts members).length := by
  induction members with
  | nil => exact Nat.zero_le _
  | cons m members ih =>
    cases members with
    | nil => simp [memberTexts, commas, dumpString]
    | cons m' members =>
      have htext : memberTexts (m :: m' :: members) =
          dumpString true m.1 ++ ':' :: dumps true m.2 ++ ',' :: memberTexts (m' :: members) := rfl
      rw [htext, List.length_append]
      simp only [List.length_cons] at ih ⊢
      omega

theorem scanOnce_object (h : ∀ rest, skipSpace text ≠ '}' :: rest) (fuel : ℕ) :
    scanOnce (fuel + 1) ('{' :: text) = (scanMembers fuel [] (skipSpace text)).nested := by
  rw [scanOnce]
  split
  · rename_i rest heq
    exact absurd heq (h rest)
  · rfl

theorem scanOnce_array (h : ∀ rest, skipSpace text ≠ ']' :: rest) (fuel : ℕ) :
    scanOnce (fuel + 1) ('[' :: text) = (scanItems fuel [] (skipSpace text)).nested := by
  rw [scanOnce]
  split
  · rename_i rest heq
    exact absurd heq (h rest)
  · rfl

/-- An object of texts and integers is read back as it was written. -/
theorem scan_dumps {members : List (CodePoints × Json)} (hne : members ≠ [])
    (h : ∀ m ∈ members, (∀ n ∈ m.1, Scalar n) ∧ Flat m.2)
    (hsorted : (members.map Prod.fst).Pairwise fun a b => ¬ b < a) :
    scan (dumps true (.obj members)) = ⟨1, some (.obj members, [])⟩ := by
  rw [dumps_obj hsorted, scan]
  have hlength := length_le_memberTexts members
  have hfuel : 2 * members.length ≤ 2 * ('{' :: memberTexts members ++ ['}']).length := by
    rw [List.length_append, List.length_cons]
    omega
  have hskip : skipSpace (memberTexts members ++ ['}']) = memberTexts members ++ ['}'] ∧
      ∀ rest, memberTexts members ++ ['}'] ≠ '}' :: rest := by
    cases members with
    | nil => exact absurd rfl hne
    | cons m members =>
      cases members with
      | nil => exact ⟨rfl, fun _ => by simp [memberTexts, commas, dumpString]⟩
      | cons m' members => exact ⟨rfl, fun _ => by simp [memberTexts, commas, dumpString]⟩
  change scanOnce (2 * _ + 1) ('{' :: (memberTexts members ++ ['}'])) = _
  rw [scanOnce_object (fun rest => hskip.1.symm ▸ hskip.2 rest), hskip.1, scanMembers_flat hne h hfuel]
  rfl

end Members

section Nesting

/-- Every bracket takes the scan one level down. -/
theorem scanOnce_brackets (n : ℕ) : scanOnce (2 * n + 1) (List.replicate n '[') = ⟨n, none⟩ := by
  induction n with
  | zero => rfl
  | succ n ih =>
    have hskip : skipSpace (List.replicate n '[') = List.replicate n '[' ∧
        ∀ rest, List.replicate n '[' ≠ ']' :: rest := by
      cases n with
      | zero => exact ⟨rfl, nofun⟩
      | succ n => exact ⟨rfl, fun rest h => nomatch (List.cons.inj h).1⟩
    rw [List.replicate_succ, scanOnce_array (fun rest => hskip.1.symm ▸ hskip.2 rest), hskip.1,
      Nat.mul_succ, scanItems, ih]
    rfl

theorem scan_brackets (n : ℕ) : scan (List.replicate n '[') = ⟨n, none⟩ := by
  have hskip : skipSpace (List.replicate n '[') = List.replicate n '[' := by
    cases n <;> rfl
  rw [scan, hskip, List.length_replicate, scanOnce_brackets]

end Nesting

section Fuel

theorem length_skipSpace_le (text : List Char) : (skipSpace text).length ≤ text.length :=
  (List.dropWhile_sublist _).length_le

/-- Two readers in a row, the second of which leaves less than it was given. -/
theorem length_of_bind {x : Option ℕ} {next : Option (List ℕ × List Char)}
    (ih : ∀ units rest, next = some (units, rest) → rest.length < n)
    (h : (do let unit ← x; let (units, rest) ← next; pure (unit :: units, rest)) = some (units, rest)) :
    rest.length < n := by
  obtain ⟨unit, -, h⟩ := Option.bind_eq_some_iff.mp h
  obtain ⟨⟨units', rest'⟩, hrest, h⟩ := Option.bind_eq_some_iff.mp h
  obtain ⟨-, rfl⟩ := Prod.mk.inj (Option.some.inj h)
  exact ih units' rest' hrest

theorem scanUnits_length : ∀ units rest, scanUnits text = some (units, rest) →
    rest.length < text.length := by
  induction text using scanUnits.induct with
  | case1 => exact nofun
  | case2 tail =>
    intro units rest h
    obtain ⟨-, rfl⟩ := Prod.mk.inj (Option.some.inj h)
    exact Nat.lt_succ_self _
  | case3 a b c d tail ih =>
    intro units rest h
    rw [scanUnits] at h
    have hlt := length_of_bind ih h
    simp only [List.length_cons]
    omega
  | case4 c tail hu ih =>
    intro units rest h
    rw [scanUnits.eq_4 _ _ hu] at h
    have hlt := length_of_bind ih h
    simp only [List.length_cons]
    omega
  | case5 c tail hquote hu hslash hbad =>
    intro units rest h
    rw [scanUnits.eq_5 _ _ hquote hu hslash, if_pos hbad] at h
    cases h
  | case6 c tail hquote hu hslash hgood ih =>
    intro units rest h
    rw [scanUnits.eq_5 _ _ hquote hu hslash, if_neg hgood] at h
    obtain ⟨⟨units', rest'⟩, hrest, h⟩ := Option.bind_eq_some_iff.mp h
    obtain ⟨-, rfl⟩ := Prod.mk.inj (Option.some.inj h)
    have hlt := ih units' rest' hrest
    rw [List.length_cons]
    omega

theorem scanString_length (h : scanString text = some (s, rest)) : rest.length < text.length := by
  obtain ⟨⟨units, rest'⟩, hunits, h⟩ := Option.map_eq_some_iff.mp h
  obtain ⟨-, rfl⟩ := Prod.mk.inj h
  exact scanUnits_length units rest' hunits

theorem scanFraction_length (text : List Char) : (scanFraction text).2.length ≤ text.length := by
  unfold scanFraction
  split
  · split
    · have hdrop := (List.dropWhile_sublist (l := ‹List Char›) Char.isDigit).length_le
      simp only [List.length_cons]
      omega
    · exact le_rfl
  · exact le_rfl

example : (scanFraction ['.', '5', ',']).2 = [','] := by decide +kernel

theorem scanExponentDigits_length (hrest : rest.length ≤ text.length) :
    (scanExponentDigits mark text rest).2.length ≤ text.length := by
  unfold scanExponentDigits
  split
  · exact le_rfl
  · exact (List.dropWhile_sublist _).length_le.trans hrest

theorem scanExponent_length (text : List Char) : (scanExponent text).2.length ≤ text.length := by
  unfold scanExponent
  split
  · split
    · split
      · exact scanExponentDigits_length (by simp only [List.length_cons]; omega)
      · exact scanExponentDigits_length (by simp only [List.length_cons]; omega)
    · exact le_rfl
  · exact le_rfl

theorem scanDigits_length (h : scanDigits text = some (digits, rest)) : rest.length < text.length := by
  cases text with
  | nil => cases h
  | cons c tail =>
    rw [scanDigits] at h
    split at h
    · obtain ⟨-, rfl⟩ := Prod.mk.inj (Option.some.inj h)
      exact Nat.lt_succ_self _
    · split at h
      · obtain ⟨-, rfl⟩ := Prod.mk.inj (Option.some.inj h)
        exact Nat.lt_succ_of_le (List.dropWhile_sublist _).length_le
      · cases h

theorem scanUnsigned_length (h : scanUnsigned negative text = some (value, rest)) :
    rest.length < text.length := by
  unfold scanUnsigned at h
  split at h
  · cases h
  · rename_i digits rest' hd
    have hlt := scanDigits_length hd
    simp only at h
    by_cases hint : (scanFraction rest').1 = [] ∧ (scanExponent (scanFraction rest').2).1 = []
    · rw [if_pos hint] at h
      obtain ⟨_, -, hv⟩ := Option.map_eq_some_iff.mp h
      obtain ⟨-, rfl⟩ := Prod.mk.inj hv
      exact hlt
    · rw [if_neg hint] at h
      obtain ⟨-, rfl⟩ := Prod.mk.inj (Option.some.inj h)
      exact ((scanExponent_length _).trans (scanFraction_length _)).trans_lt hlt

theorem scanAtom_length (h : scanAtom text = some (value, rest)) : rest.length < text.length := by
  unfold scanAtom at h
  split at h
  · obtain ⟨-, rfl⟩ := Prod.mk.inj (Option.some.inj h)
    simp only [List.length_cons]
    omega
  · obtain ⟨-, rfl⟩ := Prod.mk.inj (Option.some.inj h)
    simp only [List.length_cons]
    omega
  · obtain ⟨-, rfl⟩ := Prod.mk.inj (Option.some.inj h)
    simp only [List.length_cons]
    omega
  · obtain ⟨-, rfl⟩ := Prod.mk.inj (Option.some.inj h)
    simp only [List.length_cons]
    omega
  · obtain ⟨-, rfl⟩ := Prod.mk.inj (Option.some.inj h)
    simp only [List.length_cons]
    omega
  · obtain ⟨-, rfl⟩ := Prod.mk.inj (Option.some.inj h)
    simp only [List.length_cons]
    omega
  · exact (scanUnsigned_length h).trans (Nat.lt_succ_self _)
  · exact scanUnsigned_length h

/-- What is found leaves less text than there was. -/
def Shorter (n : ℕ) (x : Scanned (α × List Char)) : Prop :=
  ∀ a rest, x.found = some (a, rest) → rest.length < n

theorem Shorter.fail : Shorter n (Scanned.fail : Scanned (α × List Char)) := nofun

theorem Shorter.andThen {x : Scanned α} {f : α → Scanned (β × List Char)}
    (h : ∀ a, x.found = some a → Shorter n (f a)) : Shorter n (x.andThen f) := by
  intro b rest hfound
  unfold Scanned.andThen at hfound
  split at hfound
  · cases hfound
  · rename_i a ha
    exact h a ha b rest hfound

theorem Shorter.mono {x : Scanned (α × List Char)} (h : Shorter m x) (hmn : m ≤ n) : Shorter n x :=
  fun a rest hfound => (h a rest hfound).trans_le hmn

theorem Shorter.nested {x : Scanned (α × List Char)} (h : Shorter n x) : Shorter n x.nested := h

theorem Shorter.ofOption {x : Option (α × List Char)}
    (h : ∀ a rest, x = some (a, rest) → rest.length < n) : Shorter n (Scanned.ofOption x) := h

theorem length_of_skipSpace (h : skipSpace text = c :: rest) : rest.length < text.length := by
  have hle := length_skipSpace_le text
  rw [h, List.length_cons] at hle
  omega

theorem shorter_scan (fuel : ℕ) :
    (∀ text, Shorter text.length (scanOnce fuel text)) ∧
      (∀ seen text, Shorter text.length (scanMembers fuel seen text)) ∧
      ∀ seen text, Shorter text.length (scanItems fuel seen text) := by
  induction fuel with
  | zero => exact ⟨fun _ => nofun, fun _ _ => nofun, fun _ _ => nofun⟩
  | succ fuel ih =>
    obtain ⟨honce, hmembers, hitems⟩ := ih
    refine ⟨fun text => ?_, fun seen text => ?_, fun seen text => ?_⟩
    · unfold scanOnce
      split
      · rename_i tail
        refine .ofOption fun a rest h => ?_
        obtain ⟨⟨s, rest'⟩, hs, heq⟩ := Option.map_eq_some_iff.mp h
        obtain ⟨-, rfl⟩ := Prod.mk.inj heq
        exact (scanString_length hs).trans (Nat.lt_succ_self _)
      · rename_i tail
        have hskip := length_skipSpace_le tail
        split
        · rename_i rest heq
          refine (Shorter.ofOption fun a rest' h => ?_).nested
          obtain ⟨-, rfl⟩ := Prod.mk.inj (Option.some.inj h)
          exact (length_of_skipSpace heq).trans (Nat.lt_succ_self _)
        · exact ((hmembers _ _).mono (hskip.trans (Nat.le_succ _))).nested
      · rename_i tail
        have hskip := length_skipSpace_le tail
        split
        · rename_i rest heq
          refine (Shorter.ofOption fun a rest' h => ?_).nested
          obtain ⟨-, rfl⟩ := Prod.mk.inj (Option.some.inj h)
          exact (length_of_skipSpace heq).trans (Nat.lt_succ_self _)
        · exact ((hitems _ _).mono (hskip.trans (Nat.le_succ _))).nested
      · exact .ofOption fun a rest h => scanAtom_length h
    · unfold scanMembers
      split
      · rename_i tail
        refine .andThen fun r hkey => ?_
        have hrest := scanString_length hkey
        simp only
        split
        · rename_i rest heq
          have hcolon := length_of_skipSpace heq
          refine .andThen fun q hvalue => ?_
          have hafter := honce _ q.1 q.2 hvalue
          have hskip := length_skipSpace_le rest
          split
          · rename_i rest' heq'
            have hclose := length_of_skipSpace heq'
            refine .ofOption fun a rest'' h => ?_
            obtain ⟨-, rfl⟩ := Prod.mk.inj (Option.some.inj h)
            rw [List.length_cons]
            omega
          · rename_i rest' heq'
            have hcomma := length_of_skipSpace heq'
            have hskip' := length_skipSpace_le rest'
            refine (hmembers _ _).mono ?_
            rw [List.length_cons]
            omega
          · exact .fail
        · exact .fail
      · exact .fail
    · unfold scanItems
      refine .andThen fun q hvalue => ?_
      have hafter := honce _ q.1 q.2 hvalue
      simp only
      split
      · rename_i rest' heq'
        have hclose := length_of_skipSpace heq'
        refine .ofOption fun a rest'' h => ?_
        obtain ⟨-, rfl⟩ := Prod.mk.inj (Option.some.inj h)
        omega
      · rename_i rest' heq'
        have hcomma := length_of_skipSpace heq'
        have hskip' := length_skipSpace_le rest'
        exact (hitems _ _).mono (by omega)
      · exact .fail

theorem andThen_congr {x : Scanned α} {f g : α → Scanned β} (h : ∀ a, x.found = some a → f a = g a) :
    x.andThen f = x.andThen g := by
  unfold Scanned.andThen
  split
  · rfl
  · rename_i a ha
    rw [h a ha]

/-- Fuel beyond twice the length of the text changes nothing. -/
theorem scan_fuel (fuel : ℕ) :
    (∀ text, 2 * text.length + 1 ≤ fuel → scanOnce (fuel + 1) text = scanOnce fuel text) ∧
      (∀ seen text, 2 * text.length ≤ fuel → scanMembers (fuel + 1) seen text = scanMembers fuel seen text) ∧
      ∀ seen text, 2 * text.length + 2 ≤ fuel → scanItems (fuel + 1) seen text = scanItems fuel seen text := by
  induction fuel with
  | zero =>
    refine ⟨fun _ h => absurd h (by omega), fun seen text h => ?_, fun _ _ h => absurd h (by omega)⟩
    have hnil : text = [] := List.length_eq_zero_iff.mp (by omega)
    rw [hnil]
    rfl
  | succ fuel ih =>
    obtain ⟨honce, hmembers, hitems⟩ := ih
    refine ⟨fun text h => ?_, fun seen text h => ?_, fun seen text h => ?_⟩
    · rw [scanOnce.eq_def, scanOnce.eq_def (fuel + 1)]
      simp only
      split
      · rfl
      · rename_i tail
        have hskip := length_skipSpace_le tail
        rw [List.length_cons] at h
        split
        · rfl
        · rw [hmembers _ _ (by omega)]
      · rename_i tail
        have hskip := length_skipSpace_le tail
        rw [List.length_cons] at h
        split
        · rfl
        · rw [hitems _ _ (by omega)]
      · rfl
    · rw [scanMembers.eq_def, scanMembers.eq_def (fuel + 1)]
      simp only
      split
      · rename_i tail
        rw [List.length_cons] at h
        refine andThen_congr fun r hkey => ?_
        have hrest := scanString_length hkey
        split
        · rename_i rest heq
          have hcolon := length_of_skipSpace heq
          have hskip := length_skipSpace_le rest
          rw [honce _ (by omega)]
          refine andThen_congr fun q hvalue => ?_
          have hafter := (shorter_scan fuel).1 _ q.1 q.2 hvalue
          split
          · rfl
          · rename_i rest' heq'
            have hcomma := length_of_skipSpace heq'
            have hskip' := length_skipSpace_le rest'
            exact hmembers _ _ (by omega)
          · rfl
        · rfl
      · rfl
    · rw [scanItems.eq_def, scanItems.eq_def (fuel + 1)]
      simp only
      rw [honce _ (by omega)]
      refine andThen_congr fun q hvalue => ?_
      have hafter := (shorter_scan fuel).1 _ q.1 q.2 hvalue
      split
      · rfl
      · rename_i rest' heq'
        have hcomma := length_of_skipSpace heq'
        have hskip' := length_skipSpace_le rest'
        exact hitems _ _ (by omega)
      · rfl

/-- The fuel of `scan` is enough. -/
theorem scanOnce_eq_scan (text : List Char) (extra : ℕ) :
    scanOnce (2 * text.length + 1 + extra) (skipSpace text) = scan text := by
  induction extra with
  | zero => rfl
  | succ extra ih =>
    have hskip := length_skipSpace_le text
    rw [← ih, ← Nat.add_assoc, (scan_fuel _).1 _ (by omega)]

end Fuel

end QuantAgent.Json
