import Mathlib.Data.String.Basic
import Mathlib.Tactic

namespace QuantAgent
set_option autoImplicit true

section Letters
variable (p : Char → Prop) [DecidablePred p]

/-! The letters of a text are checked one by one, not the whole alphabet. -/

instance (priority := 2000) decidableForallLetters (letters : List Char) :
    Decidable (∀ c ∈ letters, p c) :=
  List.decidableBAll p letters

instance (priority := 2000) decidableExistsLetter (letters : List Char) :
    Decidable (∃ c ∈ letters, p c) :=
  List.decidableBEx p letters

instance (priority := 2000) decidableForallLetter (letter : Option Char) :
    Decidable (∀ c ∈ letter, p c) :=
  Option.decidableForallMem letter

end Letters

def isPySpace (c : Char) : Bool := decide (c ∈ [' ', '\t', '\n', '\r', '\x0b', '\x0c'])

/-- `s.strip()` -/
def pyStrip (s : String) : String :=
  String.ofList ((s.toList.dropWhile isPySpace).reverse.dropWhile isPySpace).reverse

/-- `s.lower()`, on the letters that have a one-letter lower case in ASCII. -/
def pyLower (s : String) : String := String.ofList (s.toList.map Char.toLower)

/-- `s.zfill(width)`: a leading sign stays in front. -/
def zfill (width : ℕ) (s : String) : String :=
  let zeros := List.replicate (width - s.length) '0'
  match s.toList with
  | c :: rest => if c = '+' ∨ c = '-' then String.ofList (c :: zeros ++ rest)
    else String.ofList (zeros ++ c :: rest)
  | [] => String.ofList zeros

/-- `s.split(sep)` for one character. -/
def pySplit (sep : Char) : List Char → List (List Char)
  | [] => [[]]
  | c :: rest =>
    if c = sep then [] :: pySplit sep rest
    else
      match pySplit sep rest with
      | part :: parts => (c :: part) :: parts
      | [] => [[c]]

/-- `int(s)` for a group `(\d+)` of a pattern. -/
def digits? (s : List Char) : Option ℕ :=
  if s ≠ [] ∧ s.all Char.isDigit then
    some (s.foldl (fun n c => 10 * n + (c.toNat - '0'.toNat)) 0)
  else none

/-- The rest of a text after a fixed beginning. -/
def after? (front : String) (s : List Char) : Option (List Char) :=
  if front.toList.isPrefixOf s then some (s.drop front.toList.length) else none

/-- The rest of a text before a fixed end. -/
def before? (tail : String) (s : List Char) : Option (List Char) :=
  if tail.toList.isSuffixOf s then some (s.take (s.length - tail.toList.length)) else none

/-- `re.fullmatch(front + r"(\d+)" + tail, name)` -/
def numbered? (front tail name : String) : Option ℕ := do
  digits? (← before? tail (← after? front name.toList))

theorem pySplit_of_notMem {sep : Char} (h : sep ∉ part) : pySplit sep part = [part] := by
  induction part with
  | nil => rfl
  | cons c part ih =>
    rw [List.mem_cons, not_or] at h
    rw [pySplit, if_neg (Ne.symm h.1), ih h.2]

theorem pySplit_append_cons {sep : Char} (h : sep ∉ part) (rest : List Char) :
    pySplit sep (part ++ sep :: rest) = part :: pySplit sep rest := by
  induction part with
  | nil => exact if_pos rfl
  | cons c part ih =>
    rw [List.mem_cons, not_or] at h
    rw [List.cons_append, pySplit, if_neg (Ne.symm h.1), ih h.2]

theorem pySplit_ne_nil (sep : Char) (s : List Char) : pySplit sep s ≠ [] := by
  cases s with
  | nil => exact nofun
  | cons c rest =>
    rw [pySplit]
    split
    · exact nofun
    · split
      · exact nofun
      · exact nofun

/-- The first part has no separator; it is the whole text, or the others are the parts of the rest. -/
theorem pySplit_eq_cons {sep : Char} {s : List Char} (h : pySplit sep s = part :: parts) :
    sep ∉ part ∧ (parts = [] ∧ s = part ∨ ∃ rest, parts = pySplit sep rest ∧ s = part ++ sep :: rest) := by
  induction s generalizing part with
  | nil =>
    obtain ⟨rfl, rfl⟩ := List.cons.inj h
    exact ⟨List.not_mem_nil, .inl ⟨rfl, rfl⟩⟩
  | cons c s ih =>
    rw [pySplit] at h
    split at h
    · rename_i hc
      obtain ⟨rfl, rfl⟩ := List.cons.inj h
      exact ⟨List.not_mem_nil, .inr ⟨s, rfl, by rw [hc, List.nil_append]⟩⟩
    · rename_i hc
      split at h
      · rename_i part' parts' hsplit
        obtain ⟨rfl, rfl⟩ := List.cons.inj h
        obtain ⟨hmem, hrest⟩ := ih hsplit
        refine ⟨?_, ?_⟩
        · rw [List.mem_cons, not_or]
          exact ⟨Ne.symm hc, hmem⟩
        · rcases hrest with ⟨hnil, rfl⟩ | ⟨rest, hparts, rfl⟩
          · exact .inl ⟨hnil, rfl⟩
          · exact .inr ⟨rest, hparts, rfl⟩
      · rename_i hsplit
        exact absurd hsplit (pySplit_ne_nil sep s)

theorem digits?_toString (n : ℕ) : digits? (toString n).toList = some n := by
  have hdigits : (Nat.toDigits 10 n).all Char.isDigit := by
    rw [List.all_eq_true]
    intro c hc
    exact Nat.isDigit_of_mem_toDigits (by decide) (by decide) hc
  have hvalue := Nat.ofDigitChars_ten_toDigits (n := n)
  rw [Nat.ofDigitChars_eq_foldl] at hvalue
  rw [Nat.toString_eq_repr, Nat.toList_repr, digits?, if_pos ⟨Nat.toDigits_ne_nil, hdigits⟩, hvalue]

theorem after?_eq_some {s : List Char} (h : after? front s = some rest) : s = front.toList ++ rest := by
  unfold after? at h
  split at h
  · rename_i hfront
    cases h
    obtain ⟨rest, rfl⟩ := List.isPrefixOf_iff_prefix.mp hfront
    rw [List.drop_left]
  · cases h

theorem before?_eq_some {s : List Char} (h : before? tail s = some rest) :
    s = rest ++ tail.toList := by
  unfold before? at h
  split at h
  · rename_i htail
    cases h
    obtain ⟨rest, rfl⟩ := List.isSuffixOf_iff_suffix.mp htail
    rw [List.length_append, Nat.add_sub_cancel, List.take_left]
  · cases h

theorem numbered?_eq_some (h : numbered? front tail name = some n) :
    ∃ ds, name.toList = front.toList ++ (ds ++ tail.toList) ∧ digits? ds = some n := by
  unfold numbered? at h
  cases hafter : after? front name.toList with
  | none => simp [hafter] at h
  | some rest =>
    cases hbefore : before? tail rest with
    | none => simp [hafter, hbefore] at h
    | some ds =>
      refine ⟨ds, ?_, by simpa [hafter, hbefore] using h⟩
      rw [after?_eq_some hafter, before?_eq_some hbefore]

theorem numbered?_toString (front tail : String) (n : ℕ) :
    numbered? front tail (front ++ toString n ++ tail) = some n := by
  have htext : (front ++ toString n ++ tail).toList =
      front.toList ++ ((toString n).toList ++ tail.toList) := by simp
  have hafter : after? front (front.toList ++ ((toString n).toList ++ tail.toList)) =
      some ((toString n).toList ++ tail.toList) := by simp [after?]
  have hbefore : before? tail ((toString n).toList ++ tail.toList) = some (toString n).toList := by
    simp [before?]
  rw [numbered?, htext, hafter, Option.bind_eq_bind, Option.bind_some, hbefore, Option.bind_some,
    digits?_toString]

theorem length_toString_le (h : digits? ds = some n) : (toString n).length ≤ ds.length := by
  unfold digits? at h
  split at h
  · rename_i hdigits
    cases h
    have hlt : ∀ (l : List Char) (a k : ℕ), l.all Char.isDigit → a < 10 ^ k →
        l.foldl (fun n c => 10 * n + (c.toNat - '0'.toNat)) a < 10 ^ (k + l.length) := by
      intro l
      induction l with
      | nil => exact fun _ _ _ h => h
      | cons c l ih =>
        intro a k hl ha
        rw [List.all_cons, Bool.and_eq_true] at hl
        have hc := (Char.isDigit_iff_toNat.mp hl.1).2
        rw [List.foldl_cons, List.length_cons, Nat.add_comm l.length, ← Nat.add_assoc]
        apply ih _ _ hl.2
        have hzero : '0'.toNat = 48 := rfl
        have hnine : '9'.toNat = 57 := rfl
        rw [hnine] at hc
        rw [pow_succ, hzero]
        omega
    have hlen := hlt ds 0 0 hdigits.2 (by decide)
    rw [Nat.zero_add] at hlen
    rw [Nat.toString_eq_repr]
    exact (Nat.length_repr_le_iff (List.length_pos_iff.mpr hdigits.1)).mpr hlen
  · cases h

/-- What starts with no digit is not the beginning of a number. -/
theorem not_prefix_toDigits {c : Char} (h : c.isDigit = false) (l : List Char) (n : ℕ) :
    ¬ (c :: l) <+: Nat.toDigits 10 n := by
  rintro ⟨rest, hrest⟩
  have hc : c ∈ Nat.toDigits 10 n := by
    rw [← hrest]
    exact List.mem_cons_self
  rw [Nat.isDigit_of_mem_toDigits (by decide) (by decide) hc] at h
  cases h

theorem toDigits_ne_cons {c : Char} (h : c.isDigit = false) (l : List Char) (n : ℕ) :
    Nat.toDigits 10 n ≠ c :: l := by
  intro he
  exact not_prefix_toDigits h l n (he ▸ List.prefix_rfl)

theorem length_pyLower (s : String) : (pyLower s).length = s.length := by
  rw [pyLower, String.length_ofList, List.length_map, String.length_toList]

theorem length_pyStrip_le (s : String) : (pyStrip s).length ≤ s.length := by
  rw [pyStrip, String.length_ofList, List.length_reverse]
  calc _ ≤ (s.toList.dropWhile isPySpace).reverse.length := (List.dropWhile_sublist _).length_le
    _ ≤ s.toList.length := by
      rw [List.length_reverse]
      exact (List.dropWhile_sublist _).length_le
    _ = s.length := String.length_toList

theorem pyStrip_eq_self (h : ∀ c ∈ s.toList, isPySpace c = false) : pyStrip s = s := by
  have hdrop : ∀ l : List Char, (∀ c ∈ l, isPySpace c = false) → l.dropWhile isPySpace = l := by
    intro l hl
    cases l with
    | nil => rfl
    | cons c l => rw [List.dropWhile_cons_of_neg (by simp [hl c])]
  rw [pyStrip, hdrop _ h, hdrop _ fun c hc => h c (List.mem_reverse.mp hc), List.reverse_reverse,
    String.ofList_toList]

theorem pyLower_eq_self (h : ∀ c ∈ s.toList, c.toLower = c) : pyLower s = s := by
  rw [pyLower, List.map_congr_left h, List.map_id', String.ofList_toList]

/-- A text that ends in a number does not end in a text that does not. -/
theorem before?_toDigits (h : tail.toList.getLast? = some c) (hc : c.isDigit = false)
    (front : List Char) (n : ℕ) : before? tail (front ++ Nat.toDigits 10 n) = none := by
  cases hbefore : before? tail (front ++ Nat.toDigits 10 n) with
  | none => rfl
  | some rest =>
    have hlast := congrArg List.getLast? (before?_eq_some hbefore)
    rw [List.getLast?_append_of_ne_nil _ Nat.toDigits_ne_nil, List.getLast?_append, h,
      Option.some_or] at hlast
    rw [Nat.isDigit_of_mem_toDigits (by decide) (by decide) (List.mem_of_getLast? hlast)] at hc
    cases hc

example : numbered? "return_" "d" "return_20d" = some 20 := by decide +kernel

end QuantAgent
