import QuantAgent.Lib.PyFloat
import QuantAgent.Lib.PyText
import Mathlib.Order.Lattice
import Mathlib.Data.Prod.Lex
import Mathlib.Tactic

namespace QuantAgent
set_option autoImplicit true

/-- `str(n).zfill(width)` of a number that fits: its decimal digits, the highest first. -/
def fixedDigits : ℕ → ℕ → List Char
  | 0, _ => []
  | width + 1, n => Nat.digitChar (n / 10 ^ width % 10) :: fixedDigits width n

@[simp] theorem length_fixedDigits (width n : ℕ) : (fixedDigits width n).length = width := by
  induction width with
  | zero => rfl
  | succ width ih => rw [fixedDigits, List.length_cons, ih]

theorem fixedDigits_mod (width n : ℕ) : fixedDigits width (n % 10 ^ width) = fixedDigits width n := by
  suffices h : ∀ k, fixedDigits width (n % 10 ^ (width + k)) = fixedDigits width n from h 0
  induction width with
  | zero => exact fun _ => rfl
  | succ width ih =>
    intro k
    have htail : fixedDigits width (n % 10 ^ (width + 1 + k)) = fixedDigits width n := by
      have := ih (k + 1)
      rwa [show width + (k + 1) = width + 1 + k by omega] at this
    have hpow : 10 ^ (width + 1 + k) = 10 ^ width * (10 * 10 ^ k) := by ring
    have hhead : n % 10 ^ (width + 1 + k) / 10 ^ width % 10 = n / 10 ^ width % 10 := by
      rw [hpow, Nat.mod_mul_right_div_self, Nat.mod_mul_right_mod]
    rw [fixedDigits, fixedDigits, htail, hhead]

theorem digitChar_lt_iff (hm : m < 10) (hn : n < 10) :
    Nat.digitChar m < Nat.digitChar n ↔ m < n := by
  interval_cases m <;> interval_cases n <;> decide

theorem digitChar_isDigit (hn : n < 10) : (Nat.digitChar n).isDigit = true := by
  interval_cases n <;> decide

theorem digitChar_value (hn : n < 10) : (Nat.digitChar n).toNat - '0'.toNat = n := by
  interval_cases n <;> rfl

/-- Texts of one width are ordered as the numbers they write. -/
theorem fixedDigits_lt_iff (hm : m < 10 ^ width) (hn : n < 10 ^ width) :
    fixedDigits width m < fixedDigits width n ↔ m < n := by
  induction width generalizing m n with
  | zero =>
    have hm : m = 0 := by omega
    have hn : n = 0 := by omega
    simp [fixedDigits, hm, hn]
  | succ width ih =>
    have hpos : 0 < 10 ^ width := by positivity
    rw [pow_succ] at hm hn
    have hmq : m / 10 ^ width < 10 := Nat.div_lt_of_lt_mul hm
    have hnq : n / 10 ^ width < 10 := Nat.div_lt_of_lt_mul hn
    have hmr := Nat.mod_lt m hpos
    have hnr := Nat.mod_lt n hpos
    have htails : fixedDigits width m < fixedDigits width n ↔ m % 10 ^ width < n % 10 ^ width := by
      rw [← fixedDigits_mod width m, ← fixedDigits_mod width n]
      exact ih hmr hnr
    have hheads : Nat.digitChar (m / 10 ^ width % 10) = Nat.digitChar (n / 10 ^ width % 10) ↔
        m / 10 ^ width = n / 10 ^ width := by
      rw [Nat.mod_eq_of_lt hmq, Nat.mod_eq_of_lt hnq]
      constructor
      · intro h
        rw [← digitChar_value hmq, ← digitChar_value hnq, h]
      · exact fun h => h ▸ rfl
    rw [fixedDigits, fixedDigits, List.cons_lt_cons_iff, htails, hheads, Nat.mod_eq_of_lt hmq,
      Nat.mod_eq_of_lt hnq, digitChar_lt_iff hmq hnq]
    have hmd := Nat.div_add_mod m (10 ^ width)
    have hnd := Nat.div_add_mod n (10 ^ width)
    constructor
    · rintro (h | ⟨h, hr⟩)
      · have := Nat.mul_le_mul_left (10 ^ width) (Nat.succ_le_of_lt h)
        rw [Nat.mul_succ] at this
        omega
      · rw [h] at hmd
        omega
    · intro h
      rcases lt_trichotomy (m / 10 ^ width) (n / 10 ^ width) with hlt | heq | hgt
      · exact .inl hlt
      · rw [heq] at hmd
        exact .inr ⟨heq, by omega⟩
      · have := Nat.mul_le_mul_left (10 ^ width) (Nat.succ_le_of_lt hgt)
        rw [Nat.mul_succ] at this
        omega

theorem fixedDigits_isDigit (width n : ℕ) : (fixedDigits width n).all Char.isDigit = true := by
  induction width with
  | zero => rfl
  | succ width ih =>
    rw [fixedDigits, List.all_cons, ih, digitChar_isDigit (Nat.mod_lt _ (by omega)), Bool.and_true]

theorem foldl_fixedDigits (width n a : ℕ) :
    (fixedDigits width n).foldl (fun n c => 10 * n + (c.toNat - '0'.toNat)) a =
      a * 10 ^ width + n % 10 ^ width := by
  induction width generalizing a with
  | zero => simp [fixedDigits, Nat.mod_one]
  | succ width ih =>
    have hmod : n % 10 ^ (width + 1) = n % 10 ^ width + 10 ^ width * (n / 10 ^ width % 10) := by
      rw [pow_succ, Nat.mod_mul]
    rw [fixedDigits, List.foldl_cons, digitChar_value (Nat.mod_lt _ (by omega)), ih, hmod]
    ring

theorem digits?_fixedDigits (hwidth : 0 < width) (hn : n < 10 ^ width) :
    digits? (fixedDigits width n) = some n := by
  have hne : fixedDigits width n ≠ [] := by
    rw [← List.length_pos_iff_ne_nil, length_fixedDigits]
    exact hwidth
  rw [digits?, if_pos ⟨hne, fixedDigits_isDigit width n⟩, foldl_fixedDigits, Nat.zero_mul,
    Nat.zero_add, Nat.mod_eq_of_lt hn]

theorem append_lt_append_iff {l₁ l₂ r₁ r₂ : List Char} (h : l₁.length = l₂.length) :
    l₁ ++ r₁ < l₂ ++ r₂ ↔ l₁ < l₂ ∨ l₁ = l₂ ∧ r₁ < r₂ := by
  induction l₁ generalizing l₂ with
  | nil =>
    obtain rfl := List.eq_nil_of_length_eq_zero h.symm
    simp
  | cons a l₁ ih =>
    cases l₂ with
    | nil => cases h
    | cons b l₂ =>
      rw [List.cons_append, List.cons_append, List.cons_lt_cons_iff, List.cons_lt_cons_iff,
        ih (Nat.succ.inj h), List.cons.injEq]
      tauto

def isLeap (year : ℕ) : Bool :=
  decide (year % 4 = 0) && (decide (year % 100 ≠ 0) || decide (year % 400 = 0))

def daysInMonth (year : ℕ) : ℕ → ℕ
  | 2 => if isLeap year then 29 else 28
  | 4 | 6 | 9 | 11 => 30
  | _ => 31

/-- `datetime.date` -/
structure PyDate where
  year : ℕ
  month : ℕ
  day : ℕ
  year_mem : 1 ≤ year ∧ year ≤ 9999
  month_mem : 1 ≤ month ∧ month ≤ 12
  day_mem : 1 ≤ day ∧ day ≤ daysInMonth year month
deriving DecidableEq

namespace PyDate

/-- Year, month and day, compared from the left. -/
def parts (d : PyDate) : ℕ ×ₗ ℕ ×ₗ ℕ := toLex (d.year, toLex (d.month, d.day))

theorem parts_injective : Function.Injective parts := by
  rintro ⟨y, m, d, hy, hm, hd⟩ ⟨y', m', d', hy', hm', hd'⟩ h
  simp only [parts, EmbeddingLike.apply_eq_iff_eq, Prod.mk.injEq] at h
  obtain ⟨rfl, rfl, rfl⟩ := h
  rfl

instance : LinearOrder PyDate := LinearOrder.lift' parts parts_injective

theorem lt_iff {d e : PyDate} : d < e ↔ d.year < e.year ∨
    d.year = e.year ∧ (d.month < e.month ∨ d.month = e.month ∧ d.day < e.day) := by
  change parts d < parts e ↔ _
  simp only [parts, Prod.Lex.toLex_lt_toLex]

/-- `d.isoformat()` -/
def isoformat (d : PyDate) : String :=
  String.ofList (fixedDigits 4 d.year ++
    '-' :: (fixedDigits 2 d.month ++ '-' :: fixedDigits 2 d.day))

def ofParts? (year month day : ℕ) : Option PyDate :=
  if h : (1 ≤ year ∧ year ≤ 9999) ∧ (1 ≤ month ∧ month ≤ 12) ∧ (1 ≤ day ∧ day ≤ daysInMonth year month)
  then some ⟨year, month, day, h.1, h.2.1, h.2.2⟩ else none

/-- `date.fromisoformat(s)` on the form `YYYY-MM-DD`. -/
def fromIsoFormat (s : String) : Except PyError PyDate :=
  match s.toList with
  | [y₁, y₂, y₃, y₄, '-', m₁, m₂, '-', d₁, d₂] =>
    match digits? [y₁, y₂, y₃, y₄], digits? [m₁, m₂], digits? [d₁, d₂] with
    | some year, some month, some day =>
      (ofParts? year month day).elim (.error (.valueError ("Invalid isoformat string: " ++ s))) .ok
    | _, _, _ => .error (.valueError ("Invalid isoformat string: " ++ s))
  | _ => .error (.valueError ("Invalid isoformat string: " ++ s))

theorem daysInMonth_le (year month : ℕ) : daysInMonth year month ≤ 31 := by
  unfold daysInMonth
  split
  · split <;> omega
  all_goals omega

/-- The texts of dates are ordered as the dates. -/
theorem isoformat_lt_iff {d e : PyDate} : d.isoformat < e.isoformat ↔ d < e := by
  have hday := d.day_mem.2.trans (daysInMonth_le d.year d.month)
  have hday' := e.day_mem.2.trans (daysInMonth_le e.year e.month)
  have hyear := d.year_mem.2
  have hyear' := e.year_mem.2
  have hmonth := d.month_mem.2
  have hmonth' := e.month_mem.2
  have heq {width m n : ℕ} (hm : m < 10 ^ width) (hn : n < 10 ^ width) :
      fixedDigits width m = fixedDigits width n ↔ m = n := by
    constructor
    · intro h
      rcases lt_trichotomy m n with hlt | heq | hgt
      · exact absurd ((fixedDigits_lt_iff hm hn).mpr hlt) (h ▸ lt_irrefl _)
      · exact heq
      · exact absurd ((fixedDigits_lt_iff hn hm).mpr hgt) (h ▸ lt_irrefl _)
    · exact fun h => h ▸ rfl
  rw [isoformat, isoformat, String.lt_iff_toList_lt, String.toList_ofList, String.toList_ofList,
    append_lt_append_iff (by simp), List.cons_lt_cons_iff, append_lt_append_iff (by simp),
    List.cons_lt_cons_iff, lt_iff, fixedDigits_lt_iff (by omega) (by omega),
    fixedDigits_lt_iff (by omega) (by omega), fixedDigits_lt_iff (by omega) (by omega),
    heq (by omega) (by omega), heq (by omega) (by omega)]
  simp

theorem fromIsoFormat_isoformat (d : PyDate) : fromIsoFormat d.isoformat = .ok d := by
  have hday := d.day_mem.2.trans (daysInMonth_le d.year d.month)
  have hyear : digits? (fixedDigits 4 d.year) = some d.year :=
    digits?_fixedDigits (by omega) (by have := d.year_mem.2; omega)
  have hmonth : digits? (fixedDigits 2 d.month) = some d.month :=
    digits?_fixedDigits (by omega) (by have := d.month_mem.2; omega)
  have hday : digits? (fixedDigits 2 d.day) = some d.day :=
    digits?_fixedDigits (by omega) (by omega)
  have hparts : ofParts? d.year d.month d.day = some d :=
    dif_pos ⟨d.year_mem, d.month_mem, d.day_mem⟩
  simp only [fixedDigits] at hyear hmonth hday
  simp only [fromIsoFormat, isoformat, String.toList_ofList, fixedDigits, List.cons_append,
    List.nil_append, hyear, hmonth, hday, hparts, Option.elim_some]

end PyDate

end QuantAgent
