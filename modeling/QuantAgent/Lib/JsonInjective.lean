import QuantAgent.Lib.JsonRoundTrip

namespace QuantAgent.Json
set_option autoImplicit true

/-- Induction over the values inside a value. -/
theorem induct {P : Json → Prop} (null : P .null) (bool : ∀ b, P (.bool b)) (int : ∀ n, P (.int n))
    (float : ∀ text, P (.float text)) (str : ∀ s, P (.str s))
    (arr : ∀ items, (∀ v ∈ items, P v) → P (.arr items))
    (obj : ∀ members, (∀ m ∈ members, P m.2) → P (.obj members)) : ∀ v, P v
  | .null => null
  | .bool b => bool b
  | .int n => int n
  | .float text => float text
  | .str s => str s
  | .arr items => arr items fun v _ => induct null bool int float str arr obj v
  | .obj members => obj members fun m _ => induct null bool int float str arr obj m.2
termination_by v => sizeOf v
decreasing_by
  · have := List.sizeOf_lt_of_mem ‹_›
    simp only [Json.arr.sizeOf_spec]
    omega
  · have := List.sizeOf_lt_of_mem ‹m ∈ members›
    obtain ⟨key, value⟩ := m
    simp only [Json.obj.sizeOf_spec, Prod.mk.sizeOf_spec] at this ⊢
    omega

/-- The same value up to the order of the members of its objects. -/
inductive Same : Json → Json → Prop where
  | null : Same .null .null
  | bool (b : Bool) : Same (.bool b) (.bool b)
  | int (n : ℤ) : Same (.int n) (.int n)
  | float (text : List Char) : Same (.float text) (.float text)
  | str (s : CodePoints) : Same (.str s) (.str s)
  | arr (h : List.Forall₂ Same items items') : Same (.arr items) (.arr items')
  | obj (hleft : members.Perm left) (hright : members'.Perm right)
      (hkeys : left.map Prod.fst = right.map Prod.fst)
      (h : List.Forall₂ Same (left.map Prod.snd) (right.map Prod.snd)) :
      Same (.obj members) (.obj members')

/-- No object in a value has two members of one name. -/
inductive DistinctKeys : Json → Prop where
  | null : DistinctKeys .null
  | bool (b : Bool) : DistinctKeys (.bool b)
  | int (n : ℤ) : DistinctKeys (.int n)
  | float (text : List Char) : DistinctKeys (.float text)
  | str (s : CodePoints) : DistinctKeys (.str s)
  | arr (h : ∀ v ∈ items, DistinctKeys v) : DistinctKeys (.arr items)
  | obj (hkeys : (members.map Prod.fst).Nodup) (h : ∀ m ∈ members, DistinctKeys m.2) :
      DistinctKeys (.obj members)

def isNumeral (c : Char) : Bool := c.isDigit || decide (c ∈ ['+', '-', '.', 'e'])

/-- The text of a float: what tells it from an integer is a point or an exponent. -/
structure FloatText (text : List Char) : Prop where
  numeral : ∀ c ∈ text, isNumeral c = true
  marked : ∃ c ∈ text, c = '.' ∨ c = 'e'

/-- A value of texts without surrogates and floats as they are written. -/
inductive Plain : Json → Prop where
  | null : Plain .null
  | bool (b : Bool) : Plain (.bool b)
  | int (n : ℤ) : Plain (.int n)
  | float (h : FloatText text) : Plain (.float text)
  | str (h : ∀ n ∈ s, Scalar n) : Plain (.str s)
  | arr (h : ∀ v ∈ items, Plain v) : Plain (.arr items)
  | obj (hkeys : ∀ m ∈ members, ∀ n ∈ m.1, Scalar n) (h : ∀ m ∈ members, Plain m.2) :
      Plain (.obj members)

section Order

/-- The members of an object as they are written. -/
def sortedMembers (members : List (CodePoints × Json)) : List (CodePoints × Json) :=
  pySorted (fun a b => decide (a.1 < b.1)) members

def memberText (ensureAscii : Bool) (m : CodePoints × Json) : List Char :=
  dumpString ensureAscii m.1 ++ ':' :: dumps ensureAscii m.2

theorem dumpItems_eq (ensureAscii : Bool) (items : List Json) :
    dumpItems ensureAscii items = items.map (dumps ensureAscii) := by
  induction items with
  | nil => rfl
  | cons item items ih => rw [dumpItems, ih, List.map_cons]

theorem dumps_arr_eq (ensureAscii : Bool) (items : List Json) :
    dumps ensureAscii (.arr items) = '[' :: commas (items.map (dumps ensureAscii)) ++ [']'] := by
  rw [dumps, dumpItems_eq]

theorem dumps_obj_eq (ensureAscii : Bool) (members : List (CodePoints × Json)) :
    dumps ensureAscii (.obj members) =
      '{' :: commas ((sortedMembers members).map (memberText ensureAscii)) ++ ['}'] := by
  have hmembers : dumpMembers ensureAscii members =
      members.map fun m => (m.1, memberText ensureAscii m) := by
    induction members with
    | nil => rfl
    | cons m members ih =>
      obtain ⟨key, value⟩ := m
      rw [dumpMembers, ih]
      rfl
  have hsorted : pySorted (fun a b => decide (a.1 < b.1))
        (members.map fun m => (m.1, memberText ensureAscii m)) =
      (sortedMembers members).map fun m => (m.1, memberText ensureAscii m) :=
    pySorted_map (fun _ _ => rfl) members
  rw [dumps, hmembers, hsorted, List.map_map]
  rfl

/-- Objects with the same members in any order are written alike, if no name comes twice. -/
theorem sortedMembers_congr (hkeys : (members.map Prod.fst).Nodup) (h : members.Perm left) :
    sortedMembers members = sortedMembers left := by
  refine pySorted_congr (fun a b => ?_) hkeys h
  exact decide_eq_decide.mpr Iff.rfl

theorem map_eq_of_forall₂ {R : α → β → Prop} {f : α → γ} {g : β → γ} (h : List.Forall₂ R xs ys)
    (hR : ∀ x ∈ xs, ∀ y, R x y → f x = g y) : xs.map f = ys.map g := by
  induction h with
  | nil => rfl
  | cons hxy _ ih =>
    obtain ⟨hx, hxs⟩ := List.forall_mem_cons.mp hR
    rw [List.map_cons, List.map_cons, hx _ hxy, ih hxs]

/-- The texts of the members depend on their names and the texts of their values. -/
theorem sortedTexts_congr {left right : List (CodePoints × Json)}
    (h : left.map (fun m => (m.1, dumps ensureAscii m.2)) =
      right.map fun m => (m.1, dumps ensureAscii m.2)) :
    (sortedMembers left).map (memberText ensureAscii) =
      (sortedMembers right).map (memberText ensureAscii) := by
  have hsorted : ∀ members : List (CodePoints × Json),
      (sortedMembers members).map (memberText ensureAscii) =
        (pySorted (fun a b => decide (a.1 < b.1))
          (members.map fun m => (m.1, dumps ensureAscii m.2))).map
          fun p => dumpString ensureAscii p.1 ++ ':' :: p.2 := by
    intro members
    have hmap : pySorted (fun a b => decide (a.1 < b.1))
          (members.map fun m => (m.1, dumps ensureAscii m.2)) =
        (sortedMembers members).map fun m => (m.1, dumps ensureAscii m.2) :=
      pySorted_map (fun _ _ => rfl) members
    rw [hmap, List.map_map]
    rfl
  rw [hsorted, hsorted, h]

theorem dumps_congr (h : Same v w) (hdistinct : DistinctKeys v) (ensureAscii : Bool) :
    dumps ensureAscii v = dumps ensureAscii w := by
  induction v using induct generalizing w with
  | null => cases h; rfl
  | bool => cases h; rfl
  | int => cases h; rfl
  | float => cases h; rfl
  | str => cases h; rfl
  | arr items ih =>
    cases h with
    | arr h =>
      cases hdistinct with
      | arr hdistinct =>
        rw [dumps_arr_eq, dumps_arr_eq,
          map_eq_of_forall₂ h fun x hx y hxy => ih x hx hxy (hdistinct x hx)]
  | obj members ih =>
    cases h with
    | @obj _ members' left right hleft hright hkeys h =>
      cases hdistinct with
      | obj hnodup hdistinct =>
        have hnodupRight : (members'.map Prod.fst).Nodup := by
          rw [(hright.map Prod.fst).nodup_iff, ← hkeys, ← (hleft.map Prod.fst).nodup_iff]
          exact hnodup
        have hvalues : (left.map Prod.snd).map (dumps ensureAscii) =
            (right.map Prod.snd).map (dumps ensureAscii) := by
          refine map_eq_of_forall₂ h fun x hx y hxy => ?_
          obtain ⟨m, hm, rfl⟩ := List.mem_map.mp hx
          have hmem := hleft.mem_iff.mpr hm
          exact ih m hmem hxy (hdistinct m hmem)
        have hpairs : left.map (fun m => (m.1, dumps ensureAscii m.2)) =
            right.map fun m => (m.1, dumps ensureAscii m.2) := by
          refine (List.zip_of_prod ?_ ?_).trans (List.zip_of_prod rfl rfl).symm
          · rw [List.map_map, List.map_map]
            exact hkeys
          · rw [List.map_map, List.map_map]
            rw [List.map_map, List.map_map] at hvalues
            exact hvalues
        rw [dumps_obj_eq, dumps_obj_eq, sortedMembers_congr hnodup hleft,
          sortedMembers_congr hnodupRight hright, sortedTexts_congr hpairs]

theorem Same.str_inj (h : Same (.str s) (.str t)) : s = t := by
  cases h
  rfl

theorem Same.int_inj (h : Same (.int m) (.int n)) : m = n := by
  cases h
  rfl

theorem exists_of_forall₂ {R : α → β → Prop} (h : List.Forall₂ R xs ys) (hx : x ∈ xs) :
    ∃ y ∈ ys, R x y := by
  induction h with
  | nil => cases hx
  | @cons a b xs ys hab _ ih =>
    rcases List.mem_cons.mp hx with rfl | hx
    · exact ⟨b, List.mem_cons_self, hab⟩
    · obtain ⟨y, hy, hxy⟩ := ih hx
      exact ⟨y, List.mem_cons_of_mem _ hy, hxy⟩

theorem Same.distinctKeys (h : Same v w) (hw : DistinctKeys w) : DistinctKeys v := by
  induction v using induct generalizing w with
  | null => exact .null
  | bool b => exact .bool b
  | int n => exact .int n
  | float text => exact .float text
  | str s => exact .str s
  | arr items ih =>
    cases h with
    | arr h =>
      cases hw with
      | arr hw =>
        refine .arr fun x hx => ?_
        obtain ⟨y, hy, hxy⟩ := exists_of_forall₂ h hx
        exact ih x hx hxy (hw y hy)
  | obj members ih =>
    cases h with
    | @obj _ members' left right hleft hright hkeys h =>
      cases hw with
      | obj hnodup hw =>
        refine .obj ?_ fun m hm => ?_
        · rw [(hleft.map Prod.fst).nodup_iff, hkeys, ← (hright.map Prod.fst).nodup_iff]
          exact hnodup
        · have hmem : m.2 ∈ left.map Prod.snd := List.mem_map_of_mem (hleft.mem_iff.mp hm)
          obtain ⟨y, hy, hxy⟩ := exists_of_forall₂ h hmem
          obtain ⟨n, hn, rfl⟩ := List.mem_map.mp hy
          exact ih m hm hxy (hw n (hright.mem_iff.mpr hn))

/-- Under distinct names, members that have partners of the same name stand in their order. -/
theorem forall₂_of_partners {R : Json → Json → Prop} {members members' : List (CodePoints × Json)}
    (hkeys : members.map Prod.fst = members'.map Prod.fst) (hnodup : (members'.map Prod.fst).Nodup)
    (h : ∀ m ∈ members, ∃ n ∈ members', m.1 = n.1 ∧ R m.2 n.2) :
    List.Forall₂ R (members.map Prod.snd) (members'.map Prod.snd) := by
  induction members generalizing members' with
  | nil =>
    cases members' with
    | nil => exact .nil
    | cons n members' => cases hkeys
  | cons m members ih =>
    cases members' with
    | nil => cases hkeys
    | cons n members' =>
      obtain ⟨hkey, hrest⟩ := List.cons.inj hkeys
      obtain ⟨hn, hnodup'⟩ := List.nodup_cons.mp hnodup
      obtain ⟨hm, hmembers⟩ := List.forall_mem_cons.mp h
      refine .cons ?_ (ih hrest hnodup' fun m' hm' => ?_)
      · obtain ⟨n', hn', hsame, hR⟩ := hm
        rcases List.mem_cons.mp hn' with rfl | hn'
        · exact hR
        · exact absurd (hkey ▸ hsame ▸ List.mem_map_of_mem hn') hn
      · obtain ⟨n', hn', hsame, hR⟩ := hmembers m' hm'
        rcases List.mem_cons.mp hn' with rfl | hn'
        · rw [← hrest, ← hsame] at hn
          exact absurd (List.mem_map_of_mem hm') hn
        · exact ⟨n', hn', hsame, hR⟩

theorem forall₂_members {left right : List (CodePoints × Json)}
    (hkeys : left.map Prod.fst = right.map Prod.fst)
    (h : List.Forall₂ R (left.map Prod.snd) (right.map Prod.snd)) :
    List.Forall₂ (fun m n => m.1 = n.1 ∧ R m.2 n.2) left right := by
  induction left generalizing right with
  | nil =>
    cases right with
    | nil => exact .nil
    | cons n right => cases hkeys
  | cons m left ih =>
    cases right with
    | nil => cases hkeys
    | cons n right =>
      obtain ⟨hkey, hrest⟩ := List.cons.inj hkeys
      cases h with
      | cons hm h => exact .cons ⟨hkey, hm⟩ (ih hrest h)

/-- Objects with the same distinct names in the same order are compared member by member. -/
theorem same_obj_iff {members members' : List (CodePoints × Json)}
    (hkeys : members.map Prod.fst = members'.map Prod.fst) (hnodup : (members'.map Prod.fst).Nodup) :
    Same (.obj members) (.obj members') ↔
      List.Forall₂ Same (members.map Prod.snd) (members'.map Prod.snd) := by
  constructor
  · intro h
    cases h with
    | @obj _ _ left right hleft hright hsame h =>
      refine forall₂_of_partners hkeys hnodup fun m hm => ?_
      obtain ⟨n, hn, hpartner⟩ := exists_of_forall₂ (forall₂_members hsame h) (hleft.mem_iff.mp hm)
      exact ⟨n, hright.mem_iff.mpr hn, hpartner⟩
  · exact fun h => .obj (.refl _) (.refl _) hkeys h

end Order

section Text

/-- What may follow a value in a dump. -/
def Ended (rest : List Char) : Prop := ∀ c ∈ rest.head?, c = ',' ∨ c = ']' ∨ c = '}'

theorem isNumeral_of_ended (h : Ended (c :: rest)) : isNumeral c = false := by
  rcases h c rfl with rfl | rfl | rfl <;> decide

/-- A number ends where its numerals do. -/
theorem numeral_cancel {text text' : List Char} (h : ∀ c ∈ text, isNumeral c = true)
    (h' : ∀ c ∈ text', isNumeral c = true) (hr : Ended r) (hs : Ended s)
    (heq : text ++ r = text' ++ s) : text = text' ∧ r = s := by
  have hstop : ∀ rest, Ended rest → rest.takeWhile isNumeral = [] := by
    intro rest hrest
    cases rest with
    | nil => rfl
    | cons c rest => rw [List.takeWhile_cons_of_neg (by rw [isNumeral_of_ended hrest]; decide)]
  have htext := congrArg (List.takeWhile isNumeral) heq
  rw [List.takeWhile_append_of_pos h, List.takeWhile_append_of_pos h', hstop r hr, hstop s hs,
    List.append_nil, List.append_nil] at htext
  rw [htext] at heq
  exact ⟨htext, List.append_cancel_left heq⟩

theorem scanUnits_escape_raw (h : Scalar n) (rest : List Char) :
    scanUnits (escape false n ++ rest) = (scanUnits rest).map (before [n]) := by
  by_cases hn : n ≤ 126
  · have hsame : escape false n = escape true n := by
      simp [escape, hn]
    have hunits : unitsOf n = [n] := if_pos (by omega)
    rw [hsame, scanUnits_escape h, hunits]
  · have hvalid : n.isValidChar := by
      unfold Scalar at h
      unfold Nat.isValidChar
      omega
    have hvalue : (Char.ofNat n).toNat = n := by
      rw [Char.ofNat, dif_pos hvalid]
      rfl
    have hraw : escape false n = [Char.ofNat n] := by
      unfold escape
      rw [if_neg (by omega), if_neg (by omega), if_neg (by omega), if_neg (by omega), if_neg (by omega),
        if_neg (by omega), if_neg (by omega), if_pos ⟨by omega, .inr rfl⟩]
    have hplain : ∀ d : Char, d.toNat ≤ 126 → Char.ofNat n ≠ d := by
      intro d hd heq
      rw [← heq, hvalue] at hd
      exact hn hd
    rw [hraw, List.singleton_append, scanUnits_plain (hplain _ (by decide)) (hplain _ (by decide))
      (by rw [hvalue]; omega), hvalue]

theorem scanUnits_dump_raw (s : CodePoints) (h : ∀ n ∈ s, Scalar n) (rest : List Char) :
    scanUnits (s.flatMap (escape false) ++ '"' :: rest) = some (s, rest) := by
  induction s with
  | nil => rfl
  | cons n s ih =>
    obtain ⟨hn, hs⟩ := List.forall_mem_cons.mp h
    rw [List.flatMap_cons, List.append_assoc, scanUnits_escape_raw hn, ih hs]
    rfl

theorem dumpString_cancel {s t : CodePoints} (hs : ∀ n ∈ s, Scalar n) (ht : ∀ n ∈ t, Scalar n)
    (heq : dumpString false s ++ r = dumpString false t ++ r') : s = t ∧ r = r' := by
  simp only [dumpString, List.cons_append, List.append_assoc, List.cons.injEq, true_and] at heq
  have hscan := congrArg scanUnits heq
  rw [List.nil_append, scanUnits_dump_raw s hs, scanUnits_dump_raw t ht] at hscan
  cases hscan
  exact ⟨rfl, rfl⟩

/-- The kind of a value, which the first character of its text gives away. -/
def kind : Json → ℕ
  | .null => 0
  | .bool _ => 1
  | .int _ | .float _ => 2
  | .str _ => 3
  | .arr _ => 4
  | .obj _ => 5

def kindOf (c : Char) : ℕ :=
  if c = 'n' then 0
  else if c = 't' ∨ c = 'f' then 1
  else if isNumeral c then 2
  else if c = '"' then 3
  else if c = '[' then 4
  else 5

theorem numeral_dumpInt (n : ℤ) : ∀ c ∈ dumpInt n, c.isDigit = true ∨ c = '-' := by
  have hdigits : ∀ c ∈ Nat.toDigits 10 n.natAbs, c.isDigit = true := fun c hc =>
    Nat.isDigit_of_mem_toDigits (by decide) (by decide) hc
  intro c hc
  unfold dumpInt at hc
  split at hc
  · rcases List.mem_cons.mp hc with rfl | hc
    · exact .inr rfl
    · exact .inl (hdigits c hc)
  · exact .inl (hdigits c hc)

theorem isNumeral_dumpInt (n : ℤ) : ∀ c ∈ dumpInt n, isNumeral c = true := by
  intro c hc
  rcases numeral_dumpInt n c hc with hdigit | rfl
  · rw [isNumeral, hdigit, Bool.true_or]
  · decide

theorem dumpInt_ne_nil (n : ℤ) : dumpInt n ≠ [] := by
  unfold dumpInt
  split
  · exact List.cons_ne_nil _ _
  · exact Nat.toDigits_ne_nil

theorem dumpInt_injective : Function.Injective dumpInt := by
  have hnat : ∀ m n : ℕ, Nat.toDigits 10 m = Nat.toDigits 10 n → m = n := by
    intro m n h
    have hm := digits?_toString m
    rw [Nat.toString_eq_repr, Nat.toList_repr, h, ← Nat.toList_repr, ← Nat.toString_eq_repr,
      digits?_toString] at hm
    exact (Option.some.inj hm).symm
  have hdash : ∀ n : ℕ, '-' ∉ Nat.toDigits 10 n := by
    intro n h
    cases Nat.isDigit_of_mem_toDigits (by decide) (by decide) h
  intro m n h
  unfold dumpInt at h
  split at h
  · split at h
    · have := hnat _ _ (List.cons.inj h).2
      omega
    · exact absurd (h ▸ List.mem_cons_self) (hdash n.natAbs)
  · split at h
    · exact absurd (h ▸ List.mem_cons_self) (hdash m.natAbs)
    · have := hnat _ _ h
      omega

theorem dumps_head (hv : Plain v) : ∃ c rest, dumps false v = c :: rest ∧ kindOf c = kind v ∧
    c ≠ ']' ∧ c ≠ '}' := by
  have hnumeral : ∀ text : List Char, text ≠ [] → (∀ c ∈ text, isNumeral c = true) →
      ∃ c rest, text = c :: rest ∧ kindOf c = 2 ∧ c ≠ ']' ∧ c ≠ '}' := by
    intro text hne h
    cases text with
    | nil => exact absurd rfl hne
    | cons c rest =>
      have hc := h c List.mem_cons_self
      have hother : ∀ d : Char, isNumeral d = false → c ≠ d := by
        intro d hd heq
        rw [heq, hd] at hc
        cases hc
      refine ⟨c, rest, rfl, ?_, hother _ (by decide), hother _ (by decide)⟩
      rw [kindOf, if_neg (hother _ (by decide)), if_neg, if_pos hc]
      rintro (h | h)
      · exact hother _ (by decide) h
      · exact hother _ (by decide) h
  cases hv with
  | null => exact ⟨_, _, rfl, by decide, by decide, by decide⟩
  | bool b =>
    cases b with
    | true => exact ⟨_, _, rfl, by decide, by decide, by decide⟩
    | false => exact ⟨_, _, rfl, by decide, by decide, by decide⟩
  | int n =>
    rw [dumps]
    exact hnumeral _ (dumpInt_ne_nil n) (isNumeral_dumpInt n)
  | @float text h =>
    rw [dumps]
    obtain ⟨c, hc, -⟩ := h.marked
    exact hnumeral _ (List.ne_nil_of_mem hc) h.numeral
  | str h => exact ⟨_, _, rfl, (by decide : kindOf '"' = 3), by decide, by decide⟩
  | arr h =>
    rw [dumps_arr_eq]
    exact ⟨_, _, rfl, (by decide : kindOf '[' = 4), by decide, by decide⟩
  | obj hkeys h =>
    rw [dumps_obj_eq]
    exact ⟨_, _, rfl, (by decide : kindOf '{' = 5), by decide, by decide⟩

/-- What follows the first of some texts with commas between them. -/
def more : List (List Char) → List Char
  | [] => []
  | text :: rest => ',' :: commas (text :: rest)

theorem commas_cons (text : List Char) (rest : List (List Char)) :
    commas (text :: rest) = text ++ more rest := by
  cases rest with
  | nil => rw [commas, more, List.append_nil]
  | cons text' rest => rfl

/-- Lists between brackets are told apart entry by entry. -/
theorem commas_cancel {R : α → β → Prop} {f : α → List Char} {g : β → List Char} {close : Char}
    (hclose : close = ']' ∨ close = '}') {xs : List α} {ys : List β}
    (hf : ∀ x ∈ xs, ∃ c rest, f x = c :: rest ∧ c ≠ close)
    (hg : ∀ y ∈ ys, ∃ c rest, g y = c :: rest ∧ c ≠ close)
    (hcancel : ∀ x ∈ xs, ∀ y ∈ ys, ∀ r s, Ended r → Ended s → f x ++ r = g y ++ s → R x y ∧ r = s)
    (heq : commas (xs.map f) ++ close :: r = commas (ys.map g) ++ close :: s) :
    List.Forall₂ R xs ys ∧ r = s := by
  have hcomma : ',' ≠ close := by
    rcases hclose with rfl | rfl <;> decide
  have hended : ∀ texts rest, Ended (more texts ++ close :: rest) := by
    intro texts rest c hc
    cases texts with
    | nil =>
      cases hc
      exact .inr hclose
    | cons text texts =>
      cases hc
      exact .inl rfl
  induction xs generalizing ys with
  | nil =>
    cases ys with
    | nil =>
      cases heq
      exact ⟨.nil, rfl⟩
    | cons y ys =>
      obtain ⟨c, rest, hy, hc⟩ := hg y List.mem_cons_self
      rw [List.map_cons, commas_cons, hy] at heq
      exact absurd (List.cons.inj heq).1.symm hc
  | cons x xs ih =>
    cases ys with
    | nil =>
      obtain ⟨c, rest, hx, hc⟩ := hf x List.mem_cons_self
      rw [List.map_cons, commas_cons, hx] at heq
      exact absurd (List.cons.inj heq).1 hc
    | cons y ys =>
      rw [List.map_cons, List.map_cons, commas_cons, commas_cons, List.append_assoc,
        List.append_assoc] at heq
      obtain ⟨hxy, hrest⟩ := hcancel x List.mem_cons_self y List.mem_cons_self _ _ (hended _ _)
        (hended _ _) heq
      have htail := ih (fun x hx => hf x (List.mem_cons_of_mem _ hx))
        (fun y hy => hg y (List.mem_cons_of_mem _ hy))
        fun x hx y hy => hcancel x (List.mem_cons_of_mem _ hx) y (List.mem_cons_of_mem _ hy)
      cases xs with
      | nil =>
        cases ys with
        | nil =>
          cases hrest
          exact ⟨.cons hxy .nil, rfl⟩
        | cons y' ys => exact absurd (List.cons.inj hrest).1.symm hcomma
      | cons x' xs =>
        cases ys with
        | nil => exact absurd (List.cons.inj hrest).1 hcomma
        | cons y' ys =>
          obtain ⟨hall, hr⟩ := htail (List.cons.inj hrest).2
          exact ⟨.cons hxy hall, hr⟩

theorem kind_eq (hv : Plain v) (hw : Plain w) (heq : dumps false v ++ r = dumps false w ++ s) :
    kind v = kind w := by
  obtain ⟨c, rest, hdump, hkind, -⟩ := dumps_head hv
  obtain ⟨c', rest', hdump', hkind', -⟩ := dumps_head hw
  rw [hdump, hdump'] at heq
  rw [← hkind, ← hkind', (List.cons.inj heq).1]

theorem sortedMembers_mem {members : List (CodePoints × Json)} (h : m ∈ sortedMembers members) :
    m ∈ members := (mem_pySorted _).mp h

theorem memberText_head (m : CodePoints × Json) : ∃ c rest, memberText false m = c :: rest ∧ c ≠ '}' :=
  ⟨'"', _, rfl, by decide⟩

/-- Numbers are told apart, an integer from a float too. -/
theorem number_cancel (hv : Plain v) (hw : Plain w) (hkind : kind v = 2) (hkind' : kind w = 2)
    (hr : Ended r) (hs : Ended s) (heq : dumps false v ++ r = dumps false w ++ s) :
    Same v w ∧ r = s := by
  have hmixed : ∀ (n : ℤ) (text : List Char), FloatText text → dumpInt n ≠ text := by
    intro n text htext h
    obtain ⟨c, hc, hmark⟩ := htext.marked
    rw [← h] at hc
    rcases numeral_dumpInt n c hc with hdigit | rfl
    · rcases hmark with rfl | rfl <;> cases hdigit
    · rcases hmark with h | h <;> cases h
  cases hv with
  | int n =>
    cases hw with
    | int m =>
      obtain ⟨htext, hrest⟩ :=
        numeral_cancel (isNumeral_dumpInt n) (isNumeral_dumpInt m) hr hs heq
      obtain rfl := dumpInt_injective htext
      exact ⟨.int n, hrest⟩
    | float h =>
      obtain ⟨htext, -⟩ := numeral_cancel (isNumeral_dumpInt n) h.numeral hr hs heq
      exact absurd htext (hmixed n _ h)
    | _ => cases hkind'
  | float h =>
    cases hw with
    | int m =>
      obtain ⟨htext, -⟩ := numeral_cancel h.numeral (isNumeral_dumpInt m) hr hs heq
      exact absurd htext.symm (hmixed m _ h)
    | float h' =>
      obtain ⟨rfl, hrest⟩ := numeral_cancel h.numeral h'.numeral hr hs heq
      exact ⟨.float _, hrest⟩
    | _ => cases hkind'
  | _ => cases hkind

/-- Texts of values that go on alike are those of the same value, up to the order of members. -/
theorem dumps_cancel (hv : Plain v) (hw : Plain w) (hr : Ended r) (hs : Ended s)
    (heq : dumps false v ++ r = dumps false w ++ s) : Same v w ∧ r = s := by
  induction v using induct generalizing w r s with
  | null =>
    have hkind := kind_eq hv hw heq
    cases hw with
    | null => exact ⟨.null, List.append_cancel_left heq⟩
    | _ => cases hkind
  | bool b =>
    have hkind := kind_eq hv hw heq
    cases hw with
    | bool b' =>
      cases b <;> cases b'
      · exact ⟨.bool false, List.append_cancel_left heq⟩
      · cases (List.cons.inj heq).1
      · cases (List.cons.inj heq).1
      · exact ⟨.bool true, List.append_cancel_left heq⟩
    | _ => cases hkind
  | int n => exact number_cancel hv hw rfl (kind_eq hv hw heq).symm hr hs heq
  | float text => exact number_cancel hv hw rfl (kind_eq hv hw heq).symm hr hs heq
  | str s' =>
    have hkind := kind_eq hv hw heq
    cases hv with
    | str hv =>
      cases hw with
      | str hw =>
        obtain ⟨rfl, hrest⟩ := dumpString_cancel hv hw heq
        exact ⟨.str _, hrest⟩
      | _ => cases hkind
  | arr items ih =>
    have hkind := kind_eq hv hw heq
    cases hv with
    | arr hv =>
      cases hw with
      | arr hw =>
        rw [dumps_arr_eq, dumps_arr_eq] at heq
        simp only [List.cons_append, List.append_assoc, List.cons.injEq, true_and] at heq
        have hhead : ∀ x, Plain x → ∃ c rest, dumps false x = c :: rest ∧ c ≠ ']' := by
          intro x hx
          obtain ⟨c, rest, hdump, -, hc, -⟩ := dumps_head hx
          exact ⟨c, rest, hdump, hc⟩
        obtain ⟨hall, hrest⟩ := commas_cancel (.inl rfl) (fun x hx => hhead x (hv x hx))
          (fun y hy => hhead y (hw y hy))
          (fun x hx y hy r s hr hs h => ih x hx (hv x hx) (hw y hy) hr hs h) heq
        exact ⟨.arr hall, hrest⟩
      | _ => cases hkind
  | obj members ih =>
    have hkind := kind_eq hv hw heq
    cases hv with
    | obj hkeys hv =>
      cases hw with
      | @obj members' hkeys' hw =>
        rw [dumps_obj_eq, dumps_obj_eq] at heq
        simp only [List.cons_append, List.append_assoc, List.cons.injEq, true_and] at heq
        obtain ⟨hall, hrest⟩ := commas_cancel (R := fun m n => m.1 = n.1 ∧ Same m.2 n.2) (.inr rfl)
          (fun m _ => memberText_head m) (fun n _ => memberText_head n)
          (fun m hm n hn r s hr hs h => by
            have hm := sortedMembers_mem hm
            have hn := sortedMembers_mem hn
            rw [memberText, memberText, List.append_assoc, List.append_assoc] at h
            obtain ⟨hkey, hvalue⟩ := dumpString_cancel (hkeys m hm) (hkeys' n hn) h
            obtain ⟨hsame, hrest⟩ := ih m hm (hv m hm) (hw n hn) hr hs (List.cons.inj hvalue).2
            exact ⟨⟨hkey, hsame⟩, hrest⟩) heq
        refine ⟨.obj (pySorted_perm _ _).symm (pySorted_perm _ _).symm
          (map_eq_of_forall₂ hall fun _ _ _ h => h.1) ?_, hrest⟩
        rw [List.forall₂_map_left_iff, List.forall₂_map_right_iff]
        exact hall.imp fun _ _ h => h.2
      | _ => cases hkind

/-- Values with the same text are the same up to the order of members. -/
theorem same_of_dumps_eq (hv : Plain v) (hw : Plain w) (h : dumps false v = dumps false w) : Same v w := by
  have hended : Ended [] := nofun
  refine (dumps_cancel hv hw hended hended ?_).1
  rw [h]

end Text

end QuantAgent.Json
