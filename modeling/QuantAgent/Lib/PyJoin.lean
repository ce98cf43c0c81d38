import QuantAgent.Lib.PyText

namespace QuantAgent
set_option autoImplicit true

/-- `needle in s` -/
def pyContains (needle s : String) : Bool := decide (needle.toList <:+: s.toList)

/-- `sep.join(parts)` for one character, on the characters of the parts. -/
def joinChars (sep : Char) : List (List Char) → List Char
  | [] => []
  | [part] => part
  | part :: parts => part ++ sep :: joinChars sep parts

/-- `sep.join(parts)` -/
def pyJoin (sep : Char) (parts : List String) : String :=
  String.ofList (joinChars sep (parts.map String.toList))

/-- `[item for item in s.split(sep) if item]` -/
def splitItems (sep : Char) (s : String) : List String :=
  ((pySplit sep s.toList).filter fun part => part ≠ []).map String.ofList

theorem pySplit_joinChars {sep : Char} {parts : List (List Char)} (hne : parts ≠ [])
    (h : ∀ part ∈ parts, sep ∉ part) : pySplit sep (joinChars sep parts) = parts := by
  induction parts with
  | nil => exact absurd rfl hne
  | cons part parts ih =>
    cases parts with
    | nil => exact pySplit_of_notMem (h part List.mem_cons_self)
    | cons next parts =>
      rw [joinChars, pySplit_append_cons (h part List.mem_cons_self),
        ih nofun fun part hmem => h part (List.mem_cons_of_mem _ hmem)]
      exact nofun

/-- Parts that are not empty and do not hold the separator come back as they were joined. -/
theorem splitItems_pyJoin {sep : Char} {parts : List String}
    (h : ∀ part ∈ parts, part ≠ "" ∧ sep ∉ part.toList) : splitItems sep (pyJoin sep parts) = parts := by
  cases hparts : parts with
  | nil => rfl
  | cons first rest =>
    have hne : parts.map String.toList ≠ [] := by simp [hparts]
    have hsep : ∀ part ∈ parts.map String.toList, sep ∉ part := by
      intro part hmem
      obtain ⟨text, htext, rfl⟩ := List.mem_map.mp hmem
      exact (h text htext).2
    have hkeep : ∀ part ∈ parts.map String.toList, decide (part ≠ []) = true := by
      intro part hmem
      obtain ⟨text, htext, rfl⟩ := List.mem_map.mp hmem
      exact decide_eq_true fun hnil => (h text htext).1 (String.toList_eq_nil_iff.mp hnil)
    rw [← hparts, splitItems, pyJoin, String.toList_ofList, pySplit_joinChars hne hsep,
      List.filter_eq_self.mpr hkeep, List.map_map]
    exact (List.map_congr_left fun text _ => String.ofList_toList).trans (List.map_id _)

end QuantAgent
