import Mathlib.Data.List.Basic
import Mathlib.Logic.Equiv.Defs
import Mathlib.Tactic

namespace QuantAgent
set_option autoImplicit true

/-- A JSON document as the Python values that hold it; a float keeps its digits. -/
inductive Doc
  | null
  | bool (b : Bool)
  | int (n : ℤ)
  | float (text : String)
  | str (s : String)
  | list (items : List Doc)
  | dict (members : List (String × Doc))

namespace Doc

/-- `d[key] = value` -/
def setKey (members : List (String × Doc)) (key : String) (value : Doc) : List (String × Doc) :=
  match members with
  | [] => [(key, value)]
  | m :: rest => if m.1 = key then (key, value) :: rest else m :: setKey rest key value

/-- `d.update(new)` -/
def update (members new : List (String × Doc)) : List (String × Doc) :=
  new.foldl (fun d m => setKey d m.1 m.2) members

theorem lookup_cons (m : String × Doc) (rest : List (String × Doc)) (name : String) :
    (m :: rest).lookup name = if name = m.1 then some m.2 else rest.lookup name := by
  rw [List.lookup_cons]
  by_cases hname : name = m.1
  · rw [if_pos hname, beq_iff_eq.mpr hname]
  · rw [if_neg hname, beq_eq_false_iff_ne.mpr hname]

theorem lookup_setKey (members : List (String × Doc)) (key name : String) (value : Doc) :
    (setKey members key value).lookup name = if name = key then some value else members.lookup name := by
  induction members with
  | nil => rw [setKey, lookup_cons]
  | cons m rest ih =>
    rw [setKey, lookup_cons]
    by_cases hm : m.1 = key
    · rw [if_pos hm, lookup_cons, hm]
      split
      · rfl
      · rfl
    · rw [if_neg hm, lookup_cons, ih]
      by_cases hname : name = m.1
      · rw [if_pos hname, if_pos hname, if_neg fun h => hm (hname.symm.trans h)]
      · rw [if_neg hname, if_neg hname]

theorem mem_setKey {members : List (String × Doc)} (h : m ∈ setKey members key value) :
    m.1 = key ∨ m ∈ members := by
  induction members with
  | nil => exact .inl (congrArg Prod.fst (List.mem_singleton.mp h))
  | cons first rest ih =>
    rw [setKey] at h
    split at h
    · rcases List.mem_cons.mp h with rfl | h
      · exact .inl rfl
      · exact .inr (List.mem_cons_of_mem _ h)
    · rcases List.mem_cons.mp h with rfl | h
      · exact .inr (List.mem_cons_self ..)
      · exact (ih h).imp_right (List.mem_cons_of_mem _)

theorem mem_update {members new : List (String × Doc)} (h : m ∈ update members new) :
    m.1 ∈ new.map Prod.fst ∨ m ∈ members := by
  induction new generalizing members with
  | nil => exact .inr h
  | cons n new ih =>
    rcases ih h with h | h
    · exact .inl (List.mem_cons_of_mem _ h)
    · refine (mem_setKey h).imp_left fun hm => ?_
      rw [List.map_cons, hm]
      exact List.mem_cons_self ..

theorem lookup_update_of_notMem {members new : List (String × Doc)}
    (h : name ∉ new.map Prod.fst) : (update members new).lookup name = members.lookup name := by
  induction new generalizing members with
  | nil => rfl
  | cons n new ih =>
    rw [List.map_cons, List.mem_cons, not_or] at h
    exact (ih h.2).trans ((lookup_setKey ..).trans (if_neg h.1))

theorem lookup_of_mem {members : List (String × Doc)} (h : (members.map Prod.fst).Nodup)
    (hm : m ∈ members) : members.lookup m.1 = some m.2 := by
  induction members with
  | nil => cases hm
  | cons first rest ih =>
    rw [List.map_cons, List.nodup_cons] at h
    rcases List.mem_cons.mp hm with rfl | hm
    · rw [lookup_cons, if_pos rfl]
    · have hne : m.1 ≠ first.1 := fun he => h.1 (he ▸ List.mem_map_of_mem hm)
      rw [lookup_cons, if_neg hne, ih h.2 hm]

/-- Every entry of an update with distinct keys is there afterwards. -/
theorem lookup_update_of_mem {members new : List (String × Doc)} (h : (new.map Prod.fst).Nodup)
    (hm : m ∈ new) : (update members new).lookup m.1 = some m.2 := by
  induction new generalizing members with
  | nil => cases hm
  | cons n new ih =>
    rw [List.map_cons, List.nodup_cons] at h
    rcases List.mem_cons.mp hm with rfl | hm
    · exact (lookup_update_of_notMem h.1).trans ((lookup_setKey ..).trans (if_pos rfl))
    · exact ih h.2 hm

end Doc

/-- How values of a type are written to a document and read from one. `Stable` are the values that
read back as they were written. -/
structure Codec (α : Type) where
  dump : α → Doc
  validate : Doc → Option α
  Stable : α → Prop
  dump_ne_null : ∀ a, dump a ≠ .null
  validate_dump : ∀ a, validate (dump a) = some a ↔ Stable a

namespace Codec

def text : Codec String where
  dump := .str
  validate
    | .str s => some s
    | _ => none
  Stable _ := True
  dump_ne_null _ := nofun
  validate_dump _ := iff_of_true rfl trivial

def flag : Codec Bool where
  dump := .bool
  validate
    | .bool b => some b
    | _ => none
  Stable _ := True
  dump_ne_null _ := nofun
  validate_dump _ := iff_of_true rfl trivial

def int : Codec ℤ where
  dump := .int
  validate
    | .int n => some n
    | _ => none
  Stable _ := True
  dump_ne_null _ := nofun
  validate_dump _ := iff_of_true rfl trivial

/-- The values of a codec that pass a check of their own. -/
def refine (c : Codec α) (p : α → Bool) : Codec {a : α // p a = true} where
  dump a := c.dump a.1
  validate d := (c.validate d).bind fun a => if h : p a = true then some ⟨a, h⟩ else none
  Stable a := c.Stable a.1
  dump_ne_null a := c.dump_ne_null a.1
  validate_dump a := by
    rw [← c.validate_dump, Option.bind_eq_some_iff]
    constructor
    · rintro ⟨b, hb, h⟩
      split at h
      · rw [hb]
        exact congrArg (some ·.1) (Option.some.inj h)
      · cases h
    · exact fun h => ⟨a.1, h, dif_pos a.2⟩

/-- A check on what was read, of values that need not pass it. -/
def checked (c : Codec α) (p : α → Bool) : Codec α where
  dump := c.dump
  validate d := (c.validate d).filter p
  Stable a := c.Stable a ∧ p a = true
  dump_ne_null := c.dump_ne_null
  validate_dump a := by rw [Option.filter_eq_some_iff, c.validate_dump]

/-- The members of an enumeration by their names. -/
def enum (name : α → String) (members : List α)
    (h : ∀ a, members.find? (fun b => name b == name a) = some a) : Codec α where
  dump a := .str (name a)
  validate
    | .str s => members.find? fun b => name b == s
    | _ => none
  Stable _ := True
  dump_ne_null _ := nofun
  validate_dump a := iff_of_true (h a) trivial

theorem mapM_dump (c : Codec α) (l : List α) :
    (l.map c.dump).mapM c.validate = some l ↔ ∀ a ∈ l, c.Stable a := by
  induction l with
  | nil => simp
  | cons a l ih =>
    rw [List.map_cons, List.mapM_cons, List.forall_mem_cons, ← ih, ← c.validate_dump]
    simp only [Option.bind_eq_bind, Option.bind_eq_some_iff, Option.pure_def, Option.some.injEq,
      List.cons.injEq]
    constructor
    · rintro ⟨b, hb, bs, hbs, rfl, rfl⟩
      exact ⟨hb, hbs⟩
    · rintro ⟨ha, hl⟩
      exact ⟨a, ha, l, hl, rfl, rfl⟩

def list (c : Codec α) : Codec (List α) where
  dump l := .list (l.map c.dump)
  validate
    | .list items => items.mapM c.validate
    | _ => none
  Stable l := ∀ a ∈ l, c.Stable a
  dump_ne_null _ := nofun
  validate_dump l := c.mapM_dump l

/-- A value under its key. -/
def entry (c : Codec α) (m : String × Doc) : Option (String × α) := (c.validate m.2).map (m.1, ·)

/-- `dict[str, α]` -/
def table (c : Codec α) : Codec (List (String × α)) where
  dump l := .dict (l.map fun m => (m.1, c.dump m.2))
  validate
    | .dict members => members.mapM c.entry
    | _ => none
  Stable l := ∀ m ∈ l, c.Stable m.2
  dump_ne_null _ := nofun
  validate_dump l := by
    induction l with
    | nil => simp
    | cons m l ih =>
      simp only at ih ⊢
      rw [List.map_cons, List.mapM_cons, List.forall_mem_cons, ← ih, ← c.validate_dump]
      simp only [entry, Option.bind_eq_bind, Option.bind_eq_some_iff, Option.pure_def,
        Option.some.injEq, List.cons.injEq, Option.map_eq_some_iff]
      constructor
      · rintro ⟨n, ⟨b, hb, rfl⟩, bs, hbs, hm, rfl⟩
        exact ⟨hb.trans (congrArg (some ·.2) hm), hbs⟩
      · rintro ⟨hm, hl⟩
        exact ⟨m, ⟨m.2, hm, rfl⟩, l, hl, rfl, rfl⟩

def dumpOption (c : Codec α) : Option α → Doc
  | none => .null
  | some a => c.dump a

/-- A field that may be missing or null. -/
def validateOption (c : Codec α) : Option Doc → Option (Option α)
  | none => some none
  | some .null => some none
  | some d => (c.validate d).map some

theorem validateOption_dump (c : Codec α) (o : Option α) :
    c.validateOption (some (c.dumpOption o)) = some o ↔ ∀ a ∈ o, c.Stable a := by
  cases o with
  | none => exact iff_of_true rfl nofun
  | some a =>
    have hread : c.validateOption (some (c.dump a)) = (c.validate (c.dump a)).map some := by
      rw [validateOption.eq_3]
      exact fun h => c.dump_ne_null a h
    simp [dumpOption, hread, c.validate_dump]

end Codec

/-- The fields of a record: what they write, and how they are read from a lookup. -/
structure Fields (ρ : Type) where
  names : List String
  dump : ρ → List (String × Doc)
  read : (String → Option Doc) → Option ρ
  Stable : ρ → Prop
  names_eq : ∀ r, (dump r).map Prod.fst = names
  read_dump : ∀ r get, (∀ m ∈ dump r, get m.1 = some m.2) → (read get = some r ↔ Stable r)

namespace Fields

def required (name : String) (c : Codec α) : Fields α where
  names := [name]
  dump a := [(name, c.dump a)]
  read get := (get name).bind c.validate
  Stable := c.Stable
  names_eq _ := rfl
  read_dump a get h := by
    rw [h _ (List.mem_singleton.mpr rfl), Option.bind_some]
    exact c.validate_dump a

def nullable (name : String) (c : Codec α) : Fields (Option α) where
  names := [name]
  dump o := [(name, c.dumpOption o)]
  read get := c.validateOption (get name)
  Stable o := ∀ a ∈ o, c.Stable a
  names_eq _ := rfl
  read_dump o get h := by
    rw [h _ (List.mem_singleton.mpr rfl)]
    exact c.validateOption_dump o

def defaulted (name : String) (c : Codec α) (default : α) : Fields α where
  names := [name]
  dump a := [(name, c.dump a)]
  read get := (get name).elim (some default) c.validate
  Stable := c.Stable
  names_eq _ := rfl
  read_dump a get h := by
    rw [h _ (List.mem_singleton.mpr rfl), Option.elim_some]
    exact c.validate_dump a

/-- Two groups of fields, read one after the other. -/
def and (f : Fields ρ) (g : Fields σ) : Fields (ρ × σ) where
  names := f.names ++ g.names
  dump r := f.dump r.1 ++ g.dump r.2
  read get := (f.read get).bind fun a => (g.read get).map fun b => (a, b)
  Stable r := f.Stable r.1 ∧ g.Stable r.2
  names_eq r := by rw [List.map_append, f.names_eq, g.names_eq]
  read_dump r get h := by
    have hf := f.read_dump r.1 get fun m hm => h m (List.mem_append_left _ hm)
    have hg := g.read_dump r.2 get fun m hm => h m (List.mem_append_right _ hm)
    rw [← hf, ← hg]
    simp only [Option.bind_eq_some_iff, Option.map_eq_some_iff]
    constructor
    · rintro ⟨a, ha, b, hb, rfl⟩
      exact ⟨ha, hb⟩
    · rintro ⟨ha, hb⟩
      exact ⟨r.1, ha, r.2, hb, rfl⟩

/-- The same fields for a structure of the values they read. -/
def imap (f : Fields ρ) (e : ρ ≃ σ) : Fields σ where
  names := f.names
  dump s := f.dump (e.symm s)
  read get := (f.read get).map e
  Stable s := f.Stable (e.symm s)
  names_eq s := f.names_eq _
  read_dump s get h := by
    rw [← f.read_dump (e.symm s) get h, Option.map_eq_some_iff]
    constructor
    · rintro ⟨r, hr, rfl⟩
      rw [hr, e.symm_apply_apply]
    · exact fun hr => ⟨_, hr, e.apply_symm_apply s⟩

/-- A dictionary with these fields and no other. -/
def validate (f : Fields ρ) : Doc → Option ρ
  | .dict members =>
    if members.all (fun m => decide (m.1 ∈ f.names)) then f.read fun name => members.lookup name
    else none
  | _ => none

/-- A document that has what the fields write, and nothing else, is read as the record. -/
theorem validate_of_agrees (f : Fields ρ) (r : ρ) {members : List (String × Doc)}
    (hnames : ∀ m ∈ members, m.1 ∈ f.names) (h : ∀ m ∈ f.dump r, members.lookup m.1 = some m.2) :
    f.validate (.dict members) = some r ↔ f.Stable r := by
  have hall : members.all (fun m => decide (m.1 ∈ f.names)) = true :=
    List.all_eq_true.mpr fun m hm => decide_eq_true (hnames m hm)
  rw [validate, if_pos hall]
  exact f.read_dump r _ h

end Fields

namespace Codec

def record (f : Fields ρ) (h : f.names.Nodup) : Codec ρ where
  dump r := .dict (f.dump r)
  validate := f.validate
  Stable := f.Stable
  dump_ne_null _ := nofun
  validate_dump r := by
    apply f.validate_of_agrees r
    · exact fun m hm => f.names_eq r ▸ List.mem_map_of_mem hm
    · exact fun m hm => Doc.lookup_of_mem ((f.names_eq r).symm ▸ h) hm

end Codec

/-- A value of a field of type `Any`: JSON, or a value of another type with what it is dumped as. -/
inductive AnyValue
  | null
  | bool (b : Bool)
  | int (n : ℤ)
  | float (text : String)
  | str (s : String)
  | list (items : List AnyValue)
  | dict (members : List (String × AnyValue))
  | object (dumped : Doc)

namespace AnyValue

mutual

def dump : AnyValue → Doc
  | .null => .null
  | .bool b => .bool b
  | .int n => .int n
  | .float text => .float text
  | .str s => .str s
  | .list items => .list (dumpItems items)
  | .dict members => .dict (dumpMembers members)
  | .object dumped => dumped

def dumpItems : List AnyValue → List Doc
  | [] => []
  | item :: items => item.dump :: dumpItems items

def dumpMembers : List (String × AnyValue) → List (String × Doc)
  | [] => []
  | (name, value) :: members => (name, value.dump) :: dumpMembers members

end

mutual

/-- A document is taken as it is. -/
def load : Doc → AnyValue
  | .null => .null
  | .bool b => .bool b
  | .int n => .int n
  | .float text => .float text
  | .str s => .str s
  | .list items => .list (loadItems items)
  | .dict members => .dict (loadMembers members)

def loadItems : List Doc → List AnyValue
  | [] => []
  | item :: items => load item :: loadItems items

def loadMembers : List (String × Doc) → List (String × AnyValue)
  | [] => []
  | (name, value) :: members => (name, load value) :: loadMembers members

end

mutual

/-- JSON through and through. -/
def plain : AnyValue → Bool
  | .list items => plainItems items
  | .dict members => plainMembers members
  | .object _ => false
  | _ => true

def plainItems : List AnyValue → Bool
  | [] => true
  | item :: items => item.plain && plainItems items

def plainMembers : List (String × AnyValue) → Bool
  | [] => true
  | (_, value) :: members => value.plain && plainMembers members

end

theorem load_ne_object (d dumped : Doc) : load d ≠ .object dumped := by
  cases d <;> nofun

mutual

theorem load_dump (v : AnyValue) : load v.dump = v ↔ v.plain = true := by
  cases v with
  | list items =>
    rw [dump, load, plain, ← loadItems_dump items]
    exact ⟨AnyValue.list.inj, congrArg _⟩
  | dict members =>
    rw [dump, load, plain, ← loadMembers_dump members]
    exact ⟨AnyValue.dict.inj, congrArg _⟩
  | object dumped => exact iff_of_false (load_ne_object _ _) nofun
  | _ => exact iff_of_true rfl rfl

theorem loadItems_dump (items : List AnyValue) :
    loadItems (dumpItems items) = items ↔ plainItems items = true := by
  cases items with
  | nil => exact iff_of_true rfl rfl
  | cons item items =>
    rw [dumpItems, loadItems, plainItems, List.cons.injEq, Bool.and_eq_true, load_dump item,
      loadItems_dump items]

theorem loadMembers_dump (members : List (String × AnyValue)) :
    loadMembers (dumpMembers members) = members ↔ plainMembers members = true := by
  cases members with
  | nil => exact iff_of_true rfl rfl
  | cons m members =>
    obtain ⟨name, value⟩ := m
    rw [dumpMembers, loadMembers, plainMembers, List.cons.injEq, Bool.and_eq_true,
      Prod.mk.injEq, load_dump value, loadMembers_dump members, eq_self, true_and]

end

end AnyValue

/-- `dict[str, Any]` -/
def Codec.anyTable : Codec (List (String × AnyValue)) where
  dump l := .dict (AnyValue.dumpMembers l)
  validate
    | .dict members => some (AnyValue.loadMembers members)
    | _ => none
  Stable l := AnyValue.plainMembers l = true
  dump_ne_null _ := nofun
  validate_dump l := by
    rw [← AnyValue.loadMembers_dump]
    exact Option.some_inj

/-- The members other than the one of a key. -/
def Doc.without (key : String) (members : List (String × Doc)) : List (String × Doc) :=
  members.filter fun m => decide (m.1 ≠ key)

theorem Fields.without_dump (f : Fields ρ) (r : ρ) {key : String} {value : Doc} (h : key ∉ f.names) :
    Doc.without key ((key, value) :: f.dump r) = f.dump r := by
  rw [Doc.without, List.filter_cons, if_neg (by simp), List.filter_eq_self]
  intro m hm
  apply decide_eq_true
  rintro rfl
  exact h (f.names_eq r ▸ List.mem_map_of_mem hm)

theorem map_eq_some_of_injective {f : α → β} (hf : Function.Injective f) {o : Option α} :
    o.map f = some (f a) ↔ o = some a := by
  rw [Option.map_eq_some_iff]
  exact ⟨fun ⟨b, hb, he⟩ => hf he ▸ hb, fun h => ⟨a, h, rfl⟩⟩

/-- One of two models, told apart by the text of a field that both have. -/
def Codec.tagged (key first second : String) (hne : first ≠ second) (f : Fields ρ) (g : Fields σ)
    (hf : (key :: f.names).Nodup) (hg : (key :: g.names).Nodup) : Codec (ρ ⊕ σ) where
  dump
    | .inl r => .dict ((key, .str first) :: f.dump r)
    | .inr s => .dict ((key, .str second) :: g.dump s)
  validate
    | .dict members =>
      match members.lookup key with
      | some (.str tag) =>
        if tag = first then (f.validate (.dict (Doc.without key members))).map .inl
        else if tag = second then (g.validate (.dict (Doc.without key members))).map .inr
        else none
      | _ => none
    | _ => none
  Stable
    | .inl r => f.Stable r
    | .inr s => g.Stable s
  dump_ne_null r := by cases r <;> nofun
  validate_dump r := by
    rw [List.nodup_cons] at hf hg
    cases r with
    | inl r =>
      simp only [Doc.lookup_cons, if_true, f.without_dump r hf.1]
      rw [map_eq_some_of_injective Sum.inl_injective]
      exact (Codec.record f hf.2).validate_dump r
    | inr s =>
      simp only [Doc.lookup_cons, if_true, if_neg hne.symm, g.without_dump s hg.1]
      rw [map_eq_some_of_injective Sum.inr_injective]
      exact (Codec.record g hg.2).validate_dump s

section
variable {c : Codec α} {f : Fields ρ} {g : Fields σ}

@[simp] theorem Codec.text_stable (s : String) : Codec.text.Stable s := trivial

@[simp] theorem Codec.flag_stable (b : Bool) : Codec.flag.Stable b := trivial

@[simp] theorem Codec.int_stable (n : ℤ) : Codec.int.Stable n := trivial

@[simp] theorem Codec.enum_stable {name : α → String} {members : List α}
    (h : ∀ a, members.find? (fun b => name b == name a) = some a) (a : α) :
    (Codec.enum name members h).Stable a := trivial

@[simp] theorem Codec.refine_stable {p : α → Bool} (a : {a // p a = true}) :
    (c.refine p).Stable a ↔ c.Stable a.1 := Iff.rfl

@[simp] theorem Codec.checked_stable {p : α → Bool} (a : α) :
    (c.checked p).Stable a ↔ c.Stable a ∧ p a = true := Iff.rfl

@[simp] theorem Codec.list_stable (l : List α) : c.list.Stable l ↔ ∀ a ∈ l, c.Stable a := Iff.rfl

@[simp] theorem Codec.table_stable (l : List (String × α)) :
    c.table.Stable l ↔ ∀ m ∈ l, c.Stable m.2 := Iff.rfl

@[simp] theorem Codec.anyTable_stable (l : List (String × AnyValue)) :
    Codec.anyTable.Stable l ↔ AnyValue.plainMembers l = true := Iff.rfl

@[simp] theorem Codec.record_stable (h : f.names.Nodup) (r : ρ) :
    (Codec.record f h).Stable r ↔ f.Stable r := Iff.rfl

@[simp] theorem Fields.required_stable {name : String} (a : α) :
    (Fields.required name c).Stable a ↔ c.Stable a := Iff.rfl

@[simp] theorem Fields.nullable_stable {name : String} (o : Option α) :
    (Fields.nullable name c).Stable o ↔ ∀ a ∈ o, c.Stable a := Iff.rfl

@[simp] theorem Fields.defaulted_stable {name : String} {default : α} (a : α) :
    (Fields.defaulted name c default).Stable a ↔ c.Stable a := Iff.rfl

@[simp] theorem Fields.and_stable (r : ρ × σ) :
    (f.and g).Stable r ↔ f.Stable r.1 ∧ g.Stable r.2 := Iff.rfl

@[simp] theorem Fields.imap_stable (e : ρ ≃ σ) (s : σ) :
    (f.imap e).Stable s ↔ f.Stable (e.symm s) := Iff.rfl

end

end QuantAgent
