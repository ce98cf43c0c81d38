import Mathlib.Data.List.Basic
import Mathlib.Tactic

namespace QuantAgent
set_option autoImplicit true

theorem bind_ok_iff {x : Except ε α} {f : α → Except ε β} :
    x >>= f = .ok b ↔ ∃ a, x = .ok a ∧ f a = .ok b := by
  cases x with
  | error e =>
    constructor
    · intro h
      cases h
    · rintro ⟨a, h, -⟩
      cases h
  | ok a =>
    constructor
    · exact fun h => ⟨a, rfl, h⟩
    · rintro ⟨a', h, hf⟩
      cases h
      exact hf

theorem map_ok_iff {x : Except ε α} {f : α → β} :
    f <$> x = .ok b ↔ ∃ a, x = .ok a ∧ f a = b := by
  cases x with
  | error e =>
    constructor
    · intro h
      cases h
    · rintro ⟨a, h, -⟩
      cases h
  | ok a =>
    constructor
    · exact fun h => ⟨a, rfl, Except.ok.inj h⟩
    · rintro ⟨a', h, hf⟩
      cases h
      exact congrArg Except.ok hf

/-- Sequencing respects an agreement of two computations up to a view of their results. -/
theorem map_bind_congr {x : Except ε α} {y : Except ε α'} {f : α → Except ε β}
    {g : α' → Except ε β'} {v : α → γ} {w : α' → γ} {v' : β → δ} {w' : β' → δ}
    (h : x.map v = y.map w) (hfg : ∀ a b, v a = w b → (f a).map v' = (g b).map w') :
    (x >>= f).map v' = (y >>= g).map w' := by
  cases x with
  | error e =>
    cases y with
    | error e' => exact congrArg Except.error (Except.error.inj h)
    | ok b => cases h
  | ok a =>
    cases y with
    | error e' => cases h
    | ok b => exact hfg a b (Except.ok.inj h)

theorem map_bind_same {x : Except ε α} {f : α → Except ε β} {g : α → Except ε β'} {v : β → δ}
    {w : β' → δ} (h : ∀ a, (f a).map v = (g a).map w) : (x >>= f).map v = (x >>= g).map w := by
  cases x with
  | error e => rfl
  | ok a => exact h a

theorem map_ite_congr {c d : Prop} [Decidable c] [Decidable d] {x y : Except ε α}
    {x' y' : Except ε α'} {v : α → δ} {w : α' → δ} (hcd : c ↔ d) (hx : x.map v = x'.map w)
    (hy : y.map v = y'.map w) :
    (if c then x else y).map v = (if d then x' else y').map w := by
  by_cases hc : c
  · rw [if_pos hc, if_pos (hcd.mp hc), hx]
  · rw [if_neg hc, if_neg (hcd.not.mp hc), hy]

theorem ok_bind (a : α) (f : α → Except ε β) : (Except.ok a >>= f) = f a := rfl

theorem pure_ok_iff {a b : α} : (pure a : Except ε α) = .ok b ↔ a = b :=
  ⟨fun h => Except.ok.inj h, fun h => congrArg Except.ok h⟩

theorem exists_ok {x : Except ε α} (h : x.isOk = true) : ∃ a, x = .ok a := by
  cases x with
  | error e => cases h
  | ok a => exact ⟨a, rfl⟩

/-- A loop over a list that may raise; each step emits entries, collected in order. -/
def traceM (step : σ → α → Except ε (σ × List β)) : σ → List α → Except ε (σ × List β)
  | s, [] => pure (s, [])
  | s, a :: as => do
    let r ← step s a
    let q ← traceM step r.1 as
    pure (q.1, r.2 ++ q.2)

section
variable {step : σ → α → Except ε (σ × List β)}

@[simp] theorem traceM_nil : traceM step s [] = .ok (s, []) := rfl

theorem traceM_cons_ok :
    traceM step s (a :: as) = .ok (t, out) ↔
      ∃ s' o₁ o₂, step s a = .ok (s', o₁) ∧ traceM step s' as = .ok (t, o₂) ∧
        out = o₁ ++ o₂ := by
  rw [traceM, bind_ok_iff]
  constructor
  · rintro ⟨⟨s', o₁⟩, h₁, h⟩
    obtain ⟨⟨t', o₂⟩, h₂, h₃⟩ := bind_ok_iff.mp h
    cases pure_ok_iff.mp h₃
    exact ⟨s', o₁, o₂, h₁, h₂, rfl⟩
  · rintro ⟨s', o₁, o₂, h₁, h₂, rfl⟩
    exact ⟨(s', o₁), h₁, bind_ok_iff.mpr ⟨(t, o₂), h₂, rfl⟩⟩

theorem traceM_append_ok :
    traceM step s (as ++ bs) = .ok (t, out) ↔
      ∃ s' o₁ o₂, traceM step s as = .ok (s', o₁) ∧ traceM step s' bs = .ok (t, o₂) ∧
        out = o₁ ++ o₂ := by
  induction as generalizing s out with
  | nil =>
    constructor
    · exact fun h => ⟨s, [], out, rfl, h, rfl⟩
    · rintro ⟨s', o₁, o₂, h₁, h₂, rfl⟩
      cases h₁
      exact h₂
  | cons a as ih =>
    rw [List.cons_append, traceM_cons_ok]
    constructor
    · rintro ⟨s', o₁, o₂, h₁, h₂, rfl⟩
      obtain ⟨s'', o₃, o₄, h₃, h₄, rfl⟩ := ih.mp h₂
      exact ⟨s'', o₁ ++ o₃, o₄, traceM_cons_ok.mpr ⟨s', o₁, o₃, h₁, h₃, rfl⟩, h₄,
        (List.append_assoc _ _ _).symm⟩
    · rintro ⟨s', o₁, o₂, h₁, h₂, rfl⟩
      obtain ⟨s'', o₃, o₄, h₃, h₄, rfl⟩ := traceM_cons_ok.mp h₁
      exact ⟨s'', o₃, o₄ ++ o₂, h₃, ih.mpr ⟨s', o₄, o₂, h₄, h₂, rfl⟩,
        List.append_assoc _ _ _⟩

theorem traceM_snoc_ok (h : traceM step s as = .ok (t, out)) (hstep : step t a = .ok (t', o)) :
    traceM step s (as ++ [a]) = .ok (t', out ++ o) :=
  traceM_append_ok.mpr ⟨t, out, o, h, traceM_cons_ok.mpr ⟨t', o, [], hstep, rfl, by simp⟩, rfl⟩

/-- Items that neither move the state nor emit can be left out. -/
theorem traceM_filter {p : α → Bool} (h : ∀ s a, p a = false → step s a = .ok (s, []))
    (s : σ) (as : List α) : traceM step s as = traceM step s (as.filter p) := by
  induction as generalizing s with
  | nil => rfl
  | cons a as ih =>
    cases hp : p a with
    | true =>
      rw [List.filter_cons_of_pos hp, traceM, traceM]
      simp only [ih]
    | false =>
      rw [List.filter_cons_of_neg (by simp [hp]), traceM, h s a hp, ← ih]
      change (traceM step s as >>= fun q => pure (q.1, [] ++ q.2)) = traceM step s as
      cases traceM step s as <;> rfl

theorem traceM_congr {step' : σ → α → Except ε (σ × List β)}
    (h : ∀ s, ∀ a ∈ as, step s a = step' s a) (s : σ) : traceM step s as = traceM step' s as := by
  induction as generalizing s with
  | nil => rfl
  | cons a as ih =>
    rw [traceM, traceM, h s a (List.mem_cons_self ..)]
    have ih := ih fun s a ha => h s a (List.mem_cons_of_mem _ ha)
    simp only [ih]

/-- What every step keeps of the items done, the entries so far and the state, a loop keeps. -/
theorem traceM_run {I : List α → List β → σ → Prop} (h : traceM step s as = .ok (t, out))
    (hs : I d l s)
    (hstep : ∀ done' rest log s a s' o, d ++ as = done' ++ a :: rest → I done' log s →
      step s a = .ok (s', o) → I (done' ++ [a]) (log ++ o) s') :
    I (d ++ as) (l ++ out) t := by
  induction as generalizing s d l out with
  | nil =>
    cases h
    simpa using hs
  | cons a as ih =>
    obtain ⟨s', o₁, o₂, h₁, h₂, rfl⟩ := traceM_cons_ok.mp h
    have hdone : d ++ a :: as = (d ++ [a]) ++ as := (List.append_cons _ _ _)
    rw [← List.append_assoc, hdone]
    apply ih h₂
    · exact hstep d as l s a s' o₁ rfl hs h₁
    · intro done' rest log s b s' o hsplit
      exact hstep done' rest log s b s' o (hdone.trans hsplit)

theorem traceM_preserves {I : List β → σ → Prop} (h : traceM step s as = .ok (t, out))
    (hs : I l s)
    (hstep : ∀ log s a s' o, a ∈ as → I log s → step s a = .ok (s', o) → I (log ++ o) s') :
    I (l ++ out) t := by
  refine traceM_run (I := fun _ => I) (d := []) h hs ?_
  intro done rest log s a s' o hsplit
  apply hstep log s a s' o
  rw [← List.nil_append as, hsplit]
  exact List.mem_append_right _ (List.mem_cons_self ..)

/-- A loop whose steps all return returns. -/
theorem traceM_returns {P : σ → Prop} (hs : P s)
    (hstep : ∀ s, ∀ a ∈ as, P s → ∃ r, step s a = .ok r ∧ P r.1) :
    ∃ r, traceM step s as = .ok r ∧ P r.1 := by
  induction as generalizing s with
  | nil => exact ⟨(s, []), rfl, hs⟩
  | cons a as ih =>
    obtain ⟨r, hr, hP⟩ := hstep s a (List.mem_cons_self ..) hs
    obtain ⟨q, hq, hQ⟩ := ih hP fun s b hb => hstep s b (List.mem_cons_of_mem _ hb)
    exact ⟨(q.1, r.2 ++ q.2), by rw [traceM, hr, ok_bind, hq]; rfl, hQ⟩

theorem traceM_state {P : σ → Prop} (h : traceM step s as = .ok (t, out)) (hs : P s)
    (hstep : ∀ s a s' o, a ∈ as → P s → step s a = .ok (s', o) → P s') : P t :=
  traceM_preserves (I := fun _ s => P s) (l := []) h hs fun _ s a s' o => hstep s a s' o

/-- Every entry of a loop was emitted by one of its steps. -/
theorem traceM_mem (h : traceM step s as = .ok (t, out)) (he : e ∈ out) :
    ∃ done a rest s' log s'' o, as = done ++ a :: rest ∧ traceM step s done = .ok (s', log) ∧
      step s' a = .ok (s'', o) ∧ e ∈ o := by
  induction as generalizing s out with
  | nil =>
    cases h
    cases he
  | cons a as ih =>
    obtain ⟨s₁, o₁, o₂, h₁, h₂, rfl⟩ := traceM_cons_ok.mp h
    rcases List.mem_append.mp he with he | he
    · exact ⟨[], a, as, s, [], s₁, o₁, rfl, rfl, h₁, he⟩
    · obtain ⟨done, b, rest, s', log, s'', o, rfl, hdone, hstep, hmem⟩ := ih h₂ he
      exact ⟨a :: done, b, rest, s', o₁ ++ log, s'', o, rfl,
        traceM_cons_ok.mpr ⟨s₁, o₁, log, h₁, hdone, rfl⟩, hstep, hmem⟩

/-- A loop whose steps each emit one visible entry emits one for every item. -/
theorem traceM_forall₂ {P : σ → Prop} {p : β → Option δ} {R : α → δ → Prop}
    (h : traceM step s as = .ok (t, out)) (hs : P s)
    (hstep : ∀ s a s' o, a ∈ as → P s → step s a = .ok (s', o) →
      P s' ∧ ∃ b, o.filterMap p = [b] ∧ R a b) : List.Forall₂ R as (out.filterMap p) := by
  have hI := traceM_run (I := fun done log s => P s ∧ List.Forall₂ R done (log.filterMap p))
    (d := []) (l := []) h ⟨hs, .nil⟩ ?_
  · exact hI.2
  · intro done rest log s a s' o hsplit ⟨hP, hR⟩ hst
    have ha : a ∈ as := by
      rw [← List.nil_append as, hsplit]
      exact List.mem_append_right _ (List.mem_cons_self ..)
    obtain ⟨hP', b, hb, hab⟩ := hstep s a s' o ha hP hst
    refine ⟨hP', ?_⟩
    rw [List.filterMap_append, hb]
    exact List.rel_append hR (.cons hab .nil)

theorem traceM_filterMap_nil {P : σ → Prop} {p : β → Option δ}
    (h : traceM step s as = .ok (t, out)) (hs : P s)
    (hstep : ∀ s a s' o, a ∈ as → P s → step s a = .ok (s', o) → P s' ∧ o.filterMap p = []) :
    out.filterMap p = [] := by
  have hI := traceM_preserves (I := fun log s => P s ∧ log.filterMap p = []) (l := []) h
    ⟨hs, rfl⟩ ?_
  · exact hI.2
  · intro log s a s' o ha ⟨hP, hlog⟩ hst
    obtain ⟨hP', ho⟩ := hstep s a s' o ha hP hst
    exact ⟨hP', by rw [List.filterMap_append, hlog, ho]; rfl⟩

end

/-- Two loops over related items look alike when their steps do, through a pair of views. -/
theorem traceM_map_eq {step₁ : σ → α → Except ε (σ × List β)}
    {step₂ : τ → α' → Except ε (τ × List γ)} {Q : α → α' → Prop} {f : σ → ρ} {g : τ → ρ}
    {p : β → Option δ} {q : γ → Option δ} (hitems : List.Forall₂ Q as bs) (hst : f s = g t)
    (hstep : ∀ s t a b, Q a b → f s = g t →
      (step₁ s a).map (fun r => (f r.1, r.2.filterMap p)) =
        (step₂ t b).map fun r => (g r.1, r.2.filterMap q)) :
    (traceM step₁ s as).map (fun r => (f r.1, r.2.filterMap p)) =
      (traceM step₂ t bs).map fun r => (g r.1, r.2.filterMap q) := by
  induction hitems generalizing s t with
  | nil => exact congrArg Except.ok (by simp [hst])
  | @cons a b as bs hab _ ih =>
    rw [traceM, traceM]
    apply map_bind_congr (hstep s t a b hab hst)
    intro r₁ r₂ hr
    obtain ⟨hr₁, hr₂⟩ := Prod.mk.inj hr
    apply map_bind_congr (ih hr₁)
    intro q₁ q₂ hq
    obtain ⟨hq₁, hq₂⟩ := Prod.mk.inj hq
    apply congrArg Except.ok
    simp only [List.filterMap_append, hr₂, hq₁, hq₂]

theorem forall₂_of_map_eq {f : α → γ} {g : β → γ} {as : List α} {bs : List β}
    (h : as.map f = bs.map g) : List.Forall₂ (fun a b => f a = g b) as bs := by
  rw [← List.forall₂_eq_eq_eq, List.forall₂_map_left_iff, List.forall₂_map_right_iff] at h
  exact h

end QuantAgent
