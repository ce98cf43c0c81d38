import QuantAgent.Lib.Trace

namespace QuantAgent
set_option autoImplicit true

/-- A computation that does not raise. -/
def Returns (x : Except ε α) : Prop := ∃ a, x = .ok a

theorem Returns.ok (a : α) : Returns (Except.ok a : Except ε α) := ⟨a, rfl⟩

@[simp] theorem returns_ok {a : α} : Returns (Except.ok a : Except ε α) ↔ True :=
  iff_true_intro (.ok a)

@[simp] theorem returns_pure {a : α} : Returns (pure a : Except ε α) ↔ True :=
  iff_true_intro (.ok a)

@[simp] theorem returns_error {e : ε} : Returns (Except.error e : Except ε α) ↔ False :=
  iff_false_intro nofun

@[simp] theorem returns_throw {e : ε} : Returns (throw e : Except ε α) ↔ False :=
  iff_false_intro nofun

theorem returns_bind {x : Except ε α} {f : α → Except ε β} :
    Returns (x >>= f) ↔ ∃ a, x = .ok a ∧ Returns (f a) := by
  constructor
  · rintro ⟨b, h⟩
    obtain ⟨a, ha, hb⟩ := bind_ok_iff.mp h
    exact ⟨a, ha, b, hb⟩
  · rintro ⟨a, ha, b, hb⟩
    exact ⟨b, bind_ok_iff.mpr ⟨a, ha, hb⟩⟩

/-- A step whose continuation never raises raises where it does itself. -/
theorem returns_bind_of {x : Except ε α} {f : α → Except ε β} (h : ∀ a, Returns (f a)) :
    Returns (x >>= f) ↔ Returns x :=
  returns_bind.trans ⟨fun ⟨a, ha, _⟩ => ⟨a, ha⟩, fun ⟨a, ha⟩ => ⟨a, ha, h a⟩⟩

/-- A condition holds of each item a loop comes to, in the state it comes there with. -/
def AllReached (step : σ → α → Except ε (σ × List β)) (p : σ → α → Prop) (s : σ) (as : List α) :
    Prop :=
  ∀ done a rest t out, as = done ++ a :: rest → traceM step s done = .ok (t, out) → p t a

section
variable {step : σ → α → Except ε (σ × List β)} {p q : σ → α → Prop}

theorem allReached_nil : AllReached step p s [] := by
  intro done a rest t out h
  cases List.append_eq_nil_iff.mp h.symm |>.2

theorem allReached_cons : AllReached step p s (a :: as) ↔
    p s a ∧ ∀ s' o, step s a = .ok (s', o) → AllReached step p s' as := by
  constructor
  · intro h
    refine ⟨h [] a as s [] rfl rfl, fun s' o hstep done b rest t out has hdone => ?_⟩
    exact h (a :: done) b rest t (o ++ out) (has ▸ rfl)
      (traceM_cons_ok.mpr ⟨s', o, out, hstep, hdone, rfl⟩)
  · rintro ⟨hhere, hlater⟩ done b rest t out has hdone
    cases done with
    | nil =>
      cases has
      cases hdone
      exact hhere
    | cons c done =>
      cases has
      obtain ⟨s', o, o', hstep, hrest, rfl⟩ := traceM_cons_ok.mp hdone
      exact hlater s' o hstep done b rest t o' rfl hrest

/-- A loop returns when each item it comes to meets the condition its step returns under. -/
theorem traceM_returns_iff (h : AllReached step (fun t a => Returns (step t a) ↔ p t a) s as) :
    Returns (traceM step s as) ↔ AllReached step p s as := by
  induction as generalizing s with
  | nil => exact ⟨fun _ => allReached_nil, fun _ => .ok _⟩
  | cons a as ih =>
    obtain ⟨hhere, hlater⟩ := allReached_cons.mp h
    rw [traceM, returns_bind, allReached_cons]
    constructor
    · rintro ⟨⟨s', o⟩, hstep, hrest⟩
      have htail : Returns (traceM step s' as) := (returns_bind_of fun _ => .ok _).mp hrest
      refine ⟨hhere.mp ⟨_, hstep⟩, fun t out hstep' => ?_⟩
      cases hstep.symm.trans hstep'
      exact (ih (hlater s' o hstep)).mp htail
    · rintro ⟨hp, hrest⟩
      obtain ⟨⟨s', o⟩, hstep⟩ := hhere.mpr hp
      refine ⟨_, hstep, (returns_bind_of fun _ => .ok _).mpr ?_⟩
      exact (ih (hlater s' o hstep)).mpr (hrest s' o hstep)

/-- A loop whose steps return under conditions on the items alone returns when all of them hold. -/
theorem traceM_returns_all {p : α → Prop} (h : ∀ t, ∀ a ∈ as, Returns (step t a) ↔ p a) :
    Returns (traceM step s as) ↔ ∀ a ∈ as, p a := by
  induction as generalizing s with
  | nil => simp
  | cons a as ih =>
    have ih := fun s => ih (s := s) fun t b hb => h t b (List.mem_cons_of_mem _ hb)
    rw [traceM, returns_bind, List.forall_mem_cons, ← h s a (List.mem_cons_self ..)]
    constructor
    · rintro ⟨r, hr, hrest⟩
      exact ⟨⟨r, hr⟩, (ih r.1).mp ((returns_bind_of fun _ => .ok _).mp hrest)⟩
    · rintro ⟨⟨r, hr⟩, hrest⟩
      exact ⟨r, hr, (returns_bind_of fun _ => .ok _).mpr ((ih r.1).mpr hrest)⟩

/-- What holds at every item and state holds wherever the loop comes. -/
theorem AllReached.of_forall (h : ∀ t, ∀ a ∈ as, p t a) : AllReached step p s as := by
  intro done a rest t out has _
  exact h t a (has ▸ List.mem_append_right _ (List.mem_cons_self ..))

end

end QuantAgent
