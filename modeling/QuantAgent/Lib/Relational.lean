import Mathlib.Data.List.Forall2
import Mathlib.Tactic

namespace QuantAgent
set_option autoImplicit true

/-- Stateful code that may raise; what it did to the state stays when it raises. -/
abbrev StateE (ε σ : Type) := ExceptT ε (StateM σ)

/-- The result of a run and the state it leaves. -/
def StateE.exec (m : StateE ε σ α) (s : σ) : Except ε α × σ := StateT.run (ExceptT.run m) s

/-- Results related by `V`, or one error on both sides. -/
inductive ExceptRel (V : α → β → Prop) : Except ε α → Except ε β → Prop where
  | ok : V a b → ExceptRel V (.ok a) (.ok b)
  | error (e : ε) : ExceptRel V (.error e) (.error e)

theorem ExceptRel.mono {V V' : α → β → Prop} {x : Except ε α} {y : Except ε β} (h : ExceptRel V x y)
    (hV : ∀ a b, V a b → V' a b) : ExceptRel V' x y := by
  cases h with
  | ok hv => exact .ok (hV _ _ hv)
  | error e => exact .error e

/-- From states related by `Φ`, two computations end in such states with results related by `V`. -/
def Related (Φ : σ → τ → Prop) (V : α → β → Prop) (m : StateE ε σ α) (m' : StateE ε τ β) : Prop :=
  ∀ s t, Φ s t → ExceptRel V (m.exec s).1 (m'.exec t).1 ∧ Φ (m.exec s).2 (m'.exec t).2

namespace StateE

@[simp] theorem exec_pure (a : α) (s : σ) : (pure a : StateE ε σ α).exec s = (.ok a, s) := rfl

@[simp] theorem exec_throw (e : ε) (s : σ) : (throw e : StateE ε σ α).exec s = (.error e, s) := rfl

theorem exec_bind (m : StateE ε σ α) (k : α → StateE ε σ β) (s : σ) :
    (m >>= k).exec s =
      match m.exec s with
      | (.ok a, s') => (k a).exec s'
      | (.error e, s') => (.error e, s') := by
  change StateT.run (ExceptT.run m >>= ExceptT.bindCont k) s = _
  rw [StateT.run_bind]
  change StateT.run (ExceptT.bindCont k (m.exec s).1) (m.exec s).2 = _
  rcases m.exec s with ⟨e | a, s'⟩ <;> rfl

theorem exec_bind_ok {m : StateE ε σ α} {k : α → StateE ε σ β} (h : m.exec s = (.ok a, s')) :
    (m >>= k).exec s = (k a).exec s' := by rw [exec_bind, h]

@[simp] theorem exec_get (s : σ) : (get : StateE ε σ σ).exec s = (.ok s, s) := rfl

@[simp] theorem exec_modify (f : σ → σ) (s : σ) :
    (modify f : StateE ε σ PUnit).exec s = (.ok ⟨⟩, f s) := rfl

theorem exec_get_bind (k : σ → StateE ε σ β) (s : σ) : (get >>= k).exec s = (k s).exec s := rfl

theorem exec_modify_bind (f : σ → σ) (k : PUnit → StateE ε σ β) (s : σ) :
    (modify f >>= k).exec s = (k ⟨⟩).exec (f s) := rfl

end StateE

namespace Related
variable {Φ : σ → τ → Prop} {V : α → β → Prop} {W : α' → β' → Prop}

theorem mono {V' : α → β → Prop} {m : StateE ε σ α} {m' : StateE ε τ β} (h : Related Φ V m m')
    (hV : ∀ a b, V a b → V' a b) : Related Φ V' m m' := by
  intro s t hst
  obtain ⟨hr, hs⟩ := h s t hst
  exact ⟨hr.mono hV, hs⟩

theorem pure (h : V a b) : Related Φ V (pure a : StateE ε σ α) (pure b : StateE ε τ β) :=
  fun _ _ hst => ⟨.ok h, hst⟩

theorem throw (e : ε) :
    Related Φ V (throw e : StateE ε σ α) (MonadExcept.throw e : StateE ε τ β) :=
  fun _ _ hst => ⟨.error e, hst⟩

theorem bind {m : StateE ε σ α} {m' : StateE ε τ β} {k : α → StateE ε σ α'} {k' : β → StateE ε τ β'}
    (h : Related Φ V m m') (hk : ∀ a b, V a b → Related Φ W (k a) (k' b)) :
    Related Φ W (m >>= k) (m' >>= k') := by
  intro s t hst
  obtain ⟨hr, hs⟩ := h s t hst
  rw [StateE.exec_bind, StateE.exec_bind]
  rcases hm : m.exec s with ⟨r, s'⟩
  rcases hm' : m'.exec t with ⟨r', t'⟩
  rw [hm, hm'] at hr hs
  cases hr with
  | ok hv => exact hk _ _ hv _ _ hs
  | error e => exact ⟨.error e, hs⟩

theorem map {m : StateE ε σ α} {m' : StateE ε τ β} {f : α → α'} {f' : β → β'} (h : Related Φ V m m')
    (hf : ∀ a b, V a b → W (f a) (f' b)) : Related Φ W (f <$> m) (f' <$> m') := by
  rw [map_eq_pure_bind, map_eq_pure_bind]
  exact h.bind fun a b hv => .pure (hf a b hv)

theorem get_bind {k : σ → StateE ε σ α} {k' : τ → StateE ε τ β}
    (h : ∀ s t, Φ s t → Related Φ V (k s) (k' t)) : Related Φ V (get >>= k) (get >>= k') := by
  intro s t hst
  exact h s t hst s t hst

theorem modify {f : σ → σ} {f' : τ → τ} (h : ∀ s t, Φ s t → Φ (f s) (f' t)) :
    Related Φ (fun _ _ => True) (modify f : StateE ε σ PUnit) (modify f' : StateE ε τ PUnit) :=
  fun s t hst => ⟨.ok trivial, h s t hst⟩

theorem ite {c d : Prop} [Decidable c] [Decidable d] {m n : StateE ε σ α} {m' n' : StateE ε τ β}
    (hcd : c ↔ d) (h : c → Related Φ V m m') (h' : ¬c → Related Φ V n n') :
    Related Φ V (if c then m else n) (if d then m' else n') := by
  by_cases hc : c
  · rw [if_pos hc, if_pos (hcd.mp hc)]
    exact h hc
  · rw [if_neg hc, if_neg (hcd.not.mp hc)]
    exact h' hc

/-- A fold over two lists taken in step. -/
theorem foldlM {R : ι → κ → Prop} {step : α → ι → StateE ε σ α} {step' : β → κ → StateE ε τ β}
    (hstep : ∀ a b i j, V a b → R i j → Related Φ V (step a i) (step' b j)) {l : List ι} {l' : List κ}
    (hl : List.Forall₂ R l l') (h : V a b) :
    Related Φ V (l.foldlM step a) (l'.foldlM step' b) := by
  induction hl generalizing a b with
  | nil => exact .pure h
  | cons hij _ ih =>
    rw [List.foldlM_cons, List.foldlM_cons]
    exact (hstep _ _ _ _ h hij).bind fun _ _ hv => ih hv

theorem mapM {R : ι → κ → Prop} {f : ι → StateE ε σ α} {f' : κ → StateE ε τ β}
    (hf : ∀ i j, R i j → Related Φ V (f i) (f' j)) {l : List ι} {l' : List κ}
    (hl : List.Forall₂ R l l') : Related Φ (List.Forall₂ V) (l.mapM f) (l'.mapM f') := by
  induction hl with
  | nil => exact .pure .nil
  | cons hij _ ih =>
    rw [List.mapM_cons, List.mapM_cons]
    exact (hf _ _ hij).bind fun _ _ hv => ih.bind fun _ _ hvs => .pure (.cons hv hvs)

end Related

/-- From any state in `Φ` the result is `v`, and the state stays in `Φ`. -/
def Yields (Φ : σ → Prop) (m : StateE ε σ α) (v : Except ε α) : Prop :=
  ∀ s, Φ s → (m.exec s).1 = v ∧ Φ (m.exec s).2

namespace Yields
variable {Φ : σ → Prop}

theorem pure (a : α) : Yields Φ (pure a : StateE ε σ α) (.ok a) := fun _ hs => ⟨rfl, hs⟩

theorem modify {f : σ → σ} (h : ∀ s, Φ s → Φ (f s)) :
    Yields Φ (modify f : StateE ε σ PUnit) (.ok ⟨⟩) := fun s hs => ⟨rfl, h s hs⟩

theorem bind {m : StateE ε σ α} {k : α → StateE ε σ β} (h : Yields Φ m (.ok a))
    (hk : Yields Φ (k a) v) : Yields Φ (m >>= k) v := by
  intro s hs
  obtain ⟨hr, hs'⟩ := h s hs
  rw [StateE.exec_bind]
  rcases hm : m.exec s with ⟨r, s'⟩
  rw [hm] at hr hs'
  cases hr
  exact hk s' hs'

theorem get_bind {k : σ → StateE ε σ β} (h : ∀ s, Φ s → Yields Φ (k s) v) :
    Yields Φ (get >>= k) v := fun s hs => h s hs s hs

theorem mapM {f : α → StateE ε σ β} {g : α → β} {l : List α}
    (h : ∀ a ∈ l, Yields Φ (f a) (.ok (g a))) : Yields Φ (l.mapM f) (.ok (l.map g)) := by
  induction l with
  | nil => exact .pure []
  | cons a l ih =>
    rw [List.mapM_cons, List.map_cons]
    rw [List.forall_mem_cons] at h
    exact h.1.bind ((ih h.2).bind (.pure _))

/-- Two computations with one result cannot be told apart. -/
theorem related {m m' : StateE ε σ α} (h : Yields Φ m v) (h' : Yields Φ m' v) :
    Related (fun s t => Φ s ∧ Φ t) (· = ·) m m' := by
  intro s t hst
  obtain ⟨hr, hs⟩ := h s hst.1
  obtain ⟨hr', ht⟩ := h' t hst.2
  rw [hr, hr']
  refine ⟨?_, hs, ht⟩
  cases v with
  | ok a => exact .ok rfl
  | error e => exact .error e

end Yields
end QuantAgent
