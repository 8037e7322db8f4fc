import Mathlib.Tactic.Common

/-!
# Computations that may fail

Generation and evaluation are computations in `ExceptT ε (StateM σ)`: they change a state, may fail,
and keep the state if they do.  A computation made of two succeeds exactly if both do, the second
one in the state that the first one leaves behind.
-/

namespace ThreeAddress

namespace Fallible

variable {ε σ α β : Type} {s s' : σ}

theorem run_bind (m : ExceptT ε (StateM σ) α) (f : α → ExceptT ε (StateM σ) β) (s : σ) :
  (m >>= f).run s
    = match m.run s with
      | (.ok a, s₁) => (f a).run s₁
      | (.error e, s₁) => (.error e, s₁)
  := by
  rw [ExceptT.run_bind]
  change (match (m.run s).1 with
    | .ok a => (f a).run
    | .error e => pure (.error e) : StateM σ (Except ε β)) (m.run s).2 = _
  rcases m.run s with ⟨a | e, s₁⟩
  · rfl
  · rfl

/-- A computation that looks at the state first. -/
theorem run_get_bind (f : σ → ExceptT ε (StateM σ) α) (s : σ) :
  (get >>= f).run s = (f s).run s
  := rfl

/-- A computation that changes the state first. -/
theorem run_modify_bind (f : σ → σ) (m : Unit → ExceptT ε (StateM σ) α) (s : σ) :
  (modify f >>= m).run s = (m ()).run (f s)
  := rfl

/-- A sequence succeeds exactly if both of its parts do. -/
theorem run_bind_ok {m : ExceptT ε (StateM σ) α} {f : α → ExceptT ε (StateM σ) β} {b : β} :
  (m >>= f).run s = (.ok b, s')
    ↔ ∃ a s₁, m.run s = (.ok a, s₁) ∧ (f a).run s₁ = (.ok b, s')
  := by
  rw [run_bind]
  rcases hm : m.run s with ⟨e | a, s₁⟩
  · constructor
    · intro h
      cases (Prod.mk.inj h).1
    · rintro ⟨a, s₂, ha, -⟩
      cases (Prod.mk.inj ha).1
  · constructor
    · intro h
      use a, s₁
    · rintro ⟨a', s₂, heq, h⟩
      obtain ⟨ha, rfl⟩ := Prod.mk.inj heq
      obtain rfl := Except.ok.inj ha
      apply h

/-- A sequence fails if its first part does, or if its second part does after the first. -/
theorem run_bind_error {m : ExceptT ε (StateM σ) α} {f : α → ExceptT ε (StateM σ) β} {e : ε}
    (h : (m >>= f).run s = (.error e, s')) :
  m.run s = (.error e, s') ∨ ∃ a s₁, m.run s = (.ok a, s₁) ∧ (f a).run s₁ = (.error e, s')
  := by
  rw [run_bind] at h
  rcases hm : m.run s with ⟨e' | a, s₁⟩
  · rw [hm] at h
    left
    cases h
    rfl
  · rw [hm] at h
    right
    use a, s₁, rfl

theorem run_pure_ok {a b : α} :
  (pure a : ExceptT ε (StateM σ) α).run s = (.ok b, s') ↔ a = b ∧ s = s'
  := by
  constructor
  · intro h
    obtain ⟨ha, hs⟩ := Prod.mk.inj h
    use Except.ok.inj ha, hs
  · rintro ⟨rfl, rfl⟩
    rfl

theorem run_throw_ok {e : ε} {b : α} :
  ¬ (throw e : ExceptT ε (StateM σ) α).run s = (.ok b, s')
  := by
  intro h
  obtain ⟨he, -⟩ := Prod.mk.inj h
  cases he

theorem run_get_ok {b : σ} :
  (get : ExceptT ε (StateM σ) σ).run s = (.ok b, s') ↔ s = b ∧ s = s'
  := by
  constructor
  · intro h
    obtain ⟨ha, hs⟩ := Prod.mk.inj h
    use Except.ok.inj ha, hs
  · rintro ⟨rfl, rfl⟩
    rfl

theorem run_set_ok {t : σ} {u : Unit} :
  (set t : ExceptT ε (StateM σ) Unit).run s = (.ok u, s') ↔ t = s'
  := by
  constructor
  · intro h
    apply (Prod.mk.inj h).2
  · rintro rfl
    rfl

theorem run_modify_ok {f : σ → σ} {u : Unit} :
  (modify f : ExceptT ε (StateM σ) Unit).run s = (.ok u, s') ↔ f s = s'
  := by
  constructor
  · intro h
    apply (Prod.mk.inj h).2
  · rintro rfl
    rfl

theorem run_modifyGet_ok {f : σ → α × σ} {b : α} :
  (modifyGet f : ExceptT ε (StateM σ) α).run s = (.ok b, s') ↔ f s = (b, s')
  := by
  constructor
  · intro h
    obtain ⟨ha, hs⟩ := Prod.mk.inj h
    apply Prod.ext (Except.ok.inj ha) hs
  · intro h
    change (Except.ok (f s).1, (f s).2) = _
    rw [h]

end Fallible

end ThreeAddress
