/-
  BrokerLoad/Activity.lean
  ========================
  Loops that go on until they rest.

  A loop is given by its single steps.  It rests where it has none: at its end,
  or where it waits for something outside.  Every step lowers a weight, so a
  loop that is resumed comes to rest after finitely many steps, and `settle` is
  where it comes to rest.  `step_settle` says that it really rests there;
  `settle_of_step` says that nothing is skipped on the way, and
  `settle_induction` is the way to show what every step keeps.
-/

namespace BrokerLoad

/-- A loop in surroundings `ε` with states `σ`. -/
structure Activity (ε σ : Type) where
  /-- The next step, unless the loop rests. -/
  step : ε → σ → Option (ε × σ)
  /-- A bound on the number of steps to come before the loop rests. -/
  weight : ε → σ → Nat
  weight_step : ∀ {e : ε} {s : σ} {e' : ε} {s' : σ},
    step e s = some (e', s') → weight e' s' < weight e s

/-- A bound on the weight of where a step leads, whatever names are given to that. -/
theorem weight_lt_of_eq {ε σ : Type} (weight : ε → σ → Nat) {after : ε × σ} {e : ε} {s : σ}
    {bound w : Nat} (h : some after = some (e, s)) (hle : weight after.1 after.2 ≤ bound)
    (hlt : bound < w) : weight e s < w := by
  cases h
  exact Nat.lt_of_le_of_lt hle hlt

namespace Activity

variable {ε σ : Type}

def steps (a : Activity ε σ) : Nat → ε → σ → ε × σ
  | 0, e, s => (e, s)
  | n + 1, e, s =>
    match a.step e s with
    | none => (e, s)
    | some (e', s') => steps a n e' s'

def settle (a : Activity ε σ) (e : ε) (s : σ) : ε × σ := a.steps (a.weight e s) e s

theorem steps_of_rest (a : Activity ε σ) {e : ε} {s : σ} (h : a.step e s = none) (n : Nat) :
    a.steps n e s = (e, s) := by
  cases n with
  | zero => rfl
  | succ n => simp [steps, h]

/-- Any number of steps from the weight up comes to the same. -/
theorem steps_congr (a : Activity ε σ) {m n : Nat} {e : ε} {s : σ}
    (hm : a.weight e s ≤ m) (hn : a.weight e s ≤ n) : a.steps m e s = a.steps n e s := by
  induction m generalizing n e s with
  | zero =>
    rcases hstep : a.step e s with _ | ⟨e', s'⟩
    · rw [a.steps_of_rest hstep, a.steps_of_rest hstep]
    · have := a.weight_step hstep
      omega
  | succ m ih =>
    rcases hstep : a.step e s with _ | ⟨e', s'⟩
    · rw [a.steps_of_rest hstep, a.steps_of_rest hstep]
    · have hlt := a.weight_step hstep
      cases n with
      | zero => omega
      | succ n =>
        simp only [steps, hstep]
        exact ih (by omega) (by omega)

theorem settle_of_rest (a : Activity ε σ) {e : ε} {s : σ} (h : a.step e s = none) :
    a.settle e s = (e, s) :=
  a.steps_of_rest h _

theorem settle_of_step (a : Activity ε σ) {e : ε} {s : σ} {e' : ε} {s' : σ}
    (h : a.step e s = some (e', s')) : a.settle e s = a.settle e' s' := by
  have hlt := a.weight_step h
  unfold settle
  rcases hw : a.weight e s with _ | w
  · omega
  · simp only [steps, h]
    exact a.steps_congr (by omega) (Nat.le_refl _)

/-- What holds before and is kept by every step holds where the loop rests. -/
theorem settle_induction (a : Activity ε σ) {motive : ε → σ → Prop}
    (keep : ∀ e s e' s', motive e s → a.step e s = some (e', s') → motive e' s')
    {e : ε} {s : σ} (h : motive e s) : motive (a.settle e s).1 (a.settle e s).2 := by
  unfold settle
  generalize a.weight e s = n
  induction n generalizing e s with
  | zero => exact h
  | succ n ih =>
    rcases hstep : a.step e s with _ | ⟨e', s'⟩
    · rw [a.steps_of_rest hstep]
      exact h
    · simp only [steps, hstep]
      exact ih (keep e s e' s' h hstep)

/-- A loop that has settled rests. -/
theorem step_settle (a : Activity ε σ) (e : ε) (s : σ) :
    a.step (a.settle e s).1 (a.settle e s).2 = none := by
  generalize hw : a.weight e s = w
  induction w using Nat.strongRecOn generalizing e s with
  | ind w ih =>
    rcases hstep : a.step e s with _ | ⟨e', s'⟩
    · rw [a.settle_of_rest hstep]
      exact hstep
    · rw [a.settle_of_step hstep]
      exact ih _ (hw ▸ a.weight_step hstep) e' s' rfl

end Activity

end BrokerLoad
