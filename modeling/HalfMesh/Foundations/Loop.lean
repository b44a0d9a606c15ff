import Mathlib.Tactic.Common

/-! `while` loops, run for at most a given number of rounds. A measure that drops with every round
bounds the rounds, so the loop comes to its end; a property that every round keeps and that the test
follows from keeps it running for ever. -/
namespace HalfMesh.Foundations
set_option autoImplicit false
set_option maxHeartbeats 250000
set_option maxRecDepth 120000

variable {S : Type} {cond : S → Bool} {body : S → S}

/-- `while (cond) body`, for at most so many rounds: where it stands, and whether it has ended. -/
def whileDo (cond : S → Bool) (body : S → S) : ℕ → S → S × Bool
  | 0, s => (s, !cond s)
  | n + 1, s => if cond s then whileDo cond body n (body s) else (s, true)

/-- A loop whose test fails at once does nothing. -/
theorem whileDo_of_false {s : S} (h : cond s = false) (n : ℕ) : whileDo cond body n s = (s, true) := by
  cases n <;> simp [whileDo, h]

/-- What every round keeps holds wherever the loop stands. -/
theorem whileDo_keeps (I : S → Prop) (hI : ∀ s, I s → cond s = true → I (body s)) (n : ℕ) {s : S} (h : I s) :
    I (whileDo cond body n s).1 := by
  induction n generalizing s with
  | zero => exact h
  | succ n ih =>
    rw [whileDo]
    by_cases hc : cond s = true
    · rw [if_pos hc]
      exact ih (hI s h hc)
    · rw [if_neg hc]
      exact h

theorem whileDo_cond {n : ℕ} {s : S} (h : (whileDo cond body n s).2 = true) :
    cond (whileDo cond body n s).1 = false := by
  induction n generalizing s with
  | zero => simpa [whileDo] using h
  | succ n ih =>
    rw [whileDo] at h ⊢
    by_cases hc : cond s = true
    · rw [if_pos hc] at h ⊢
      exact ih h
    · rw [if_neg hc]
      simpa using hc

/-- As many rounds as the measure says are enough. -/
theorem whileDo_ends (I : S → Prop) (μ : S → ℕ)
    (hI : ∀ s, I s → cond s = true → I (body s) ∧ μ (body s) < μ s) {n : ℕ} {s : S} (h : I s) (hn : μ s ≤ n) :
    (whileDo cond body n s).2 = true := by
  induction n generalizing s with
  | zero =>
    have hc : ¬ cond s = true := fun hc => by
      have hdrop := (hI s h hc).2
      omega
    simpa [whileDo] using hc
  | succ n ih =>
    rw [whileDo]
    by_cases hc : cond s = true
    · obtain ⟨hnext, hdrop⟩ := hI s h hc
      rw [if_pos hc]
      exact ih hnext (by omega)
    · rw [if_neg hc]

end HalfMesh.Foundations
