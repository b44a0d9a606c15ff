import HalfMesh.Foundations.Transition
import Mathlib.Order.WellFounded

/-! Runs that come to an end. A measure that drops with every allowed step rules out endless runs
of allowed steps, and takes every state by such a run to one where no allowed step is left
(`Stuck`). Also the runs of a system that refuses the steps not allowed, and runs with a monitor
beside them: a value that each step updates and no step reads (`observe`), for what a run has to
remember and the state does not. -/
namespace HalfMesh.Foundations
set_option autoImplicit false
set_option maxHeartbeats 250000
set_option maxRecDepth 120000

variable {S A M : Type} {step : S → A → Option S} {ok : S → A → Prop}

/-! ## Measures -/

/-- No allowed action is enabled. -/
def Stuck (step : S → A → Option S) (ok : S → A → Prop) (s : S) : Prop := ∀ a, ok s a → step s a = none

section Measure
variable {W : Type} [Preorder W] [WellFoundedLT W] {μ : S → W}

theorem not_forever (hdrop : ∀ s a t, ok s a → step s a = some t → μ t < μ s) (run : ℕ → S) :
    ¬ ∀ n, ∃ a, ok (run n) a ∧ step (run n) a = some (run (n + 1)) := by
  intro h
  have hdec : ∀ n, μ (run (n + 1)) < μ (run n) := by
    intro n
    obtain ⟨a, hok, hs⟩ := h n
    exact hdrop _ a _ hok hs
  obtain ⟨w, ⟨n, rfl⟩, hmin⟩ := WellFounded.has_min (wellFounded_lt (α := W))
    (Set.range fun n => μ (run n)) ⟨_, 0, rfl⟩
  exact hmin _ ⟨n + 1, rfl⟩ (hdec n)

/-- Allowed steps lead on until none is left. -/
theorem exists_stuck (hdrop : ∀ s a t, ok s a → step s a = some t → μ t < μ s) (s : S) :
    ∃ t, Reach step ok s t ∧ Stuck step ok t := by
  induction hw : μ s using WellFoundedLT.induction generalizing s with
  | ind w ih =>
    by_cases hstuck : Stuck step ok s
    · exact ⟨s, .refl, hstuck⟩
    · simp only [Stuck, not_forall] at hstuck
      obtain ⟨a, hok, hne⟩ := hstuck
      obtain ⟨t, ht⟩ := Option.ne_none_iff_exists'.mp hne
      obtain ⟨u, hu, hlast⟩ := ih (μ t) (hw ▸ hdrop s a t hok ht) t rfl
      exact ⟨u, (Reach.tail a .refl hok ht).trans hu, hlast⟩

end Measure

/-! ## Guards -/

/-- The system that refuses the steps that are not allowed. -/
def guarded (step : S → A → Option S) (ok : S → A → Prop) [∀ s a, Decidable (ok s a)] (s : S) (a : A) : Option S :=
  if ok s a then step s a else none

theorem Reach.of_guarded [∀ s a, Decidable (ok s a)] {as : List A} {s t : S}
    (h : runActions (guarded step ok) s as = some t) : Reach step ok s t := by
  induction as generalizing s with
  | nil =>
    simp only [runActions, Option.some.injEq] at h
    subst h
    exact .refl
  | cons a as ih =>
    obtain ⟨u, hu, ht⟩ := Option.bind_eq_some_iff.mp h
    obtain ⟨hok, hs⟩ := Option.ite_none_right_eq_some.mp hu
    exact (Reach.tail a .refl hok hs).trans (ih ht)

/-! ## Monitors -/

/-- The system with a monitor beside it. -/
def observe (step : S → A → Option S) (watch : S → A → S → M → M) (x : S × M) (a : A) : Option (S × M) :=
  (step x.1 a).map fun t => (t, watch x.1 a t x.2)

variable {watch : S → A → S → M → M}

theorem observe_eq_some {x y : S × M} {a : A} :
    observe step watch x a = some y ↔ step x.1 a = some y.1 ∧ y.2 = watch x.1 a y.1 x.2 := by
  rw [observe, Option.map_eq_some_iff]
  constructor
  · rintro ⟨t, ht, rfl⟩
    exact ⟨ht, rfl⟩
  · rintro ⟨ht, hm⟩
    exact ⟨y.1, ht, by rw [← hm]⟩

/-- What is reached with the monitor is reached without it. -/
theorem Reach.of_observe {x y : S × M} (h : Reach (observe step watch) anyStep x y) :
    Reach step anyStep x.1 y.1 := by
  induction h with
  | refl => exact .refl
  | tail a _ _ hs ih => exact .tail a ih trivial (observe_eq_some.mp hs).1

end HalfMesh.Foundations
