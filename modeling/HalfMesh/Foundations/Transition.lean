import Mathlib.Tactic.Common

/-! Executable transition systems: a step function that answers `none` where the action is not
enabled. `Reach step ok s₀ s` holds when some run from `s₀` to `s` takes only steps that `ok`
allows; with `anyStep` these are the reachable states. Invariants are proved once per step and
carried to every run by `Reach.invariant`. -/
namespace HalfMesh.Foundations
set_option autoImplicit false
set_option maxHeartbeats 250000
set_option maxRecDepth 120000

variable {S A : Type}

/-- The state after the actions of a list, if each of them is enabled in its turn. -/
def runActions (step : S → A → Option S) : S → List A → Option S
  | s, [] => some s
  | s, a :: as => (step s a).bind fun t => runActions step t as

inductive Reach (step : S → A → Option S) (ok : S → A → Prop) (s₀ : S) : S → Prop
  | refl : Reach step ok s₀ s₀
  | tail {s t : S} (a : A) : Reach step ok s₀ s → ok s a → step s a = some t → Reach step ok s₀ t

def anyStep (_ : S) (_ : A) : Prop := True

variable {step : S → A → Option S} {ok ok' : S → A → Prop} {s₀ s t : S}

/-- What holds at the start and is kept by every allowed step holds in every state reached. The
step may use that the state it starts from is reached itself. -/
theorem Reach.invariant (I : S → Prop) (h₀ : I s₀)
    (hstep : ∀ s a t, Reach step ok s₀ s → I s → ok s a → step s a = some t → I t)
    (h : Reach step ok s₀ s) : I s := by
  induction h with
  | refl => exact h₀
  | tail a hr hok hs ih => exact hstep _ a _ hr ih hok hs

theorem Reach.mono (himp : ∀ s a, ok s a → ok' s a) (h : Reach step ok s₀ s) :
    Reach step ok' s₀ s := by
  induction h with
  | refl => exact .refl
  | tail a _ hok hs ih => exact .tail a ih (himp _ a hok) hs

theorem Reach.trans (h : Reach step ok s₀ s) (h' : Reach step ok s t) : Reach step ok s₀ t := by
  induction h' with
  | refl => exact h
  | tail a _ hok hs ih => exact .tail a ih hok hs

theorem Reach.of_runActions {as : List A} (h : runActions step s as = some t) :
    Reach step anyStep s t := by
  induction as generalizing s with
  | nil =>
    simp only [runActions, Option.some.injEq] at h
    subst h
    exact .refl
  | cons a as ih =>
    obtain ⟨u, hu, ht⟩ := Option.bind_eq_some_iff.mp h
    exact (Reach.tail a .refl trivial hu).trans (ih ht)

theorem runActions_snoc {as : List A} {a : A} {u : S} (h : runActions step s as = some t)
    (ha : step t a = some u) : runActions step s (as ++ [a]) = some u := by
  induction as generalizing s with
  | nil =>
    simp only [runActions, Option.some.injEq] at h
    subst h
    simp [runActions, ha]
  | cons b as ih =>
    obtain ⟨v, hv, ht⟩ := Option.bind_eq_some_iff.mp h
    rw [List.cons_append, runActions, hv, Option.bind_some]
    exact ih ht

theorem Reach.exists_runActions (h : Reach step ok s t) : ∃ as, runActions step s as = some t := by
  induction h with
  | refl => exact ⟨[], rfl⟩
  | tail a _ _ hs ih =>
    obtain ⟨as, has⟩ := ih
    exact ⟨as ++ [a], runActions_snoc has hs⟩

/-- A relation that every step keeps, by no step or by one step on the other side, relates every
state reached to a state reached there. -/
theorem Reach.simulates {T B : Type} {step' : T → B → Option T} {r₀ : T} (R : S → T → Prop) (h₀ : R s₀ r₀)
    (hstep : ∀ s a t r, Reach step ok s₀ s → R s r → step s a = some t →
      R t r ∨ ∃ b r', step' r b = some r' ∧ R t r')
    (h : Reach step ok s₀ s) : ∃ r, Reach step' anyStep r₀ r ∧ R s r := by
  induction h with
  | refl => exact ⟨r₀, .refl, h₀⟩
  | tail a hr _ hs ih =>
    obtain ⟨r, hreach, hrel⟩ := ih
    rcases hstep _ a _ r hr hrel hs with hsame | ⟨b, r', hb, hrel'⟩
    · exact ⟨r, hreach, hsame⟩
    · exact ⟨r', .tail b hreach trivial hb, hrel'⟩

end HalfMesh.Foundations
