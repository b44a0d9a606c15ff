import Mathlib.Tactic.Common

/-! How a Go call ends: it returns a value, it returns an error, or it panics. An error is an
ordinary value the caller looks at; a panic that nobody recovers from ends the process. -/
namespace HalfMesh.Foundations
set_option autoImplicit false
set_option maxHeartbeats 250000
set_option maxRecDepth 120000

inductive Panic
  | interfaceConversion
  | nilDereference
  | sendOnClosedChannel
  | explicit
  deriving DecidableEq, Repr

inductive Outcome (α : Type)
  | ok (value : α)
  | err (text : String)
  | panic (why : Panic)
  deriving DecidableEq, Repr

namespace Outcome
variable {α β ι : Type}

def bind : Outcome α → (α → Outcome β) → Outcome β
  | ok a, f => f a
  | err e, _ => err e
  | panic p, _ => panic p

@[simp] theorem bind_ok (a : α) (f : α → Outcome β) : (ok a).bind f = f a := rfl

theorem bind_eq_ok {x : Outcome α} {f : α → Outcome β} {b : β} :
    x.bind f = ok b ↔ ∃ a, x = ok a ∧ f a = ok b := by
  cases x with
  | ok a => simp
  | err e => simp [bind]
  | panic p => simp [bind]

def map (f : α → β) (x : Outcome α) : Outcome β := x.bind fun a => ok (f a)

theorem map_eq_ok {f : α → β} {x : Outcome α} {b : β} :
    x.map f = ok b ↔ ∃ a, x = ok a ∧ f a = b := by
  simp [map, bind_eq_ok]

/-- A loop whose body may fail: the first failure ends it. -/
def foldlM (body : α → ι → Outcome α) : α → List ι → Outcome α
  | a, [] => ok a
  | a, i :: is => (body a i).bind fun a' => foldlM body a' is

theorem foldlM_append (body : α → ι → Outcome α) (a : α) (is js : List ι) :
    foldlM body a (is ++ js) = (foldlM body a is).bind fun a' => foldlM body a' js := by
  induction is generalizing a with
  | nil => rfl
  | cons i is ih =>
    simp only [List.cons_append, foldlM]
    cases body a i with
    | ok a' => exact ih a'
    | err e => rfl
    | panic p => rfl

theorem foldlM_snoc {body : α → ι → Outcome α} {a a' a'' : α} {is : List ι} {i : ι}
    (h : foldlM body a is = ok a') (hi : body a' i = ok a'') :
    foldlM body a (is ++ [i]) = ok a'' := by
  rw [foldlM_append, h, bind_ok, foldlM, hi, bind_ok, foldlM]

end Outcome
end HalfMesh.Foundations
