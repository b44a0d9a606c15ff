import Mathlib.Tactic.Common

/-! Functions with deferred calls. A body is a list of calls, each of which may fail, and of `defer`s;
an error ends the body, and whatever ended it, what has been deferred till then runs in reverse order
before the function is done. `Placed` says where a frame can stand, and `left` counts the moves that
it has still to make at most. -/
namespace HalfMesh.Foundations
set_option autoImplicit false
set_option maxHeartbeats 250000
set_option maxRecDepth 120000

variable {C D E : Type}

/-- A call whose error is returned at once, or a `defer`. -/
inductive Stmt (C D : Type)
  | call (c : C)
  | defer (d : D)
  deriving DecidableEq

structure Frame (C D E : Type) where
  body : List (Stmt C D)
  /-- What was deferred last is first. -/
  deferred : List D
  /-- What is returned, once that is settled. -/
  result : Option (Option E)
  deriving DecidableEq

namespace Frame

def enter (body : List (Stmt C D)) : Frame C D E where
  body := body
  deferred := []
  result := none

/-- The call that the body is at. -/
def call (f : Frame C D E) : Option C :=
  match f.result, f.body with
  | none, .call c :: _ => some c
  | _, _ => none

/-- The call comes back, with an error or without one. -/
def answer (f : Frame C D E) : Option E → Frame C D E
  | none => { f with body := f.body.tail }
  | some e => { f with result := some (some e) }

/-- A `defer`, or the end of the body. -/
def advance (f : Frame C D E) : Option (Frame C D E) :=
  match f.result, f.body with
  | none, .defer d :: rest => some { f with body := rest, deferred := d :: f.deferred }
  | none, [] => some { f with result := some none }
  | _, _ => none

/-- The deferred call that runs next. -/
def unwind (f : Frame C D E) : Option (D × Frame C D E) :=
  match f.result, f.deferred with
  | some _, d :: rest => some (d, { f with deferred := rest })
  | _, _ => none

def returned (f : Frame C D E) : Option (Option E) :=
  match f.deferred with
  | [] => f.result
  | _ :: _ => none

variable {f f' : Frame C D E}

/-! ## What a move does -/

theorem call_eq_some {c : C} : f.call = some c ↔ f.result = none ∧ ∃ rest, f.body = .call c :: rest := by
  obtain ⟨body, deferred, result⟩ := f
  cases result with
  | some r => simp [call]
  | none =>
    cases body with
    | nil => simp [call]
    | cons stmt rest => cases stmt <;> simp [call]

theorem advance_cases (h : f.advance = some f') : f.result = none ∧
    ((∃ d rest, f.body = .defer d :: rest ∧ f' = { f with body := rest, deferred := d :: f.deferred }) ∨
      (f.body = [] ∧ f' = { f with result := some none })) := by
  obtain ⟨body, deferred, result⟩ := f
  cases result with
  | some r => simp [advance] at h
  | none =>
    refine ⟨rfl, ?_⟩
    cases body with
    | nil => exact .inr ⟨rfl, (Option.some.inj h).symm⟩
    | cons stmt rest =>
      cases stmt with
      | call c => simp [advance] at h
      | defer d => exact .inl ⟨d, rest, rfl, (Option.some.inj h).symm⟩

theorem unwind_eq_some {d : D} : f.unwind = some (d, f') ↔
    f.result.isSome ∧ f.deferred = d :: f'.deferred ∧ f' = { f with deferred := f'.deferred } := by
  obtain ⟨body, deferred, result⟩ := f
  cases result with
  | none => simp [unwind]
  | some r =>
    cases deferred with
    | nil => simp [unwind]
    | cons d' rest =>
      simp only [unwind, Option.some.injEq, Prod.mk.injEq, Option.isSome_some, List.cons.injEq, true_and]
      constructor
      · rintro ⟨rfl, rfl⟩
        exact ⟨⟨rfl, rfl⟩, rfl⟩
      · rintro ⟨⟨rfl, hrest⟩, hf⟩
        rw [hf, ← hrest]
        exact ⟨rfl, rfl⟩

/-- A frame that can make no move is done, or at a call. -/
theorem stuck_cases (hcall : f.call = none) (hadvance : f.advance = none) (hunwind : f.unwind = none) :
    ∃ r, f.returned = some r := by
  obtain ⟨body, deferred, result⟩ := f
  cases result with
  | none =>
    cases body with
    | nil => simp [advance] at hadvance
    | cons stmt rest => cases stmt <;> simp [call, advance] at hcall hadvance
  | some r =>
    cases deferred with
    | nil => exact ⟨r, rfl⟩
    | cons d rest => simp [unwind] at hunwind

/-! ## Where a frame can stand -/

def deferredIn (done : List (Stmt C D)) : List D :=
  done.filterMap fun
    | .call _ => none
    | .defer d => some d

/-- Part of the body is done. What it deferred is still to run, or the last of it has run already. -/
def Placed (program : List (Stmt C D)) (f : Frame C D E) : Prop :=
  ∃ done, program = done ++ f.body ∧ f.deferred <:+ (deferredIn done).reverse ∧
    (f.result = none → f.deferred = (deferredIn done).reverse)

theorem placed_enter (program : List (Stmt C D)) : Placed program (enter program : Frame C D E) :=
  ⟨[], rfl, List.suffix_rfl, fun _ => rfl⟩

variable {program : List (Stmt C D)}

theorem Placed.answer (h : Placed program f) {c : C} (hcall : f.call = some c) (err : Option E) :
    Placed program (f.answer err) := by
  obtain ⟨done, hprogram, hsuffix, hrunning⟩ := h
  obtain ⟨hresult, rest, hbody⟩ := call_eq_some.mp hcall
  cases err with
  | some e => exact ⟨done, hprogram, hsuffix, fun hnone => by cases hnone⟩
  | none =>
    refine ⟨done ++ [.call c], ?_, ?_, fun hnone => ?_⟩
    · simp [Frame.answer, hprogram, hbody]
    · simpa [Frame.answer, deferredIn] using hsuffix
    · simpa [Frame.answer, deferredIn] using hrunning hnone

theorem Placed.advance (h : Placed program f) (hadvance : f.advance = some f') : Placed program f' := by
  obtain ⟨done, hprogram, hsuffix, hrunning⟩ := h
  obtain ⟨hresult, ⟨d, rest, hbody, rfl⟩ | ⟨_, rfl⟩⟩ := advance_cases hadvance
  · have hdone : (deferredIn (done ++ [.defer d])).reverse = d :: (deferredIn done).reverse := by
      simp [deferredIn]
    rw [hrunning hresult]
    exact ⟨done ++ [.defer d], by simp [hprogram, hbody], hdone ▸ List.suffix_rfl, fun _ => hdone.symm⟩
  · exact ⟨done, hprogram, hsuffix, fun hnone => by cases hnone⟩

theorem Placed.unwind (h : Placed program f) {d : D} (hunwind : f.unwind = some (d, f')) : Placed program f' := by
  obtain ⟨done, hprogram, hsuffix, hrunning⟩ := h
  obtain ⟨hresult, hdeferred, hf⟩ := unwind_eq_some.mp hunwind
  rw [hdeferred] at hsuffix
  rw [hf]
  refine ⟨done, hprogram, (List.suffix_cons d f'.deferred).trans hsuffix, fun hnone => ?_⟩
  rw [show f.result = none from hnone] at hresult
  cases hresult

/-! ## How long it takes -/

def left (f : Frame C D E) : ℕ :=
  match f.result with
  | none => 2 * f.body.length + f.deferred.length + 1
  | some _ => f.deferred.length

theorem left_answer {c : C} (hcall : f.call = some c) (err : Option E) : (f.answer err).left < f.left := by
  obtain ⟨hresult, rest, hbody⟩ := call_eq_some.mp hcall
  cases err with
  | none =>
    simp [left, answer, hresult, hbody]
  | some e =>
    simp only [left, answer, hresult]
    omega

theorem left_advance (hadvance : f.advance = some f') : f'.left < f.left := by
  obtain ⟨hresult, ⟨d, rest, hbody, rfl⟩ | ⟨_, rfl⟩⟩ := advance_cases hadvance
  · simp only [left, hresult, hbody, List.length_cons]
    omega
  · simp only [left, hresult]
    omega

theorem left_unwind {d : D} (hunwind : f.unwind = some (d, f')) : f'.left < f.left := by
  obtain ⟨hresult, hdeferred, hf⟩ := unwind_eq_some.mp hunwind
  obtain ⟨r, hr⟩ := Option.isSome_iff_exists.mp hresult
  rw [hf]
  simp [left, hr, hdeferred]

end Frame
end HalfMesh.Foundations
