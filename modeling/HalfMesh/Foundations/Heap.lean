import HalfMesh.Foundations.GoMap
import Mathlib.Data.Option.Basic

/-! Go pointers. The objects of one type lie in a heap that only grows, a pointer is an address in
it, and a map of pointers stands for a map of values (`PointsTo`). Allocation disturbs nothing that
is there; an assignment through a pointer is an assignment to the value under its key, provided that
no other key holds the same pointer (`Unshared`). -/
namespace HalfMesh.Foundations
set_option autoImplicit false
set_option maxHeartbeats 250000
set_option maxRecDepth 120000

variable {α β γ : Type}

/-- The address of a `β`. -/
@[ext] structure Ptr (β : Type) where
  addr : ℕ

instance : DecidableEq (Ptr β) := fun p q => decidable_of_iff (p.addr = q.addr) Ptr.ext_iff.symm

structure Heap (β : Type) where
  objects : List β

namespace Heap

instance : EmptyCollection (Heap β) := ⟨⟨[]⟩⟩

/-- The address that the next allocation takes. -/
def fresh (h : Heap β) : Ptr β := ⟨h.objects.length⟩

def alloc (h : Heap β) (x : β) : Heap β := ⟨h.objects ++ [x]⟩

/-- `*p`, nothing where no object was allocated. -/
def load (h : Heap β) (p : Ptr β) : Option β := h.objects[p.addr]?

/-- `*p = x`. -/
def store (h : Heap β) (p : Ptr β) (x : β) : Heap β := ⟨h.objects.set p.addr x⟩

variable {h : Heap β} {p : Ptr β} {x y : β}

theorem lt_of_load (hp : h.load p = some y) : p.addr < h.objects.length := by
  by_contra hout
  have hnone : h.objects[p.addr]? = none := List.getElem?_eq_none (by omega)
  rw [load, hnone] at hp
  cases hp

theorem ne_fresh_of_load (hp : h.load p = some y) : p ≠ h.fresh := by
  intro he
  have hlt := lt_of_load hp
  rw [he] at hlt
  exact Nat.lt_irrefl _ hlt

theorem load_fresh : (h.alloc x).load h.fresh = some x := by simp [load, alloc, fresh]

/-- An object keeps its address and its value when another one is allocated. -/
theorem load_alloc (hp : h.load p = some y) : (h.alloc x).load p = some y := by
  rw [load, alloc, List.getElem?_append_left (lt_of_load hp)]
  exact hp

theorem load_store (hp : h.load p = some y) (q : Ptr β) :
    (h.store p x).load q = if q = p then some x else h.load q := by
  have hlt := lt_of_load hp
  by_cases hq : q = p
  · simp [load, store, hq, hlt]
  · have haddr : p.addr ≠ q.addr := fun he => hq (Ptr.ext he.symm)
    simp [load, store, hq, haddr]

end Heap

/-! ## Maps of pointers -/

section Maps
variable [DecidableEq α] {R R' : β → γ → Prop} {h : Heap β} {m : GoMap α (Ptr β)} {v : GoMap α γ}

/-- The map `m` of pointers into `h` has the keys of the map `v` of values, and each pointer leads to
an object that stands for the value by `R`. -/
structure PointsTo (R : β → γ → Prop) (h : Heap β) (m : GoMap α (Ptr β)) (v : GoMap α γ) : Prop where
  missing : ∀ k, m.lookup k = none → v.lookup k = none
  leads : ∀ k p, m.lookup k = some p → ∃ y x, h.load p = some y ∧ v.lookup k = some x ∧ R y x

def Unshared (m : GoMap α (Ptr β)) : Prop := ∀ k k' p, m.lookup k = some p → m.lookup k' = some p → k = k'

theorem pointsTo_empty : PointsTo R h (∅ : GoMap α (Ptr β)) (∅ : GoMap α γ) where
  missing k _ := AList.lookup_empty k
  leads k p hp := by
    rw [AList.lookup_empty] at hp
    cases hp

theorem unshared_empty : Unshared (∅ : GoMap α (Ptr β)) := by
  intro k k' p hk
  rw [AList.lookup_empty] at hk
  cases hk

theorem PointsTo.mono (hm : PointsTo R h m v) (himp : ∀ y x, R y x → R' y x) : PointsTo R' h m v where
  missing := hm.missing
  leads k p hp := by
    obtain ⟨y, x, hy, hx, hR⟩ := hm.leads k p hp
    exact ⟨y, x, hy, hx, himp y x hR⟩

/-- A key has a pointer where it has a value. -/
theorem PointsTo.of_value (hm : PointsTo R h m v) {k : α} {x : γ} (hx : v.lookup k = some x) :
    ∃ p y, m.lookup k = some p ∧ h.load p = some y ∧ R y x := by
  cases hp : m.lookup k with
  | none =>
    rw [hm.missing k hp] at hx
    cases hx
  | some p =>
    obtain ⟨y, x', hy, hx', hR⟩ := hm.leads k p hp
    obtain rfl := Option.some.inj (hx'.symm.trans hx)
    exact ⟨p, y, rfl, hy, hR⟩

theorem PointsTo.isSome_eq (hm : PointsTo R h m v) (k : α) : (m.lookup k).isSome = (v.lookup k).isSome := by
  cases hp : m.lookup k with
  | none => simp [hm.missing k hp]
  | some p =>
    obtain ⟨_, x, _, hx, _⟩ := hm.leads k p hp
    simp [hx]

/-- Allocation disturbs no map. -/
theorem PointsTo.alloc (hm : PointsTo R h m v) (z : β) : PointsTo R (h.alloc z) m v where
  missing := hm.missing
  leads k p hp := by
    obtain ⟨y, x, hy, hx, hR⟩ := hm.leads k p hp
    exact ⟨y, x, Heap.load_alloc hy, hx, hR⟩

/-- `m[k] = &y`. -/
theorem PointsTo.insert (hm : PointsTo R h m v) {y : β} {x : γ} (hR : R y x) (k : α) :
    PointsTo R (h.alloc y) (m.insert k h.fresh) (v.insert k x) where
  missing k' hk' := by
    rw [lookup_insert_if] at hk' ⊢
    by_cases hk : k' = k
    · rw [if_pos hk] at hk'
      cases hk'
    · rw [if_neg hk] at hk' ⊢
      exact hm.missing k' hk'
  leads k' p hp := by
    rw [lookup_insert_if] at hp ⊢
    by_cases hk : k' = k
    · rw [if_pos hk] at hp ⊢
      obtain rfl := Option.some.inj hp
      exact ⟨y, x, Heap.load_fresh, rfl, hR⟩
    · rw [if_neg hk] at hp ⊢
      exact (hm.alloc y).leads k' p hp

theorem PointsTo.unshared_insert (hm : PointsTo R h m v) (hu : Unshared m) (k : α) :
    Unshared (m.insert k h.fresh) := by
  have hold : ∀ k' p, m.lookup k' = some p → p ≠ h.fresh := by
    intro k' p hp
    obtain ⟨y, _, hy, _, _⟩ := hm.leads k' p hp
    exact Heap.ne_fresh_of_load hy
  intro k₁ k₂ p h₁ h₂
  rw [lookup_insert_if] at h₁ h₂
  by_cases hk₁ : k₁ = k
  · by_cases hk₂ : k₂ = k
    · rw [hk₁, hk₂]
    · rw [if_pos hk₁] at h₁
      rw [if_neg hk₂] at h₂
      exact absurd (Option.some.inj h₁).symm (hold k₂ p h₂)
  · rw [if_neg hk₁] at h₁
    by_cases hk₂ : k₂ = k
    · rw [if_pos hk₂] at h₂
      exact absurd (Option.some.inj h₂).symm (hold k₁ p h₁)
    · rw [if_neg hk₂] at h₂
      exact hu k₁ k₂ p h₁ h₂

/-- `*m[k] = y`: the one key that holds the pointer gets the new value. -/
theorem PointsTo.store (hm : PointsTo R h m v) (hu : Unshared m) {k : α} {p : Ptr β} (hp : m.lookup k = some p)
    {y : β} {x : γ} (hR : R y x) : PointsTo R (h.store p y) m (v.insert k x) := by
  obtain ⟨z, _, hz, _, _⟩ := hm.leads k p hp
  refine ⟨fun k' hk' => ?_, fun k' q hq => ?_⟩
  · have hk : k' ≠ k := by
      intro he
      rw [he, hp] at hk'
      cases hk'
    rw [lookup_insert_if, if_neg hk]
    exact hm.missing k' hk'
  · rw [lookup_insert_if]
    by_cases hk : k' = k
    · have hqp : q = p := by
        rw [hk, hp] at hq
        exact (Option.some.inj hq).symm
      refine ⟨y, x, ?_, if_pos hk, hR⟩
      rw [Heap.load_store hz, if_pos hqp]
    · have hqp : q ≠ p := fun he => hk (hu k' k p (he ▸ hq) hp)
      obtain ⟨w, x', hw, hx', hRw⟩ := hm.leads k' q hq
      refine ⟨w, x', ?_, by rw [if_neg hk, hx'], hRw⟩
      rw [Heap.load_store hz, if_neg hqp, hw]

end Maps
end HalfMesh.Foundations
