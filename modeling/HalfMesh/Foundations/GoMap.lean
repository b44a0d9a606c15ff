import Mathlib.Data.List.AList
import Mathlib.Data.List.Perm.Basic
import Mathlib.Data.List.Nodup
import Mathlib.Data.List.Induction

/-! Maps as Go has them: at most one value a key, no fixed iteration order. A `range`
statement may visit the entries in any order, a fresh one each time, so every statement about
code that ranges over a map quantifies over the `RangeOrder` it used. Also the two facts about
lists that the maps are read through: search by name where names are distinct, and the value a
fold of keyed writes leaves behind. -/
namespace HalfMesh.Foundations
set_option autoImplicit false
set_option maxHeartbeats 250000
set_option maxRecDepth 120000

variable {α β γ σ ι : Type}

/-- A Go map from `α` to `β`: a list of entries in which no key occurs twice. -/
abbrev GoMap (α β : Type) := AList (fun _ : α => β)

abbrev Entry (α β : Type) := Sigma fun _ : α => β

/-! ## Iteration order -/

/-- One order in which a `range` statement visits the entries of a map. -/
structure RangeOrder (α β : Type) where
  visit : List (Entry α β) → List (Entry α β)
  visit_perm : ∀ entries, (visit entries).Perm entries

instance : Inhabited (RangeOrder α β) := ⟨⟨id, fun _ => List.Perm.refl _⟩⟩

def RangeOrder.range (ord : RangeOrder α β) (m : GoMap α β) : List (Entry α β) := ord.visit m.entries

theorem RangeOrder.range_perm (ord : RangeOrder α β) (m : GoMap α β) :
    (ord.range m).Perm m.entries := ord.visit_perm m.entries

theorem RangeOrder.keys_perm (ord : RangeOrder α β) (m : GoMap α β) :
    ((ord.range m).map Sigma.fst).Perm m.keys := (ord.range_perm m).map Sigma.fst

theorem RangeOrder.keys_nodup (ord : RangeOrder α β) (m : GoMap α β) :
    ((ord.range m).map Sigma.fst).Nodup := (ord.keys_perm m).nodup_iff.mpr m.keys_nodup

section Keyed
variable [DecidableEq α]

theorem RangeOrder.mem_range (ord : RangeOrder α β) (m : GoMap α β) (e : Entry α β) :
    e ∈ ord.range m ↔ m.lookup e.1 = some e.2 := by
  rw [(ord.range_perm m).mem_iff, ← Option.mem_def, AList.mem_lookup_iff]

theorem lookup_insert_if (m : GoMap α β) (k k' : α) (v : β) :
    (m.insert k v).lookup k' = if k' = k then some v else m.lookup k' := by
  by_cases h : k' = k
  · subst h
    rw [AList.lookup_insert, if_pos rfl]
  · rw [AList.lookup_insert_ne h, if_neg h]

theorem lookup_erase_if (m : GoMap α β) (k k' : α) :
    (m.erase k).lookup k' = if k' = k then none else m.lookup k' := by
  by_cases h : k' = k
  · subst h
    rw [AList.lookup_erase, if_pos rfl]
  · rw [AList.lookup_erase_ne h, if_neg h]

/-- An in-place change of the object `m[k]` points to; nothing happens when there is none. -/
def mutate (m : GoMap α β) (k : α) (f : β → β) : GoMap α β :=
  match m.lookup k with
  | none => m
  | some v => m.insert k (f v)

theorem lookup_mutate (m : GoMap α β) (k k' : α) (f : β → β) :
    (mutate m k f).lookup k' = if k' = k then (m.lookup k).map f else m.lookup k' := by
  unfold mutate
  cases hv : m.lookup k with
  | none =>
    by_cases h : k' = k
    · subst h
      rw [if_pos rfl, hv]
      rfl
    · rw [if_neg h]
  | some v => rw [lookup_insert_if, Option.map_some]

end Keyed

/-! ## Search by name -/

section Named
variable [DecidableEq α] {name : β → α}

def named (name : β → α) (n : α) (l : List β) : Option β := l.find? fun x => name x = n

theorem named_some_mem {n : α} {l : List β} {x : β} (h : named name n l = some x) :
    x ∈ l ∧ name x = n := by
  refine ⟨List.mem_of_find?_eq_some h, ?_⟩
  simpa using List.find?_some h

theorem named_eq_none {n : α} {l : List β} : named name n l = none ↔ ∀ x ∈ l, name x ≠ n := by
  simp [named, List.find?_eq_none]

/-- Where names are distinct, the element found is the only one of its name. -/
theorem named_eq_some {l : List β} (hl : (l.map name).Nodup) {n : α} {x : β} :
    named name n l = some x ↔ x ∈ l ∧ name x = n := by
  refine ⟨named_some_mem, ?_⟩
  rintro ⟨hx, hn⟩
  cases hf : named name n l with
  | none => exact absurd hn (named_eq_none.mp hf x hx)
  | some y =>
    obtain ⟨hy, hny⟩ := named_some_mem hf
    rw [List.inj_on_of_nodup_map hl hy hx (hny.trans hn.symm)]

theorem named_isSome {n : α} {l : List β} : (named name n l).isSome ↔ n ∈ l.map name := by
  rw [List.mem_map]
  constructor
  · intro h
    obtain ⟨x, hx⟩ := Option.isSome_iff_exists.mp h
    exact ⟨x, named_some_mem hx⟩
  · rintro ⟨x, hx, hn⟩
    by_contra h
    exact named_eq_none.mp (Option.not_isSome_iff_eq_none.mp h) x hx hn

end Named

/-! ## The last write wins -/

/-- A fold of writes, seen through one cell `get`: each write either sets the cell or leaves it,
so the fold leaves the value of the last write that hit it. -/
theorem foldl_last_write (get : σ → γ) (step : σ → ι → σ) (hit : ι → Bool) (val : ι → γ)
    (h : ∀ s i, get (step s i) = if hit i then val i else get s) (l : List ι) (s : σ) :
    get (l.foldl step s) = ((l.filter hit).getLast?.map val).getD (get s) := by
  induction l using List.reverseRecOn with
  | nil => rfl
  | append_singleton l i ih =>
    rw [List.foldl_append, List.foldl_cons, List.foldl_nil, h, ih, List.filter_append]
    cases hi : hit i with
    | false => simp [hi]
    | true => simp [hi]

end HalfMesh.Foundations
