import Mathlib.Data.Finset.Basic
import Mathlib.Data.Fintype.Basic
import Mathlib.Logic.Function.Basic

/-! A store of items shared by listeners, as `localStorage` is by the windows of one origin: whoever
changes an item sees the change at once, and everyone else who listens gets an event and may read it
later. `Writes i s s'` says all that writing by `i` can do, and `UpToDate` is the invariant of a
listener that reads an item whenever it handles an event: what it holds fits the item, or an event
that will make it read again is on its way. -/
namespace HalfMesh.Foundations
set_option autoImplicit false
set_option maxHeartbeats 250000
set_option maxRecDepth 120000

variable {ι κ : Type} {V : κ → Type}

inductive StorageEvent (V : κ → Type)
  | item (key : κ) (newValue : Option (V key))
  | clear

structure Storage (ι : Type) {κ : Type} (V : κ → Type) where
  items : ∀ k, Option (V k)
  listeners : Finset ι
  events : ι → List (StorageEvent V)

namespace Storage

section Operations
variable [DecidableEq ι]

/-- Everyone who listens but the writer gets the event. -/
def notify (s : Storage ι V) (i : ι) (e : StorageEvent V) : Storage ι V :=
  { s with events := fun j => if j ≠ i ∧ j ∈ s.listeners then s.events j ++ [e] else s.events j }

/-- Nobody hears of an item that keeps its value. -/
def setItem [DecidableEq κ] [∀ k, DecidableEq (V k)] (s : Storage ι V) (i : ι) (k : κ) (v : V k) : Storage ι V :=
  if s.items k = some v then s
  else notify { s with items := Function.update s.items k (some v) } i (.item k (some v))

def removeItem [DecidableEq κ] [∀ k, DecidableEq (V k)] (s : Storage ι V) (i : ι) (k : κ) : Storage ι V :=
  if s.items k = none then s else notify { s with items := Function.update s.items k none } i (.item k none)

def clear [Fintype κ] [∀ k, DecidableEq (V k)] (s : Storage ι V) (i : ι) : Storage ι V :=
  if ∀ k, s.items k = none then s else notify { s with items := fun _ => none } i .clear

def setItems [DecidableEq κ] [∀ k, DecidableEq (V k)] (s : Storage ι V) (i : ι) (k : κ) (vs : List (V k)) :
    Storage ι V :=
  vs.foldl (fun s v => s.setItem i k v) s

def listen (s : Storage ι V) (j : ι) : Storage ι V :=
  { s with listeners := insert j s.listeners, events := Function.update s.events j [] }

def leave (s : Storage ι V) (j : ι) : Storage ι V :=
  { s with listeners := s.listeners.erase j, events := Function.update s.events j [] }

/-- The storage once `j` has read the first of its events. -/
def read (s : Storage ι V) (j : ι) : Storage ι V :=
  { s with events := Function.update s.events j (s.events j).tail }

@[simp] theorem items_listen (s : Storage ι V) (j : ι) : (s.listen j).items = s.items := rfl
@[simp] theorem listeners_listen (s : Storage ι V) (j : ι) : (s.listen j).listeners = insert j s.listeners := rfl
@[simp] theorem events_listen (s : Storage ι V) (j : ι) : (s.listen j).events = Function.update s.events j [] := rfl
@[simp] theorem items_leave (s : Storage ι V) (j : ι) : (s.leave j).items = s.items := rfl
@[simp] theorem listeners_leave (s : Storage ι V) (j : ι) : (s.leave j).listeners = s.listeners.erase j := rfl
@[simp] theorem events_leave (s : Storage ι V) (j : ι) : (s.leave j).events = Function.update s.events j [] := rfl
@[simp] theorem events_read (s : Storage ι V) (j : ι) :
    (s.read j).events = Function.update s.events j (s.events j).tail := rfl

end Operations

/-! ## What writing does -/

/-- What writing by `i` can do: it leaves the events of `i` alone, only adds to those of the others,
and whoever listens is told of every item that is not as it was. -/
structure Writes (i : ι) (s s' : Storage ι V) : Prop where
  listeners : s'.listeners = s.listeners
  own : s'.events i = s.events i
  grows : ∀ j, s.events j <+: s'.events j
  tells : ∀ j, j ≠ i → j ∈ s.listeners → ∀ k, s'.items k ≠ s.items k →
    StorageEvent.item k (s'.items k) ∈ s'.events j ∨ (s'.items k = none ∧ StorageEvent.clear ∈ s'.events j)

variable {i j : ι} {s s' s'' : Storage ι V}

theorem Writes.refl (i : ι) (s : Storage ι V) : Writes i s s where
  listeners := rfl
  own := rfl
  grows _ := List.prefix_rfl
  tells _ _ _ _ hk := absurd rfl hk

theorem Writes.trans (h : Writes i s s') (h' : Writes i s' s'') : Writes i s s'' where
  listeners := h'.listeners.trans h.listeners
  own := h'.own.trans h.own
  grows j := (h.grows j).trans (h'.grows j)
  tells j hj hmem k hk := by
    by_cases hlast : s''.items k = s'.items k
    · rw [hlast] at hk ⊢
      have hsub := (h'.grows j).subset
      exact (h.tells j hj hmem k hk).imp (fun he => hsub he) (fun he => ⟨he.1, hsub he.2⟩)
    · exact h'.tells j hj (h.listeners ▸ hmem) k hlast

section Operations
variable [DecidableEq ι]

theorem writes_notify {items : ∀ k, Option (V k)} {e : StorageEvent V}
    (htells : ∀ k, items k ≠ s.items k → e = .item k (items k) ∨ (items k = none ∧ e = .clear)) :
    Writes i s (notify { s with items := items } i e) where
  listeners := rfl
  own := if_neg fun h => h.1 rfl
  grows j := by
    unfold notify
    dsimp only
    split
    · exact List.prefix_append ..
    · exact List.prefix_rfl
  tells j hj hmem k hk := by
    have hevents : (notify { s with items := items } i e).events j = s.events j ++ [e] := if_pos ⟨hj, hmem⟩
    rw [hevents]
    rcases htells k hk with rfl | ⟨hnone, rfl⟩
    · exact .inl (List.mem_concat_self ..)
    · exact .inr ⟨hnone, List.mem_concat_self ..⟩

section Items
variable [DecidableEq κ]

theorem eq_of_update_ne {items : ∀ k, Option (V k)} {k k' : κ} {o : Option (V k)}
    (h : Function.update items k o k' ≠ items k') : k' = k := by
  by_contra hne
  exact h (Function.update_of_ne hne ..)

variable [∀ k, DecidableEq (V k)]

theorem items_setItem (s : Storage ι V) (i : ι) (k : κ) (v : V k) :
    (s.setItem i k v).items = Function.update s.items k (some v) := by
  unfold setItem
  split
  · next h => rw [← h, Function.update_eq_self]
  · rfl

theorem items_removeItem (s : Storage ι V) (i : ι) (k : κ) :
    (s.removeItem i k).items = Function.update s.items k none := by
  unfold removeItem
  split
  · next h => rw [← h, Function.update_eq_self]
  · rfl

theorem writes_setItem (s : Storage ι V) (i : ι) (k : κ) (v : V k) : Writes i s (s.setItem i k v) := by
  unfold setItem
  split
  · exact .refl i s
  · refine writes_notify fun k' hk' => ?_
    obtain rfl := eq_of_update_ne hk'
    rw [Function.update_self]
    exact .inl rfl

theorem writes_removeItem (s : Storage ι V) (i : ι) (k : κ) : Writes i s (s.removeItem i k) := by
  unfold removeItem
  split
  · exact .refl i s
  · refine writes_notify fun k' hk' => ?_
    obtain rfl := eq_of_update_ne hk'
    rw [Function.update_self]
    exact .inl rfl

theorem writes_setItems (i : ι) (k : κ) (vs : List (V k)) (s : Storage ι V) : Writes i s (s.setItems i k vs) := by
  induction vs generalizing s with
  | nil => exact .refl i s
  | cons v vs ih => exact (writes_setItem s i k v).trans (ih _)

theorem items_setItems (i : ι) (k : κ) (vs : List (V k)) (s : Storage ι V) :
    (s.setItems i k vs).items = match vs.getLast? with
      | some v => Function.update s.items k (some v)
      | none => s.items := by
  induction vs using List.reverseRecOn with
  | nil => rfl
  | append_singleton vs v ih =>
    rw [setItems, List.foldl_append, List.foldl_cons, List.foldl_nil, items_setItem, List.getLast?_concat]
    change Function.update (s.setItems i k vs).items k (some v) = _
    rw [ih]
    split
    · exact Function.update_idem ..
    · rfl

end Items

theorem writes_clear [Fintype κ] [∀ k, DecidableEq (V k)] (s : Storage ι V) (i : ι) : Writes i s (s.clear i) := by
  unfold clear
  split
  · exact .refl i s
  · exact writes_notify fun k hk => .inr ⟨rfl, rfl⟩

theorem items_clear [Fintype κ] [∀ k, DecidableEq (V k)] (s : Storage ι V) (i : ι) (k : κ) :
    (s.clear i).items k = none := by
  unfold clear
  split
  · next h => exact h k
  · rfl

end Operations

/-! ## Keys that are left alone -/

/-- Writing that has to do with the key `k` only. -/
structure Touches (k : κ) (s s' : Storage ι V) : Prop where
  items : ∀ k', k' ≠ k → s'.items k' = s.items k'
  events : ∀ j, ∃ es, s'.events j = s.events j ++ es ∧ ∀ e ∈ es, ∃ o, e = StorageEvent.item k o

variable {k : κ}

theorem Touches.refl (k : κ) (s : Storage ι V) : Touches k s s where
  items _ _ := rfl
  events _ := ⟨[], (List.append_nil _).symm, fun _ he => nomatch he⟩

theorem Touches.trans (h : Touches k s s') (h' : Touches k s' s'') : Touches k s s'' where
  items k' hk := (h'.items k' hk).trans (h.items k' hk)
  events j := by
    obtain ⟨es, hes, hall⟩ := h.events j
    obtain ⟨es', hes', hall'⟩ := h'.events j
    refine ⟨es ++ es', by rw [hes', hes, List.append_assoc], fun e he => ?_⟩
    exact (List.mem_append.mp he).elim (hall e) (hall' e)

/-- The events of other keys are those that were there. -/
theorem Touches.filter_events (h : Touches k s s') {f : StorageEvent V → Bool} (hf : ∀ o, f (.item k o) = false)
    (j : ι) : (s'.events j).filter f = (s.events j).filter f := by
  obtain ⟨es, hes, hall⟩ := h.events j
  have hnone : es.filter f = [] := by
    refine List.filter_eq_nil_iff.mpr fun e he => ?_
    obtain ⟨o, rfl⟩ := hall e he
    simp [hf o]
  rw [hes, List.filter_append, hnone, List.append_nil]

section Items
variable [DecidableEq ι] [DecidableEq κ] [∀ k, DecidableEq (V k)]

theorem events_setItem (s : Storage ι V) (i : ι) (k : κ) (v : V k) (j : ι) : (s.setItem i k v).events j =
    if s.items k ≠ some v ∧ j ≠ i ∧ j ∈ s.listeners then s.events j ++ [.item k (some v)] else s.events j := by
  unfold setItem
  by_cases hsame : s.items k = some v
  · simp [hsame]
  · simp [hsame, notify]

theorem events_removeItem (s : Storage ι V) (i : ι) (k : κ) (j : ι) : (s.removeItem i k).events j =
    if s.items k ≠ none ∧ j ≠ i ∧ j ∈ s.listeners then s.events j ++ [.item k none] else s.events j := by
  unfold removeItem
  by_cases hsame : s.items k = none
  · simp [hsame]
  · simp [hsame, notify]

theorem touches_setItem (s : Storage ι V) (i : ι) (k : κ) (v : V k) : Touches k s (s.setItem i k v) where
  items k' hk := by rw [items_setItem, Function.update_of_ne hk]
  events j := by
    rw [events_setItem]
    split
    · exact ⟨_, rfl, fun e he => ⟨some v, List.mem_singleton.mp he⟩⟩
    · exact ⟨[], (List.append_nil _).symm, fun _ he => nomatch he⟩

theorem touches_removeItem (s : Storage ι V) (i : ι) (k : κ) : Touches k s (s.removeItem i k) where
  items k' hk := by rw [items_removeItem, Function.update_of_ne hk]
  events j := by
    rw [events_removeItem]
    split
    · exact ⟨_, rfl, fun e he => ⟨none, List.mem_singleton.mp he⟩⟩
    · exact ⟨[], (List.append_nil _).symm, fun _ he => nomatch he⟩

theorem touches_setItems (i : ι) (k : κ) (vs : List (V k)) (s : Storage ι V) : Touches k s (s.setItems i k vs) := by
  induction vs generalizing s with
  | nil => exact .refl k s
  | cons v vs ih => exact (touches_setItem s i k v).trans (ih _)

end Items

/-! ## Listeners that keep up -/

/-- What `j` has made of the item `k` fits the item, or `j` has an event yet to read that wakes it. -/
def UpToDate (s : Storage ι V) (wakes : StorageEvent V → Prop) (j : ι) (k : κ) (P : Option (V k) → Prop) : Prop :=
  P (s.items k) ∨ ∃ e ∈ s.events j, wakes e

variable {wakes : StorageEvent V → Prop} {P : Option (V k) → Prop}

/-- A listener that wakes at every new value, and at a removal unless it fits any way, keeps up with
what the others write. -/
theorem UpToDate.writes (h : UpToDate s wakes j k P) (hw : Writes i s s') (hj : j ≠ i) (hmem : j ∈ s.listeners)
    (hsome : ∀ v, wakes (.item k (some v)))
    (hnone : P none ∨ (wakes (.item k none) ∧ wakes (StorageEvent.clear (V := V)))) : UpToDate s' wakes j k P := by
  rcases h with hP | ⟨e, he, hwakes⟩
  · by_cases hsame : s'.items k = s.items k
    · exact .inl (hsame ▸ hP)
    · have htold := hw.tells j hj hmem k hsame
      cases hitem : s'.items k with
      | some v =>
        rw [hitem] at htold
        rcases htold with htold | ⟨hno, _⟩
        · exact .inr ⟨_, htold, hsome v⟩
        · cases hno
      | none =>
        rw [hitem] at htold
        rcases hnone with hP' | ⟨hremove, hclear⟩
        · exact .inl (hitem ▸ hP')
        · rcases htold with htold | ⟨_, htold⟩
          · exact .inr ⟨_, htold, hremove⟩
          · exact .inr ⟨_, htold, hclear⟩
  · exact .inr ⟨e, (hw.grows j).subset he, hwakes⟩

/-- An event that does not wake the listener can be read away. -/
theorem UpToDate.skip [DecidableEq ι] {e : StorageEvent V} {es : List (StorageEvent V)} (h : UpToDate s wakes j k P)
    (hevents : s.events j = e :: es) (he : ¬ wakes e) : UpToDate (s.read j) wakes j k P := by
  rcases h with hP | ⟨e', he', hwakes⟩
  · exact .inl hP
  · rw [hevents] at he'
    rcases List.mem_cons.mp he' with rfl | he'
    · exact absurd hwakes he
    · refine .inr ⟨e', ?_, hwakes⟩
      rw [events_read, Function.update_self, hevents]
      exact he'

/-- With nothing left to read, the listener is up to date. -/
theorem UpToDate.settled (h : UpToDate s wakes j k P) (hread : s.events j = []) : P (s.items k) := by
  rcases h with hP | ⟨e, he, _⟩
  · exact hP
  · rw [hread] at he
    cases he

end Storage
end HalfMesh.Foundations
