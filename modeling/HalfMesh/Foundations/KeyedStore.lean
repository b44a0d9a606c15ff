import HalfMesh.Foundations.GoMap

/-! Stores that keep each object under its own key, and the log of the changes made to one.
`KeyedStore.replay log` is the content after the changes of `log`, so the content at an earlier
moment is the replay of a beginning of the log, and the successive values of a key are numbered
by how many changes of that key the log held. -/
namespace HalfMesh.Foundations
set_option autoImplicit false
set_option maxHeartbeats 250000
set_option maxRecDepth 120000

variable {α κ : Type} [DecidableEq κ] {keyOf : α → κ}

/-- At most one object a key, each under the key it computes for itself. -/
structure KeyedStore (keyOf : α → κ) where
  items : GoMap κ α
  keyed : ∀ k o, items.lookup k = some o → keyOf o = k

inductive Change (α κ : Type)
  | set (o : α)
  | delete (k : κ)
  deriving DecidableEq, Repr

def Change.key (keyOf : α → κ) : Change α κ → κ
  | .set o => keyOf o
  | .delete k => k

def Change.value : Change α κ → Option α
  | .set o => some o
  | .delete _ => none

namespace KeyedStore

instance : EmptyCollection (KeyedStore keyOf) :=
  ⟨⟨∅, fun k o h => by rw [AList.lookup_empty] at h; cases h⟩⟩

@[simp] theorem empty_items : (∅ : KeyedStore keyOf).items = ∅ := rfl

def set (s : KeyedStore keyOf) (o : α) : KeyedStore keyOf where
  items := s.items.insert (keyOf o) o
  keyed k o' h := by
    rw [lookup_insert_if] at h
    split at h
    · next hk => cases h; exact hk.symm
    · exact s.keyed k o' h

def delete (s : KeyedStore keyOf) (k : κ) : KeyedStore keyOf where
  items := s.items.erase k
  keyed k' o h := by
    rw [lookup_erase_if] at h
    split at h
    · cases h
    · exact s.keyed k' o h

def apply (s : KeyedStore keyOf) : Change α κ → KeyedStore keyOf
  | .set o => s.set o
  | .delete k => s.delete k

theorem lookup_apply (s : KeyedStore keyOf) (c : Change α κ) (k : κ) :
    (s.apply c).items.lookup k = if k = c.key keyOf then c.value else s.items.lookup k := by
  cases c with
  | set o => exact lookup_insert_if s.items (keyOf o) k o
  | delete k' => exact lookup_erase_if s.items k' k

def list (s : KeyedStore keyOf) (ord : RangeOrder κ α) : List α := (ord.range s.items).map Sigma.snd

theorem mem_list {s : KeyedStore keyOf} {ord : RangeOrder κ α} {o : α} :
    o ∈ s.list ord ↔ s.items.lookup (keyOf o) = some o := by
  rw [list, List.mem_map]
  constructor
  · rintro ⟨e, he, rfl⟩
    rw [ord.mem_range] at he
    rw [s.keyed e.1 e.2 he, he]
  · intro h
    exact ⟨⟨keyOf o, o⟩, (ord.mem_range s.items _).mpr h, rfl⟩

theorem list_keys (s : KeyedStore keyOf) (ord : RangeOrder κ α) :
    (s.list ord).map keyOf = (ord.range s.items).map Sigma.fst := by
  rw [list, List.map_map]
  refine List.map_congr_left fun e he => ?_
  rw [ord.mem_range] at he
  exact s.keyed e.1 e.2 he

theorem list_keys_nodup (s : KeyedStore keyOf) (ord : RangeOrder κ α) :
    ((s.list ord).map keyOf).Nodup := by
  rw [list_keys]
  exact ord.keys_nodup s.items

theorem named_list (s : KeyedStore keyOf) (ord : RangeOrder κ α) (k : κ) :
    named keyOf k (s.list ord) = s.items.lookup k := by
  ext o
  rw [named_eq_some (s.list_keys_nodup ord), mem_list]
  constructor
  · rintro ⟨h, rfl⟩
    exact h
  · intro h
    have hk := s.keyed k o h
    exact ⟨by rw [hk, h], hk⟩

def filter (p : α → Bool) (s : KeyedStore keyOf) : KeyedStore keyOf where
  items := ⟨s.items.entries.filter fun e => p e.2, s.items.nodupKeys.sublist List.filter_sublist⟩
  keyed k o h := by
    rw [← Option.mem_def, AList.mem_lookup_iff, List.mem_filter] at h
    exact s.keyed k o (AList.mem_lookup_iff.mpr h.1)

theorem lookup_filter (p : α → Bool) (s : KeyedStore keyOf) (k : κ) :
    (s.filter p).items.lookup k = (s.items.lookup k).filter p := by
  ext o
  rw [← Option.mem_def, AList.mem_lookup_iff, Option.filter_eq_some_iff, ← Option.mem_def,
    AList.mem_lookup_iff]
  exact List.mem_filter

/-! ## Logs of changes -/

def replay (keyOf : α → κ) (log : List (Change α κ)) : KeyedStore keyOf := log.foldl apply ∅

theorem replay_snoc (log : List (Change α κ)) (c : Change α κ) :
    replay keyOf (log ++ [c]) = (replay keyOf log).apply c := by
  rw [replay, List.foldl_append]
  rfl

/-- A key holds what the last change of it in the log left there. -/
theorem lookup_replay (log : List (Change α κ)) (k : κ) :
    (replay keyOf log).items.lookup k =
      ((log.filter fun c => k = c.key keyOf).getLast?.map Change.value).getD none := by
  have h := foldl_last_write (fun s : KeyedStore keyOf => s.items.lookup k) apply
    (fun c => decide (k = c.key keyOf)) Change.value (fun s c => by simp [lookup_apply]) log ∅
  simpa [replay] using h

/-- The object was set, and its key was given nothing else since. -/
def Kept (keyOf : α → κ) (log : List (Change α κ)) (o : α) : Prop :=
  ∃ before after, log = before ++ Change.set o :: after ∧ ∀ c ∈ after, c.key keyOf = keyOf o → c = .set o

theorem lookup_foldl_of_kept {o : α} (after : List (Change α κ))
    (hkeep : ∀ c ∈ after, c.key keyOf = keyOf o → c = .set o) (s : KeyedStore keyOf)
    (hs : s.items.lookup (keyOf o) = some o) : (after.foldl apply s).items.lookup (keyOf o) = some o := by
  induction after generalizing s with
  | nil => exact hs
  | cons c after ih =>
    refine ih (fun c' hc' => hkeep c' (List.mem_cons_of_mem c hc')) (s.apply c) ?_
    rw [lookup_apply]
    by_cases hk : keyOf o = c.key keyOf
    · rw [if_pos hk, hkeep c (List.mem_cons_self ..) hk.symm]
      rfl
    · rw [if_neg hk, hs]

theorem lookup_replay_of_kept {log : List (Change α κ)} {o : α} (h : Kept keyOf log o) :
    (replay keyOf log).items.lookup (keyOf o) = some o := by
  obtain ⟨before, after, rfl, hkeep⟩ := h
  rw [replay, List.foldl_append, List.foldl_cons]
  refine lookup_foldl_of_kept after hkeep _ ?_
  rw [lookup_apply]
  exact if_pos rfl

/-- The number of the value key `k` has after the first `n` changes of the log. -/
def keyVersion (keyOf : α → κ) (log : List (Change α κ)) (k : κ) (n : ℕ) : ℕ :=
  ((log.take n).filter fun c => k = c.key keyOf).length

theorem keyVersion_mono (log : List (Change α κ)) (k : κ) {n m : ℕ} (h : n ≤ m) :
    keyVersion keyOf log k n ≤ keyVersion keyOf log k m :=
  ((List.take_sublist_take_left h).filter _).length_le

/-- The value number `v` of key `k` in the log: what the change number `v` of the key left there. -/
def valueOf (keyOf : α → κ) (log : List (Change α κ)) (k : κ) (v : ℕ) : Option α :=
  (((log.filter fun c => k = c.key keyOf).take v).getLast?.map Change.value).getD none

theorem lookup_replay_take (log : List (Change α κ)) (k : κ) (n : ℕ) :
    (replay keyOf (log.take n)).items.lookup k = valueOf keyOf log k (keyVersion keyOf log k n) := by
  have hpre := (List.take_prefix n log).filter fun c => decide (k = c.key keyOf)
  have htake := List.prefix_iff_eq_take.mp hpre
  rw [lookup_replay, valueOf, keyVersion, ← htake]

end KeyedStore
end HalfMesh.Foundations
