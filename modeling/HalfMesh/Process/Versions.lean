import HalfMesh.Mesh.Integrity
import HalfMesh.Model.Snapshot
import Mathlib

/-! Versions over the life of a process. The counter is one more than the number of snapshots
passed on so far, up to the width of an `int`, and the snapshot at position `i` was built under the
number `1 + i`; whatever is said about versions follows from this numbering (`Numbered`). -/
namespace HalfMesh
open HalfMesh.Foundations HalfMesh.Kube HalfMesh.Xds
set_option autoImplicit false
set_option maxHeartbeats 250000
set_option maxRecDepth 120000

/-! ## Version texts -/

theorem itoa_injective {n m : ℤ} (h : itoa n = itoa m) : n = m := Int.repr_injective h

theorem itoa_ne_empty (n : ℤ) : itoa n ≠ "" := by
  cases n with
  | ofNat k => exact Nat.repr_ne_empty
  | negSucc k =>
    intro h
    have hminus := (String.append_eq_empty_iff.mp h).1
    exact absurd hminus (by decide)

theorem bmod_inj_of_near {i j : ℕ} (h : (1 + (i : ℤ)).bmod (2 ^ 64) = (1 + (j : ℤ)).bmod (2 ^ 64))
    (hij : i < j + 2 ^ 64) (hji : j < i + 2 ^ 64) : i = j := by
  rw [Int.bmod_eq_bmod_iff_bmod_sub_eq_zero, ← Int.dvd_iff_bmod_eq_zero] at h
  obtain ⟨k, hk⟩ := h
  omega

theorem bmod_of_small {i : ℕ} (h : i < 2 ^ 62) : (1 + (i : ℤ)).bmod (2 ^ 64) = 1 + i := by
  have hlow : -(((2 ^ 64 : ℕ) : ℤ) / 2) ≤ 1 + (i : ℤ) := by omega
  have hhigh : 1 + (i : ℤ) < (((2 ^ 64 : ℕ) : ℤ) + 1) / 2 := by omega
  exact Int.bmod_eq_of_le hlow hhigh

/-! ## The keys of a resource map -/

/-- All four types are keys of the map that `getResources` returns, or none is. -/
theorem mem_resources_iff {unmarshal : YamlUnmarshal} {lookup : GetByKey} {ord : RangeOrders}
    {services : List Service} {r : Resources} (h : resourcesOf unmarshal lookup ord services = .ok r)
    (t t' : ResourceType) : t ∈ r ↔ t' ∈ r := by
  obtain ⟨_, hr⟩ := resourcesOf_eq_ok.mp h
  have hmem : ∀ u : ResourceType, u ∈ r ↔ u ∈ (∅ : Resources) ∨ visited ord
      (MeshServices.registerAll (registrations unmarshal lookup services)) ≠ [] := by
    intro u
    rw [← hr]
    exact (foldl_addMeshService ord u _ ∅).2
  have hno : ∀ u : ResourceType, u ∉ (∅ : Resources) := AList.notMem_empty
  rw [hmem t, hmem t', or_iff_right (hno t), or_iff_right (hno t')]

/-! ## The numbering -/

/-- A snapshot that some call of the list built, under its own number. -/
def BuiltBy (calls : List UpdateCall) (x : Passed) : Prop :=
  ∃ call ∈ calls, call.resources = .ok x.resources ∧
    call.lib.newSnapshot (itoa x.version) x.resources = .ok x.snapshot

structure Numbered (calls : List UpdateCall) (proc : Process) : Prop where
  counter : proc.snapshotVersion = (1 + (proc.passed.length : ℤ)).bmod (2 ^ 64)
  numbers : ∀ (i : ℕ) (x : Passed), proc.passed[i]? = some x → x.version = (1 + (i : ℤ)).bmod (2 ^ 64)
  built : ∀ x ∈ proc.passed, BuiltBy calls x

theorem numbered_updateCache {calls : List UpdateCall} {proc : Process} {call : UpdateCall}
    (h : Numbered calls proc) (hcall : call ∈ calls) : Numbered calls (updateCache proc call).1 := by
  rcases updateCache_cases proc call with ⟨hp, _, _⟩ | ⟨x, hx, _, _, hp⟩
  · rw [hp]
    exact h
  · rw [hp]
    refine ⟨?_, fun i y hy => ?_, fun y hy => ?_⟩
    · have hlen : ((proc.passed ++ [x]).length : ℤ) = proc.passed.length + 1 := by simp
      rw [hlen, increment, h.counter, Int.bmod_add_bmod, Int.add_assoc]
    · rcases Nat.lt_or_ge i proc.passed.length with hi | hi
      · rw [List.getElem?_append_left hi] at hy
        exact h.numbers i y hy
      · rw [List.getElem?_append_right hi] at hy
        obtain ⟨hi', hy'⟩ := List.getElem?_eq_some_iff.mp hy
        have hie : i = proc.passed.length := by
          rw [List.length_singleton] at hi'
          omega
        rw [List.getElem_singleton] at hy'
        rw [← hy', hx.version, h.counter, hie]
    · rcases List.mem_append.mp hy with hold | hnew
      · exact h.built y hold
      · rw [List.mem_singleton.mp hnew]
        exact ⟨call, hcall, hx.resources, hx.snapshot⟩

theorem numbered_runCalls (calls : List UpdateCall) : Numbered calls (runCalls Process.initial calls) := by
  have h₀ : Numbered calls Process.initial := by
    refine ⟨by decide, fun i x hx => ?_, fun x hx => ?_⟩
    · cases hx
    · cases hx
  exact runCalls_invariant (Numbered calls) (· ∈ calls) (fun _ _ => numbered_updateCache) (fun _ h => h) h₀

/-! ## One process -/

/-- The resource map of an empty mesh has no keys. -/
def Passed.isEmpty (x : Passed) : Bool := x.resources.keys.isEmpty

theorem BuiltBy.mem_iff {calls : List UpdateCall} {x : Passed} (h : BuiltBy calls x) (t : ResourceType) :
    t ∈ x.resources ↔ x.isEmpty = false := by
  obtain ⟨call, _, hr, _⟩ := h
  rw [Passed.isEmpty, List.isEmpty_eq_false_iff_exists_mem]
  refine ⟨fun ht => ⟨t, AList.mem_keys.mp ht⟩, fun ⟨u, hu⟩ => ?_⟩
  exact (mem_resources_iff hr t u).mpr (AList.mem_keys.mpr hu)

section Reports
variable {calls : List UpdateCall} {x : Passed}

theorem BuiltBy.version_of_nonempty (hspec : ∀ call ∈ calls, NewSnapshotSpec call.lib.newSnapshot)
    (h : BuiltBy calls x) (hx : x.isEmpty = false) (t : ResourceType) : x.snapshot.version t = itoa x.version := by
  have ht := (h.mem_iff t).mpr hx
  obtain ⟨call, hcall, _, hs⟩ := h
  exact (hspec call hcall).version_of_key hs ht

theorem BuiltBy.absent_of_empty (hspec : ∀ call ∈ calls, NewSnapshotSpec call.lib.newSnapshot)
    (h : BuiltBy calls x) (hx : x.isEmpty = true) (t : ResourceType) :
    x.snapshot.version t = "" ∧ x.snapshot.items t = ∅ := by
  have ht : t ∉ x.resources := by
    intro hin
    rw [(h.mem_iff t).mp hin] at hx
    cases hx
  obtain ⟨call, hcall, _, hs⟩ := h
  exact ⟨(hspec call hcall).version_of_absent hs ht, (hspec call hcall).items_of_absent hs ht⟩

end Reports

structure AtomicCall (proc : Process) (call : UpdateCall) : Prop where
  failure : (∀ x, (getSnapshot proc call).2 ≠ .ok x) →
    (updateCache proc call).1.snapshotVersion = proc.snapshotVersion ∧ (updateCache proc call).1.held = proc.held
  grows : NewSnapshotSucceeds proc call → (updateCache proc call).1.snapshotVersion = proc.snapshotVersion + 1
  keeps : ¬ NewSnapshotSucceeds proc call → (updateCache proc call).1.snapshotVersion = proc.snapshotVersion

/-- The versions of the snapshots that one process passes to `SetSnapshot`. -/
structure VersionsIncrease (calls : List UpdateCall) (passed : List Passed) : Prop where
  built : ∀ x ∈ passed, BuiltBy calls x
  numbers : (passed.map Passed.version).Pairwise (· < ·)
  texts : (passed.map fun x => itoa x.version).Nodup
  /-- All four types of the nonempty snapshots report one increasing sequence of numbers. -/
  reported : ∃ numbers : List ℤ, numbers.Pairwise (· < ·) ∧
    ∀ t, (passed.filter fun x => !x.isEmpty).map (fun x => x.snapshot.version t) = numbers.map itoa
  empty : ∀ x ∈ passed, x.isEmpty → ∀ t, x.snapshot.version t = ""
  empty_fresh : ∀ x ∈ passed, ∀ y ∈ passed, x.isEmpty → y.isEmpty = false →
    ∀ t t', x.snapshot.version t ≠ y.snapshot.version t'

theorem atomicCall_of_unwrapped {proc : Process} {call : UpdateCall}
    (h : increment proc.snapshotVersion = proc.snapshotVersion + 1) : AtomicCall proc call := by
  rcases updateCache_cases proc call with ⟨hp, _, hns⟩ | ⟨x, _, hns, hg, hp⟩
  · have hver : (updateCache proc call).1.snapshotVersion = proc.snapshotVersion := by rw [hp]
    have hheld : (updateCache proc call).1.held = proc.held := by rw [hp]
    exact ⟨fun _ => ⟨hver, hheld⟩, fun hs => absurd hs hns, fun _ => hver⟩
  · have hver : (updateCache proc call).1.snapshotVersion = proc.snapshotVersion + 1 := by rw [hp, h]
    exact ⟨fun hno => absurd hg (hno x), fun _ => hver, fun hno => absurd hns hno⟩

theorem version_of_short {calls : List UpdateCall} (h : calls.length < 2 ^ 62) {i : ℕ} {x : Passed}
    (hx : (runCalls Process.initial calls).passed[i]? = some x) : x.version = 1 + (i : ℤ) := by
  have hlen := passed_length_runCalls Process.initial calls
  have hzero : Process.initial.passed.length = 0 := rfl
  obtain ⟨hi, _⟩ := List.getElem?_eq_some_iff.mp hx
  rw [(numbered_runCalls calls).numbers i x hx]
  exact bmod_of_small (by omega)

theorem increment_of_short {pre : List UpdateCall} (h : pre.length + 1 < 2 ^ 62) :
    increment (runCalls Process.initial pre).snapshotVersion =
      (runCalls Process.initial pre).snapshotVersion + 1 := by
  have hlen := passed_length_runCalls Process.initial pre
  have hzero : Process.initial.passed.length = 0 := rfl
  have hnow := bmod_of_small (i := (runCalls Process.initial pre).passed.length) (by omega)
  have hnext := bmod_of_small (i := (runCalls Process.initial pre).passed.length + 1) (by omega)
  have hassoc : 1 + (((runCalls Process.initial pre).passed.length + 1 : ℕ) : ℤ) =
      1 + ((runCalls Process.initial pre).passed.length : ℤ) + 1 := by omega
  rw [hassoc] at hnext
  rw [(numbered_runCalls pre).counter, hnow, increment, hnext]

theorem versionsIncrease_of_short {calls : List UpdateCall} (h : calls.length < 2 ^ 62)
    (hspec : ∀ call ∈ calls, NewSnapshotSpec call.lib.newSnapshot) :
    VersionsIncrease calls (runCalls Process.initial calls).passed := by
  have hbuilt := (numbered_runCalls calls).built
  have hnumbers : (runCalls Process.initial calls).passed.Pairwise fun x y => x.version < y.version := by
    rw [List.pairwise_iff_getElem]
    intro i j hi hj hij
    have hx := version_of_short h (List.getElem?_eq_getElem hi)
    have hy := version_of_short h (List.getElem?_eq_getElem hj)
    omega
  have htexts : (runCalls Process.initial calls).passed.Pairwise fun x y => itoa x.version ≠ itoa y.version := by
    refine hnumbers.imp fun hlt heq => ?_
    have hv := itoa_injective heq
    omega
  refine ⟨hbuilt, List.pairwise_map.mpr hnumbers, List.pairwise_map.mpr htexts, ?_, ?_, ?_⟩
  · refine ⟨((runCalls Process.initial calls).passed.filter fun x => !x.isEmpty).map Passed.version, ?_, fun t => ?_⟩
    · exact List.pairwise_map.mpr (hnumbers.sublist List.filter_sublist)
    · rw [List.map_map]
      refine List.map_congr_left fun x hx => ?_
      obtain ⟨hin, hne⟩ := List.mem_filter.mp hx
      have hne' : x.isEmpty = false := by simpa using hne
      exact (hbuilt x hin).version_of_nonempty hspec hne' t
  · intro x hx he t
    exact ((hbuilt x hx).absent_of_empty hspec he t).1
  · intro x hx y hy he hne t t'
    rw [((hbuilt x hx).absent_of_empty hspec he t).1, (hbuilt y hy).version_of_nonempty hspec hne t']
    exact (itoa_ne_empty y.version).symm

/-- Versions over any sequence of calls that is too short for the counter to wrap. -/
theorem updateCache_versions (calls : List UpdateCall) (h : calls.length < 2 ^ 62)
    (hspec : ∀ call ∈ calls, NewSnapshotSpec call.lib.newSnapshot) :
    (∀ pre call post, calls = pre ++ call :: post → AtomicCall (runCalls Process.initial pre) call) ∧
      VersionsIncrease calls (runCalls Process.initial calls).passed := by
  refine ⟨?_, versionsIncrease_of_short h hspec⟩
  intro pre call post hcalls
  rw [hcalls, List.length_append, List.length_cons] at h
  exact atomicCall_of_unwrapped (increment_of_short (by omega))

/-! The calls of the witnesses: `NewSnapshot` indexes the resources by name, and `SetSnapshot`
replaces the held snapshot. -/

def indexByName (t : ResourceType) (xs : List (ResourceOf t)) : GoMap String (ResourceOf t) :=
  xs.foldl (fun m x => m.insert (resourceName t x) x) ∅

def indexSnapshot (version : String) (r : Resources) : Except String Snapshot :=
  .ok {
    version := fun t => if t ∈ r then version else ""
    items := fun t => indexByName t (r.get t) }

theorem newSnapshotSpec_indexSnapshot : NewSnapshotSpec indexSnapshot where
  version_of_key h ht := by
    cases h
    exact if_pos ht
  version_of_absent h ht := by
    cases h
    exact if_neg ht
  items_of_absent {v r s t} h ht := by
    cases h
    have hget : r.get t = [] := by rw [Resources.get, AList.lookup_eq_none.mpr ht, Option.getD_none]
    change indexByName t (r.get t) = ∅
    rw [hget]
    rfl

def demoLibrary : Library where
  yamlUnmarshal := demoUnmarshal
  yamlMarshal _ := .ok ""
  newSnapshot := indexSnapshot

/-- A call over the contents of a watcher, whose `SetSnapshot` answers with `err`. -/
def demoCall (kw : KubeWatcher) (err : Option String) : UpdateCall where
  services := kw.svcIndexer.list default
  lookup := getByKey kw.epIndexer
  ord := default
  lib := demoLibrary
  setSnapshot := fun _ snap => (some snap, err)

def demoUnmarshallable : Library := { demoLibrary with yamlMarshal := fun _ => .error "unsupported value" }

def demoRefusing : Library := { demoLibrary with newSnapshot := fun _ _ => .error "unknown resource type" }

theorem newSnapshotSpec_demoRefusing : NewSnapshotSpec demoRefusing.newSnapshot where
  version_of_key h _ := by cases h
  version_of_absent h _ := by cases h
  items_of_absent h _ := by cases h

/-- The mesh is published, `getSnapshot` fails in `yaml.Marshal` and in `NewSnapshot`, `SetSnapshot`
fails once, and the last mesh service disappears. -/
def demoCalls : List UpdateCall :=
  [demoCall demoWatcher none, { demoCall demoWatcher none with lib := demoUnmarshallable },
    { demoCall demoWatcher none with lib := demoRefusing }, demoCall demoWatcher (some "context canceled"),
    demoCall { demoWatcher with svcIndexer := ∅ } none]

theorem demoCalls_spec : ∀ call ∈ demoCalls, NewSnapshotSpec call.lib.newSnapshot := by
  intro call hcall
  simp only [demoCalls, List.mem_cons, List.not_mem_nil, or_false] at hcall
  rcases hcall with rfl | rfl | rfl | rfl | rfl
  · exact newSnapshotSpec_indexSnapshot
  · exact newSnapshotSpec_indexSnapshot
  · exact newSnapshotSpec_demoRefusing
  · exact newSnapshotSpec_indexSnapshot
  · exact newSnapshotSpec_indexSnapshot

theorem updateCache_versions_demo :
    demoCalls.map (fun call => (updateCache Process.initial call).2) =
      [.ok (), .err "unsupported value", .err "unknown resource type", .err "context canceled", .ok ()] ∧
    (∀ pre call post, demoCalls = pre ++ call :: post → AtomicCall (runCalls Process.initial pre) call) ∧
      VersionsIncrease demoCalls (runCalls Process.initial demoCalls).passed :=
  ⟨rfl, updateCache_versions demoCalls (by decide) demoCalls_spec⟩

example : (runCalls Process.initial demoCalls).passed.map (fun x => x.snapshot.version .cluster) =
    ["1", "2", ""] := by decide

end HalfMesh
