import HalfMesh.Model.GetResources
import Mathlib.Algebra.Ring.Nat

/-! `getSnapshot` and `updateCache` (`kube.go`) over the global `snapshotVersion` (`main.go`). The
YAML encoder, `cache.NewSnapshot` and `SetSnapshot` are third-party code: each call of `updateCache`
comes with the functions that answered it. -/
namespace HalfMesh
open HalfMesh.Foundations HalfMesh.Kube HalfMesh.Xds
set_option autoImplicit false
set_option maxHeartbeats 250000
set_option maxRecDepth 120000

/-- `cache.Snapshot`: per resource type a version and the resources by name. -/
structure Snapshot where
  version : ResourceType → String
  items : (t : ResourceType) → GoMap String (ResourceOf t)

/-- `strconv.Itoa`. -/
def itoa (n : ℤ) : String := n.repr

/-- `n++` on a Go `int` of 64 bits. -/
def increment (n : ℤ) : ℤ := (n + 1).bmod (2 ^ 64)

structure Library where
  yamlUnmarshal : YamlUnmarshal
  yamlMarshal : Resources → Except String String
  newSnapshot : String → Resources → Except String Snapshot

/-- What is assumed of `cache.NewSnapshot`: it gives the version to the types that are keys of the
resource map and leaves the others without resources and with the empty version. -/
structure NewSnapshotSpec (newSnapshot : String → Resources → Except String Snapshot) : Prop where
  version_of_key : ∀ {v r s t}, newSnapshot v r = .ok s → t ∈ r → s.version t = v
  version_of_absent : ∀ {v r s t}, newSnapshot v r = .ok s → t ∉ r → s.version t = ""
  items_of_absent : ∀ {v r s t}, newSnapshot v r = .ok s → t ∉ r → s.items t = ∅

/-- A snapshot as `SetSnapshot` receives it, with what it was built from. -/
structure Passed where
  version : ℤ
  resources : Resources
  snapshot : Snapshot

/-- One process: the global counter, the snapshot the cache holds under `nodeID`, and the snapshots
passed to `SetSnapshot` so far. -/
structure Process where
  snapshotVersion : ℤ
  held : Option Snapshot
  passed : List Passed

def Process.initial : Process := { snapshotVersion := 1, held := none, passed := [] }

/-- What one call of `updateCache` reads, and how the code it calls answers. -/
structure UpdateCall where
  services : List Service
  lookup : GetByKey
  ord : RangeOrders
  lib : Library
  setSnapshot : Option Snapshot → Snapshot → Option Snapshot × Option String

def UpdateCall.resources (call : UpdateCall) : Outcome Resources :=
  resourcesOf call.lib.yamlUnmarshal call.lookup call.ord call.services

/-- The part of `getSnapshot` between `getResources` and the increment. -/
def buildSnapshot (lib : Library) (version : ℤ) (resources : Resources) : Except String Snapshot :=
  match lib.yamlMarshal resources with
  | .error err => .error err
  | .ok _ => lib.newSnapshot (itoa version) resources

def getSnapshot (proc : Process) (call : UpdateCall) : Process × Outcome Passed :=
  match call.resources with
  | .err err => (proc, .err err)
  | .panic why => (proc, .panic why)
  | .ok resources =>
    match buildSnapshot call.lib proc.snapshotVersion resources with
    | .error err => (proc, .err err)
    | .ok snap =>
      ({ proc with snapshotVersion := increment proc.snapshotVersion },
        .ok { version := proc.snapshotVersion, resources := resources, snapshot := snap })

def updateCache (proc : Process) (call : UpdateCall) : Process × Outcome Unit :=
  match getSnapshot proc call with
  | (proc, .err err) => (proc, .err err)
  | (proc, .panic why) => (proc, .panic why)
  | (proc, .ok snap) =>
    let answer := call.setSnapshot proc.held snap.snapshot
    let proc := { proc with held := answer.1, passed := proc.passed ++ [snap] }
    match answer.2 with
    | some err => (proc, .err err)
    | none => (proc, .ok ())

/-- The process after the calls of a list. A panic ends the process: the calls after it are not
made. -/
def runCalls : Process → List UpdateCall → Process
  | proc, [] => proc
  | proc, call :: calls =>
    match updateCache proc call with
    | (proc, .panic _) => proc
    | (proc, .err _) => runCalls proc calls
    | (proc, .ok _) => runCalls proc calls

/-- Successive lives of the control plane, each with a fresh counter: what each passed to
`SetSnapshot`. -/
def runLives (lives : List (List UpdateCall)) : List (List Passed) :=
  lives.map fun calls => (runCalls Process.initial calls).passed

/-! ## One call -/

/-- `cache.NewSnapshot` is reached and succeeds. -/
def NewSnapshotSucceeds (proc : Process) (call : UpdateCall) : Prop :=
  ∃ resources text snap, call.resources = .ok resources ∧ call.lib.yamlMarshal resources = .ok text ∧
    call.lib.newSnapshot (itoa proc.snapshotVersion) resources = .ok snap

structure Built (proc : Process) (call : UpdateCall) (x : Passed) : Prop where
  version : x.version = proc.snapshotVersion
  resources : call.resources = .ok x.resources
  marshalled : ∃ text, call.lib.yamlMarshal x.resources = .ok text
  snapshot : call.lib.newSnapshot (itoa x.version) x.resources = .ok x.snapshot

theorem buildSnapshot_eq_ok {lib : Library} {version : ℤ} {resources : Resources} {snap : Snapshot} :
    buildSnapshot lib version resources = .ok snap ↔
      (∃ text, lib.yamlMarshal resources = .ok text) ∧ lib.newSnapshot (itoa version) resources = .ok snap := by
  unfold buildSnapshot
  cases lib.yamlMarshal resources with
  | error err => simp
  | ok text => simp

theorem getSnapshot_of_built {proc : Process} {call : UpdateCall} {resources : Resources} {snap : Snapshot}
    (hr : call.resources = .ok resources)
    (hb : buildSnapshot call.lib proc.snapshotVersion resources = .ok snap) :
    getSnapshot proc call = ({ proc with snapshotVersion := increment proc.snapshotVersion },
      .ok { version := proc.snapshotVersion, resources := resources, snapshot := snap }) := by
  unfold getSnapshot
  rw [hr]
  simp only [hb]

/-- A call of `getSnapshot` fails and changes nothing, or it builds a snapshot and increments. -/
theorem getSnapshot_cases (proc : Process) (call : UpdateCall) :
    ((getSnapshot proc call).1 = proc ∧ (∀ x, (getSnapshot proc call).2 ≠ .ok x) ∧
      ¬ NewSnapshotSucceeds proc call) ∨
    ∃ x, Built proc call x ∧ NewSnapshotSucceeds proc call ∧
      getSnapshot proc call = ({ proc with snapshotVersion := increment proc.snapshotVersion }, .ok x) := by
  unfold getSnapshot NewSnapshotSucceeds
  cases hr : call.resources with
  | err err => exact .inl ⟨rfl, by simp, by simp⟩
  | panic why => exact .inl ⟨rfl, by simp, by simp⟩
  | ok resources =>
    cases hb : buildSnapshot call.lib proc.snapshotVersion resources with
    | error err =>
      refine .inl ⟨by simp [hb], by simp [hb], ?_⟩
      intro ⟨resources', text, snap, hr', ht, hs⟩
      cases hr'
      rw [buildSnapshot_eq_ok.mpr ⟨⟨text, ht⟩, hs⟩] at hb
      cases hb
    | ok snap =>
      obtain ⟨⟨text, ht⟩, hs⟩ := buildSnapshot_eq_ok.mp hb
      refine .inr ⟨{ version := proc.snapshotVersion, resources := resources, snapshot := snap }, ?_, ?_, ?_⟩
      · exact ⟨rfl, hr, ⟨text, ht⟩, hs⟩
      · exact ⟨resources, text, snap, rfl, ht, hs⟩
      · simp [hb]

/-- The same for `updateCache`: what it passes on is what was built, once. -/
theorem updateCache_cases (proc : Process) (call : UpdateCall) :
    ((updateCache proc call).1 = proc ∧ (∀ x, (getSnapshot proc call).2 ≠ .ok x) ∧
      ¬ NewSnapshotSucceeds proc call) ∨
    ∃ x, Built proc call x ∧ NewSnapshotSucceeds proc call ∧ (getSnapshot proc call).2 = .ok x ∧
      (updateCache proc call).1 = {
        snapshotVersion := increment proc.snapshotVersion
        held := (call.setSnapshot proc.held x.snapshot).1
        passed := proc.passed ++ [x] } := by
  rcases getSnapshot_cases proc call with ⟨hp, hno, hns⟩ | ⟨x, hx, hns, hg⟩
  · refine .inl ⟨?_, hno, hns⟩
    unfold updateCache
    rcases hg : getSnapshot proc call with ⟨p, x | err | why⟩
    · rw [hg] at hno
      exact absurd rfl (hno x)
    · rw [hg] at hp
      exact hp
    · rw [hg] at hp
      exact hp
  · refine .inr ⟨x, hx, hns, by rw [hg], ?_⟩
    unfold updateCache
    simp only [hg]
    split <;> rfl

theorem runCalls_cons (proc : Process) (call : UpdateCall) (calls : List UpdateCall) :
    runCalls proc (call :: calls) = (updateCache proc call).1 ∨
      runCalls proc (call :: calls) = runCalls (updateCache proc call).1 calls := by
  rw [runCalls]
  rcases updateCache proc call with ⟨q, done | err | why⟩
  · exact .inr rfl
  · exact .inr rfl
  · exact .inl rfl

theorem runCalls_invariant (I : Process → Prop) (ok : UpdateCall → Prop)
    (hstep : ∀ proc call, I proc → ok call → I (updateCache proc call).1)
    {calls : List UpdateCall} (hok : ∀ call ∈ calls, ok call) {proc : Process} (h : I proc) :
    I (runCalls proc calls) := by
  induction calls generalizing proc with
  | nil => exact h
  | cons call calls ih =>
    have hnext := hstep proc call h (hok call (List.mem_cons_self ..))
    have hrest : ∀ c ∈ calls, ok c := fun c hc => hok c (List.mem_cons_of_mem call hc)
    rcases runCalls_cons proc call calls with he | he
    · rw [he]
      exact hnext
    · rw [he]
      exact ih hrest hnext

theorem passed_length_runCalls (proc : Process) (calls : List UpdateCall) :
    (runCalls proc calls).passed.length ≤ proc.passed.length + calls.length := by
  induction calls generalizing proc with
  | nil => exact Nat.le_refl _
  | cons call calls ih =>
    have hone : (updateCache proc call).1.passed.length ≤ proc.passed.length + 1 := by
      rcases updateCache_cases proc call with ⟨hp, _, _⟩ | ⟨x, _, _, _, hp⟩
      · rw [hp]
        omega
      · rw [hp, List.length_append, List.length_singleton]
    have hrest := ih (updateCache proc call).1
    rw [List.length_cons]
    rcases runCalls_cons proc call calls with he | he
    · rw [he]
      omega
    · rw [he]
      omega

end HalfMesh
