import HalfMesh.Process.Rollback

/-! The interleaved system refines the sequential one: whatever the interleaving, the snapshots it
passes on and its counter are those of a process that makes one call of `updateCache` after the
other, each on the Services one run listed and the answers it got. The versions of the published
snapshots are numbered as in a sequential process. -/
namespace HalfMesh
open HalfMesh.Foundations HalfMesh.Kube HalfMesh.Xds
set_option autoImplicit false
set_option maxHeartbeats 250000
set_option maxRecDepth 120000

/-- One call of `updateCache` that does not panic. -/
def Process.step (proc : Process) (call : UpdateCall) : Option Process :=
  match updateCache proc call with
  | (_, .panic _) => none
  | (proc, .err _) => some proc
  | (proc, .ok _) => some proc

def Publication.call (lib : Library) (ord : RangeOrders) (answer : Option String) (p : Publication) :
    UpdateCall where
  services := p.run.services
  lookup := p.run.lookup
  ord := ord
  lib := lib
  setSnapshot _ snap := (some snap, answer)

/-- The snapshot a run has built and not passed on yet. -/
def RunPC.built? : RunPC → Option Passed
  | publishing _ snap => some snap
  | _ => none

/-- The process has passed on the same snapshots; its counter is behind while a run is between the
increment and `SetSnapshot`. -/
structure Refines (pub : Publisher) (active : List RunPC) (proc : Process) : Prop where
  passed : proc.passed = pub.published.map Publication.passed
  counter : active.filterMap RunPC.built? = [] → pub.snapshotVersion = proc.snapshotVersion
  built : ∀ snap ∈ active.filterMap RunPC.built?, snap.version = proc.snapshotVersion ∧
    pub.snapshotVersion = increment proc.snapshotVersion

section
variable {env : Env} {lib : Library} {stores : Stores} {pub pub' : Publisher} {s t : System} {proc proc' : Process}

theorem runCalls_of_runActions {calls : List UpdateCall} (h : runActions Process.step proc calls = some proc') :
    runCalls proc calls = proc' := by
  induction calls generalizing proc with
  | nil => exact Option.some.inj h
  | cons call calls ih =>
    obtain ⟨q, hq, hrest⟩ := Option.bind_eq_some_iff.mp h
    unfold Process.step at hq
    rw [runCalls]
    rcases hu : updateCache proc call with ⟨q', done | err | why⟩
    · rw [hu] at hq
      obtain rfl := Option.some.inj hq
      exact ih hrest
    · rw [hu] at hq
      obtain rfl := Option.some.inj hq
      exact ih hrest
    · rw [hu] at hq
      cases hq

theorem step_call {p : Publication} (h : p.Sound lib stores) (hv : p.passed.version = proc.snapshotVersion)
    (answer : Option String) : ∃ ord, proc.step (p.call lib ord answer) = some {
      snapshotVersion := increment proc.snapshotVersion
      held := some p.passed.snapshot
      passed := proc.passed ++ [p.passed] } := by
  obtain ⟨ord, hok⟩ := h.computed (answers_lookup h.recorded h.collected)
  refine ⟨ord, ?_⟩
  have hres : (p.call lib ord answer).resources = .ok p.passed.resources := hok
  have hbuild : buildSnapshot lib proc.snapshotVersion p.passed.resources = .ok p.passed.snapshot := hv ▸ h.snapshot
  have hget := getSnapshot_of_built hres hbuild
  have hpassed : (⟨proc.snapshotVersion, p.passed.resources, p.passed.snapshot⟩ : Passed) = p.passed := by
    rw [← hv]
  rw [hpassed] at hget
  unfold Process.step updateCache
  rw [hget]
  cases answer with
  | none => rfl
  | some err => rfl

/-- A step of a run is invisible to the process, but for the last one, which is one call. -/
theorem refines_runStep {pc : RunPC} {e : RunEvent} {progress : Progress}
    (hs : RunStep lib stores pub pc e (.ok (pub', progress))) (hpc : pc.Sound lib stores)
    (h : Refines pub [pc] proc) : Refines pub' progress.active proc ∨
      ∃ call proc', proc.step call = some proc' ∧ Refines pub' progress.active proc' := by
  cases hs with
  | list _ => exact .inl ⟨h.passed, fun _ => h.counter rfl, nofun⟩
  | iterate _ _ => exact .inl ⟨h.passed, fun _ => h.counter rfl, nofun⟩
  | iterateFails _ _ => exact .inl ⟨h.passed, fun _ => h.counter rfl, nofun⟩
  | buildFails _ _ => exact .inl ⟨h.passed, fun _ => h.counter rfl, nofun⟩
  | build _ _ =>
    have hcounter := h.counter rfl
    refine .inl ⟨h.passed, nofun, fun snap hsnap => ?_⟩
    obtain rfl := List.mem_singleton.mp hsnap
    exact ⟨hcounter, congrArg increment hcounter⟩
  | @publish run snap answer =>
    obtain ⟨hv, hcounter⟩ := h.built snap (List.mem_singleton_self snap)
    obtain ⟨ord, hstep⟩ := step_call hpc hv answer
    refine .inr ⟨_, _, hstep, ?_, fun _ => hcounter, nofun⟩
    change proc.passed ++ [snap] = (pub.published ++ [(⟨run, snap⟩ : Publication)]).map Publication.passed
    rw [List.map_append, h.passed]
    rfl

theorem refines_step (h : Refines s.pub s.inProgress proc) (hsound : RunsSound env s.toStores s.pub s.inProgress)
    (hs : RunsStep env.lib s t) :
    Refines t.pub t.inProgress proc ∨
      ∃ call proc', proc.step call = some proc' ∧ Refines t.pub t.inProgress proc' := by
  cases hs with
  | other _ hpub hruns _ =>
    rw [hpub, hruns]
    exact .inl h
  | begins _ hpub hbefore hafter =>
    rw [hpub, hafter]
    rw [hbefore] at h
    exact .inl ⟨h.passed, fun _ => h.counter rfl, nofun⟩
  | @runs pc e progress hbefore hstep _ _ hafter =>
    have hpc := hsound.active pc (by rw [hbefore]; exact List.mem_singleton_self pc)
    rw [hbefore] at h
    rw [hafter]
    exact refines_runStep hstep hpc h

theorem refines_initial : Refines (System.initial env).pub (System.initial env).inProgress Process.initial :=
  ⟨rfl, fun _ => rfl, fun _ hsnap => absurd hsnap List.not_mem_nil⟩

/-- The system does what some sequence of calls does, none of which panics. -/
theorem Reachable.refines (h : Reachable env s) : ∃ calls proc,
    runActions Process.step Process.initial calls = some proc ∧ Refines s.pub s.inProgress proc := by
  have hsim : ∃ proc, Reach Process.step anyStep Process.initial proc ∧ Refines s.pub s.inProgress proc :=
    Reach.simulates (fun (s : System) proc => Refines s.pub s.inProgress proc) refines_initial
      (fun _ _ _ _ hr hrel hs => refines_step hrel (Reachable.runsSound hr) (Reachable.runsStep hr hs)) h
  obtain ⟨proc, hreach, hrel⟩ := hsim
  obtain ⟨calls, hcalls⟩ := hreach.exists_runActions
  exact ⟨calls, proc, hcalls, hrel⟩

/-- Snapshots are numbered in the order in which they are passed on, from 1, in every interleaving. -/
theorem Reachable.published_version (h : Reachable env s) {i : ℕ} {p : Publication}
    (hp : s.pub.published[i]? = some p) : p.passed.version = (1 + (i : ℤ)).bmod (2 ^ 64) := by
  obtain ⟨calls, proc, hcalls, hrel⟩ := h.refines
  have hnum := numbered_runCalls calls
  rw [runCalls_of_runActions hcalls] at hnum
  refine hnum.numbers i p.passed ?_
  rw [hrel.passed, List.getElem?_map, hp]
  rfl

/-! ## The calls, one for each snapshot -/

theorem iterate_increment (i : ℕ) : increment^[i] 1 = (1 + (i : ℤ)).bmod (2 ^ 64) := by
  induction i with
  | zero => decide
  | succ i ih =>
    rw [Function.iterate_succ_apply', ih, increment, Int.bmod_add_bmod, Int.add_assoc]
    rfl

/-- The call reads what the run of the publication has read. -/
def CallOf (lib : Library) (call : UpdateCall) (p : Publication) : Prop :=
  call.lib = lib ∧ call.services = p.run.services ∧ call.lookup = p.run.lookup

theorem calls_of_sound {ps : List Publication} (hsound : ∀ p ∈ ps, p.Sound lib stores)
    (hnum : ∀ i p, ps[i]? = some p → p.passed.version = increment^[i] proc.snapshotVersion) :
    ∃ calls proc', runActions Process.step proc calls = some proc' ∧ List.Forall₂ (CallOf lib) calls ps ∧
      proc'.passed = proc.passed ++ ps.map Publication.passed ∧
      proc'.snapshotVersion = increment^[ps.length] proc.snapshotVersion := by
  induction ps generalizing proc with
  | nil => exact ⟨[], proc, rfl, .nil, (List.append_nil _).symm, rfl⟩
  | cons p ps ih =>
    obtain ⟨ord, hstep⟩ := step_call (hsound p (List.mem_cons_self ..)) (hnum 0 p rfl) none
    let next : Process := {
      snapshotVersion := increment proc.snapshotVersion
      held := some p.passed.snapshot
      passed := proc.passed ++ [p.passed] }
    obtain ⟨calls, proc', hrun, hcalls, hpassed, hversion⟩ := @ih next
      (fun q hq => hsound q (List.mem_cons_of_mem _ hq)) (fun i q hq => hnum (i + 1) q hq)
    refine ⟨p.call lib ord none :: calls, proc', ?_, .cons ⟨rfl, rfl, rfl⟩ hcalls, ?_, hversion⟩
    · rw [runActions, hstep, Option.bind_some, hrun]
    · rw [hpassed, List.append_assoc]
      rfl

end

/-- Whatever the interleaving, the snapshots passed on are those of one call of `updateCache` after
the other, each on the Services and Endpoints that its run found in the indexers at its reads; and
between two calls the global counter is that of the sequential process. -/
theorem published_refines (env : Env) (s : System) (h : Reachable env s) : ∃ calls proc,
    runActions Process.step Process.initial calls = some proc ∧
    List.Forall₂ (CallOf env.lib) calls s.pub.published ∧
    (∀ p ∈ s.pub.published, Recorded s.toStores p.run) ∧
    proc.passed = s.pub.published.map Publication.passed ∧
    (s.inProgress.filterMap RunPC.built? = [] → s.pub.snapshotVersion = proc.snapshotVersion) := by
  have hsound := h.runsSound.published
  obtain ⟨calls, proc, hrun, hcalls, hpassed, hversion⟩ := @calls_of_sound _ _ Process.initial _ hsound
    fun i p hp => (h.published_version hp).trans (iterate_increment i).symm
  refine ⟨calls, proc, hrun, hcalls, fun p hp => (hsound p hp).recorded, hpassed, fun hidle => ?_⟩
  obtain ⟨calls', proc', hrun', hrel⟩ := h.refines
  have hcounter := (numbered_runCalls calls').counter
  rw [runCalls_of_runActions hrun', hrel.passed, List.length_map] at hcounter
  rw [hrel.counter hidle, hcounter, hversion]
  exact (iterate_increment _).symm

theorem published_refines_demo : ∃ calls proc,
    runActions Process.step Process.initial calls = some proc ∧
    List.Forall₂ (CallOf demoEnv.lib) calls demoSystem.pub.published ∧
    (∀ p ∈ demoSystem.pub.published, Recorded demoSystem.toStores p.run) ∧
    proc.passed = demoSystem.pub.published.map Publication.passed ∧
    (demoSystem.inProgress.filterMap RunPC.built? = [] →
      demoSystem.pub.snapshotVersion = proc.snapshotVersion) :=
  published_refines demoEnv demoSystem demoSystem_reachable

end HalfMesh
