import HalfMesh.Foundations.Progress
import HalfMesh.Process.Freshness

/-! A failed update is healed by the next one that succeeds. The system remembers that some call of
`updateCache` has failed, but not which; the monitor `lastCall` tells whether the last call that has
ended did well. While it did, the last snapshot is that of the indexers or a run is on its way,
whatever failed before. -/
namespace HalfMesh
open HalfMesh.Foundations HalfMesh.Kube HalfMesh.Xds
set_option autoImplicit false
set_option maxHeartbeats 250000
set_option maxRecDepth 120000

/-- `SetSnapshot` takes a snapshot without an error. -/
def Action.succeeds : Action → Bool
  | .start (.run (.publish none)) => true
  | .worker (.run (.publish none)) => true
  | _ => false

/-- Whether the last call of `updateCache` that has ended succeeded; it stays so until one ends. -/
def lastCall (s : System) (a : Action) (t : System) (good : Bool) : Bool :=
  match s.inProgress, t.inProgress with
  | _ :: _, [] => a.succeeds
  | _, _ => good

/-- The state is reached by a run in which the last call ended well, or none has ended. -/
def ReachableWell (env : Env) (s : System) : Prop :=
  Reach (observe (System.step env.lib) lastCall) anyStep (System.initial env, true) (s, true)

/-- What is published is fresh or on its way to be replaced, if the last call went well. -/
def Current (s : System) (good : Bool) : Prop :=
  s.inProgress = [] → good = true → ∀ p, s.pub.published.getLast? = some p → Fresh s.toStores p.run ∨ s.Pending

section
variable {env : Env} {lib : Library} {s t : System} {a : Action} {good : Bool}

theorem ReachableWell.reachable (h : ReachableWell env s) : Reachable env s := Reach.of_observe h

theorem publish_of_runStep {stores : Stores} {pub : Publisher} {pc : RunPC}
    {out : Except Panic (Publisher × Progress)} (h : RunStep lib stores pub pc (.publish none) out) :
    ∃ run snap, pc = .publishing run snap ∧ out = .ok (pub.publish run snap none, .finished none) := by
  cases h with
  | publish => exact ⟨_, _, rfl, rfl⟩

/-- A step that ends a call well appends the snapshot of the run in progress. -/
theorem publishes_of_succeeds (hgood : a.succeeds = true) (hc : Control s) (hs : System.Step lib s a t) :
    ∃ run snap, s.inProgress = [.publishing run snap] ∧ t.toStores = s.toStores ∧ t.chan = s.chan ∧
      t.pub.published = s.pub.published ++ [⟨run, snap⟩] := by
  unfold Action.succeeds at hgood
  split at hgood
  · cases hs with
    | startRun hs hr =>
      obtain ⟨run, snap, rfl, rfl⟩ := publish_of_runStep hr
      have hw := hc.absent_of_start (by rw [hs]; exact nofun)
      exact ⟨run, snap, inProgress_of_start (some _) (by rw [hs]; rfl) hw, rfl, rfl, rfl⟩
  · cases hs with
    | workerRun hs hr =>
      obtain ⟨run, snap, rfl, rfl⟩ := publish_of_runStep hr
      have hstart := hc.worker (by rw [hs]; exact nofun)
      exact ⟨run, snap, inProgress_of_worker (some _) (by rw [hs]; rfl) hstart, rfl, rfl, rfl⟩
  · cases hgood

theorem current_step (h : Current s good) (hu : UpToDate s) (hc : Control s) (hs : System.Step lib s a t)
    (hr : RunsStep lib s t) : Current t (lastCall s a t good) := by
  intro hidle hgood p hp
  cases hr with
  | other _ hpub hruns htold =>
    rw [hidle] at hruns
    rw [lastCall, ← hruns] at hgood
    rw [hpub] at hp
    by_cases hready : s.ready = true ∧ s.start.starting = false
    · exact fresh_of_told (htold hready.1 hready.2) (h hruns.symm hgood p hp)
    · rw [(hc.idle_of_unready hready).2] at hp
      cases hp
  | begins _ _ _ hafter =>
    rw [hidle] at hafter
    cases hafter
  | runs hbefore _ _ _ _ =>
    rw [lastCall, hbefore, hidle] at hgood
    obtain ⟨run, snap, hrun, hst, hchan, hpub⟩ := publishes_of_succeeds hgood hc hs
    rw [hpub, List.getLast?_concat] at hp
    obtain rfl := Option.some.inj hp
    have hin : RunPC.publishing run snap ∈ s.inProgress := by
      rw [hrun]
      exact List.mem_singleton_self _
    rw [System.Pending, hst, hchan]
    exact hu.active _ hin run rfl

theorem current_initial : Current (System.initial env) true := fun _ _ _ hp => by cases hp

theorem ReachableWell.current (h : ReachableWell env s) : Current s true := by
  refine Reach.invariant (fun x : System × Bool => Current x.1 x.2) current_initial ?_ h
  intro x a y hx hi _ hy
  obtain ⟨hstep, hwatch⟩ := observe_eq_some.mp hy
  have hr : Reachable env x.1 := Reach.of_observe hx
  rw [hwatch]
  exact current_step hi hr.upToDate hr.control (System.step_cases hstep).2 (hr.runsStep hstep)

/-! ## Waiting for the next change -/

/-- `Start` has returned, the worker waits, and no change is on its way to it. -/
structure Waiting (s : System) : Prop where
  started : s.start = .returned none
  waiting : s.worker = .select
  no_token : s.chan.token = false
  svc_handled : ¬ s.svc.InFlight
  ep_handled : ¬ s.ep.InFlight

theorem Waiting.not_pending (h : Waiting s) : ¬ s.Pending := by
  intro hp
  rcases hp with htok | hf | hf
  · rw [h.no_token] at htok
    cases htok
  · exact h.svc_handled hf
  · exact h.ep_handled hf

/-- The snapshot passed on last, by a run whose values the indexers still hold. -/
theorem ReachableWell.fresh (h : ReachableWell env s) (hw : Waiting s) :
    ∃ p, s.pub.published.getLast? = some p ∧ p.Sound env.lib s.toStores ∧ Fresh s.toStores p.run := by
  have hr := h.reachable
  have hne : s.pub.published ≠ [] := hr.launched (by rw [hw.started]; decide)
  obtain ⟨p, hp⟩ := Option.isSome_iff_exists.mp (List.getLast?_isSome.mpr hne)
  have hidle : s.inProgress = [] := inProgress_of_worker none (by rw [hw.waiting]; rfl) hw.started
  have hfresh := (h.current hidle rfl p hp).resolve_right hw.not_pending
  exact ⟨p, hp, hr.runsSound.published p (List.mem_of_getLast? hp), hfresh⟩

/-- Whatever calls have failed before the last one, a waiting worker has passed on what
`getResources` computes now. -/
theorem published_heals (env : Env) (s : System) (h : ReachableWell env s) (hw : Waiting s) :
    ∃ p, s.pub.published.getLast? = some p ∧
      ∀ ord, ∃ r, s.watcher.getResources env.lib.yamlUnmarshal ord = .ok r ∧ p.passed.resources.Equiv r := by
  obtain ⟨p, hp, hsound, hfresh⟩ := h.fresh hw
  exact ⟨p, hp, fun ord => equiv_of_fresh hsound hfresh ord⟩

/-! The deletion of the demo, whose `SetSnapshot` fails, and then the deletion of the Endpoints. -/

def demoFailure : List Action :=
  demoStartup ++ [.svc (.apply (.delete "default/service-beta")), .svc .handler, .svc .send, .worker .receive,
    .worker (.run (.list default)), .worker (.run .iterate), .worker (.run (.build default)),
    .worker (.run (.publish (some "no watch"))), .ep (.apply (.delete "default/service-beta")), .ep .handler,
    .ep .send, .worker .receive, .worker (.run (.list default)), .worker (.run .iterate),
    .worker (.run (.build default)), .worker (.run (.publish none))]

theorem demoFailure_enabled : (runActions (observe (System.step demoEnv.lib) lastCall)
    (System.initial demoEnv, true) demoFailure).isSome := by decide

def demoHealed : System × Bool := (runActions (observe (System.step demoEnv.lib) lastCall)
  (System.initial demoEnv, true) demoFailure).get demoFailure_enabled

theorem demoHealed_reachable : ReachableWell demoEnv demoHealed.1 := by
  have hgood : demoHealed = (demoHealed.1, true) := by
    refine Prod.ext rfl ?_
    decide
  unfold ReachableWell
  rw [← hgood]
  exact Reach.of_runActions (Option.some_get _).symm

theorem demoHealed_waiting : Waiting demoHealed.1 := by
  have hpcs : demoHealed.1.svc.pc = .idle ∧ demoHealed.1.ep.pc = .idle := by decide
  refine ⟨rfl, rfl, rfl, ?_, ?_⟩
  · rw [Informer.InFlight, hpcs.1]
    decide
  · rw [Informer.InFlight, hpcs.2]
    decide

theorem published_heals_demo : demoHealed.1.pub.failed = true ∧
    ∃ p, demoHealed.1.pub.published.getLast? = some p ∧
      ∀ ord, ∃ r, demoHealed.1.watcher.getResources demoEnv.lib.yamlUnmarshal ord = .ok r ∧
        p.passed.resources.Equiv r :=
  ⟨rfl, published_heals demoEnv demoHealed.1 demoHealed_reachable demoHealed_waiting⟩

end
end HalfMesh
