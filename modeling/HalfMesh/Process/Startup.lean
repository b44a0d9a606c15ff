import HalfMesh.Process.Steps

/-! Startup, and the hand-over of the updater from `Start` to the worker. `Control` ties the
program counters together: what `Start` has passed stays true, the worker exists only after `Start`
has returned without an error, and nothing is published before `ready` is set. -/
namespace HalfMesh
open HalfMesh.Foundations HalfMesh.Kube HalfMesh.Xds
set_option autoImplicit false
set_option maxHeartbeats 250000
set_option maxRecDepth 120000

/-- How far `Start` has come. A return with an error promises nothing. -/
def StartPC.rank : StartPC → ℕ
  | config => 0
  | waitSvc => 1
  | assignSvc => 2
  | waitEp => 3
  | assignEp => 4
  | storeReady => 5
  | updating _ => 6
  | launch => 7
  | returned none => 8
  | returned (some _) => 0

def StartPC.starting : StartPC → Bool
  | updating _ => false
  | launch => false
  | returned _ => false
  | _ => true

structure Control (s : System) : Prop where
  svc_started : 1 ≤ s.start.rank → s.svc.pc ≠ .notStarted
  svc_synced : 2 ≤ s.start.rank → s.svc.pending = []
  svc_assigned : 3 ≤ s.start.rank → s.svcAssigned = true
  ep_started : 3 ≤ s.start.rank → s.ep.pc ≠ .notStarted
  ep_synced : 4 ≤ s.start.rank → s.ep.pending = []
  ep_assigned : 5 ≤ s.start.rank → s.epAssigned = true
  ready : 6 ≤ s.start.rank → s.ready = true
  worker : s.worker ≠ .absent → s.start = .returned none
  silent : s.ready = false ∨ s.start.starting = true → s.pub.published = []

structure Established (s : System) : Prop where
  svc_started : s.svc.pc ≠ .notStarted
  svc_synced : s.svc.pending = []
  svc_assigned : s.svcAssigned = true
  ep_started : s.ep.pc ≠ .notStarted
  ep_synced : s.ep.pending = []
  ep_assigned : s.epAssigned = true
  ready : s.ready = true

section Control
variable {env : Env} {lib : Library} {s t : System}

theorem Control.established (h : Control s) (hr : 6 ≤ s.start.rank) : Established s where
  svc_started := h.svc_started (by omega)
  svc_synced := h.svc_synced (by omega)
  svc_assigned := h.svc_assigned (by omega)
  ep_started := h.ep_started (by omega)
  ep_synced := h.ep_synced (by omega)
  ep_assigned := h.ep_assigned (by omega)
  ready := h.ready hr

/-- What is established is about the stores and `ready` only, so it outlasts every step that
leaves these alone. -/
theorem Established.control (h : Established s) (hst : t.toStores = s.toStores) (hr : t.ready = s.ready)
    (hlate : t.start.starting = false) (hw : t.worker ≠ .absent → t.start = .returned none) : Control t := by
  cases s
  cases t
  cases hst
  cases hr
  refine ⟨fun _ => h.1, fun _ => h.2, fun _ => h.3, fun _ => h.4, fun _ => h.5, fun _ => h.6, fun _ => h.7, hw, ?_⟩
  intro hoff
  rw [h.ready, hlate] at hoff
  rcases hoff with hoff | hoff <;> cases hoff

theorem Control.absent_of_start (h : Control s) (hs : s.start ≠ .returned none) : s.worker = .absent := by
  by_contra hw
  exact hs (h.worker hw)

/-- Before its first run `Start` is alone, and nothing is published. -/
theorem Control.of_starting (h : Control s) (hs : s.start.starting = true) :
    s.worker = .absent ∧ s.pub.published = [] := by
  refine ⟨h.absent_of_start fun he => ?_, h.silent (.inr hs)⟩
  rw [he] at hs
  cases hs

theorem Control.of_worker (h : Control s) (hw : s.worker ≠ .absent) :
    s.start = .returned none ∧ s.start.starting = false ∧ Established s := by
  have hs := h.worker hw
  exact ⟨hs, by rw [hs]; rfl, h.established (by rw [hs]; decide)⟩

theorem control_initial : Control (System.initial env) :=
  ⟨nofun, nofun, nofun, nofun, nofun, nofun, nofun, fun h => absurd rfl h, fun _ => rfl⟩

/-- The informers start once and run on, whatever the other parties do. -/
theorem started_of_step {α : Type} {keyOf : α → String} {ready cancelled : Bool} {ch ch' : UpdateChan}
    {i i' : Informer keyOf} {e : InformerEvent α} (h : i.Step ready cancelled ch e (.ok (i', ch'))) :
    i'.pc ≠ .notStarted := by
  cases h <;> exact nofun

theorem control_svc {out : Except Panic (Informer Service.key × UpdateChan)} {e : InformerEvent Service}
    (h : Control s) (hs : s.svc.Step s.ready s.cancelled s.chan e out) : Control (s.svcAfter out) := by
  rcases out with why | ⟨i, ch⟩
  · exact ⟨h.1, h.2, h.3, h.4, h.5, h.6, h.7, h.8, h.9⟩
  · exact ⟨fun _ => started_of_step hs, fun hr => Informer.pending_of_step hs (h.svc_synced hr),
      h.svc_assigned, h.ep_started, h.ep_synced, h.ep_assigned, h.ready, h.worker, h.silent⟩

theorem control_ep {out : Except Panic (Informer Endpoints.key × UpdateChan)} {e : InformerEvent Endpoints}
    (h : Control s) (hs : s.ep.Step s.ready s.cancelled s.chan e out) : Control (s.epAfter out) := by
  rcases out with why | ⟨i, ch⟩
  · exact ⟨h.1, h.2, h.3, h.4, h.5, h.6, h.7, h.8, h.9⟩
  · exact ⟨h.svc_started, h.svc_synced, h.svc_assigned, fun _ => started_of_step hs,
      fun hr => Informer.pending_of_step hs (h.ep_synced hr), h.ep_assigned, h.ready, h.worker, h.silent⟩

theorem control_startAfter {pc : RunPC} {out : Except Panic (Publisher × Progress)} (h : Control s)
    (hs : s.start = .updating pc) : Control (s.startAfter out) := by
  have he := h.established (by rw [hs]; exact Nat.le_refl 6)
  have hw := h.absent_of_start (by rw [hs]; exact nofun)
  rcases out with why | ⟨pub, pc' | _ | err⟩
  · exact he.control rfl rfl (by rw [System.startAfter, System.panics, hs]; rfl) h.worker
  · exact he.control rfl rfl rfl fun hne => absurd hw hne
  · exact he.control rfl rfl rfl fun hne => absurd hw hne
  · exact he.control rfl rfl rfl fun hne => absurd hw hne

theorem control_workerAfter {pc : RunPC} {out : Except Panic (Publisher × Progress)} (h : Control s)
    (hs : s.worker ≠ .absent) : Control (s.workerAfter pc out) := by
  obtain ⟨hstart, hlate, he⟩ := h.of_worker hs
  rcases out with why | ⟨pub, pc' | err⟩
  · exact he.control rfl rfl hlate fun _ => hstart
  · exact he.control rfl rfl hlate fun _ => hstart
  · exact he.control rfl rfl hlate fun _ => hstart

/-- Before the first run `Start` passes one stage after the other; from then on everything is
established, and a step only has to respect that the worker comes after `Start`. -/
theorem control_step {a : Action} (h : Control s) (hs : System.Step lib s a t) : Control t := by
  cases hs with
  | svc hi => exact control_svc h hi
  | ep hi => exact control_ep h hi
  | configFails hs =>
    obtain ⟨hw, hsilent⟩ := h.of_starting (by rw [hs]; rfl)
    exact ⟨nofun, nofun, nofun, nofun, nofun, nofun, nofun, fun hne => absurd hw hne,
      fun _ => hsilent⟩
  | config hs =>
    obtain ⟨hw, hsilent⟩ := h.of_starting (by rw [hs]; rfl)
    exact ⟨fun _ => nofun, nofun, nofun, nofun, nofun, nofun, nofun, fun hne => absurd hw hne,
      fun _ => hsilent⟩
  | svcSynced hs hp =>
    obtain ⟨hw, hsilent⟩ := h.of_starting (by rw [hs]; rfl)
    have hrun := h.svc_started (by rw [hs]; decide)
    exact ⟨fun _ => hrun, fun _ => hp, nofun, nofun, nofun, nofun, nofun, fun hne => absurd hw hne,
      fun _ => hsilent⟩
  | epSynced hs hp =>
    obtain ⟨hw, hsilent⟩ := h.of_starting (by rw [hs]; rfl)
    have hr : 3 ≤ s.start.rank := by rw [hs]; decide
    exact ⟨fun _ => h.svc_started (by omega), fun _ => h.svc_synced (by omega), fun _ => h.svc_assigned hr,
      fun _ => h.ep_started hr, fun _ => hp, nofun, nofun, fun hne => absurd hw hne,
      fun _ => hsilent⟩
  | timeout hs hc =>
    obtain ⟨hw, hsilent⟩ := h.of_starting (by rcases hs with hs | hs <;> rw [hs] <;> rfl)
    exact ⟨nofun, nofun, nofun, nofun, nofun, nofun, nofun, fun hne => absurd hw hne,
      fun _ => hsilent⟩
  | assignSvc hs =>
    obtain ⟨hw, hsilent⟩ := h.of_starting (by rw [hs]; rfl)
    have hr : 2 ≤ s.start.rank := by rw [hs]; decide
    exact ⟨fun _ => h.svc_started (by omega), fun _ => h.svc_synced hr, fun _ => rfl, fun _ => nofun, nofun,
      nofun, nofun, fun hne => absurd hw hne,
      fun _ => hsilent⟩
  | assignEp hs =>
    obtain ⟨hw, hsilent⟩ := h.of_starting (by rw [hs]; rfl)
    have hr : 4 ≤ s.start.rank := by rw [hs]; decide
    exact ⟨fun _ => h.svc_started (by omega), fun _ => h.svc_synced (by omega), fun _ => h.svc_assigned (by omega),
      fun _ => h.ep_started (by omega), fun _ => h.ep_synced hr, fun _ => rfl, nofun,
      fun hne => absurd hw hne,
      fun _ => hsilent⟩
  | storeReady hs =>
    have hw := h.absent_of_start (by rw [hs]; exact nofun)
    have hr : 5 ≤ s.start.rank := by rw [hs]; decide
    have he : Established { s with start := .updating .listing, ready := true } :=
      ⟨h.svc_started (by omega), h.svc_synced (by omega), h.svc_assigned (by omega), h.ep_started (by omega),
        h.ep_synced (by omega), h.ep_assigned hr, rfl⟩
    exact he.control rfl rfl rfl fun hne => absurd hw hne
  | startRun hs _ => exact control_startAfter h hs
  | launch hs =>
    have he := h.established (by rw [hs]; decide)
    exact he.control rfl rfl rfl fun _ => rfl
  | done hs _ =>
    obtain ⟨hstart, hlate, he⟩ := h.of_worker (by rw [hs]; exact nofun)
    exact he.control rfl rfl hlate fun _ => hstart
  | receive hs _ =>
    obtain ⟨hstart, hlate, he⟩ := h.of_worker (by rw [hs]; exact nofun)
    exact he.control rfl rfl hlate fun _ => hstart
  | workerRun hs _ => exact control_workerAfter h (by rw [hs]; exact nofun)
  | close hs | closePanicking hs =>
    obtain ⟨hstart, hlate, he⟩ := h.of_worker (by rw [hs]; exact nofun)
    exact he.control rfl rfl hlate fun _ => hstart
  | cancel => exact ⟨h.1, h.2, h.3, h.4, h.5, h.6, h.7, h.8, h.9⟩
  | crash _ | panic _ => exact ⟨h.1, h.2, h.3, h.4, h.5, h.6, h.7, h.8, h.9⟩

theorem Reachable.control (h : Reachable env s) : Control s :=
  Reach.invariant Control control_initial (fun _ _ _ _ hc _ hs => control_step hc (System.step_cases hs).2) h

end Control
end HalfMesh
