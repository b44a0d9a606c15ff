import HalfMesh.Process.Startup
import HalfMesh.Process.Versions

/-! Shutdown. The worker, the receiver, closes `updateChan` when the context is cancelled, and also
when a call of `updateCache` panics, while the informers, the senders, may go on delivering: `ready`
is never reset, so a handler that runs after the close sends on a closed channel. The close is
harmless exactly when both informers have stopped before it. -/
namespace HalfMesh
open HalfMesh.Foundations HalfMesh.Kube HalfMesh.Xds
set_option autoImplicit false
set_option maxHeartbeats 250000
set_option maxRecDepth 120000

/-- The send in `updateFunc`, called from a handler of either informer. -/
def Action.IsSend (a : Action) : Prop := a = .svc .send ∨ a = .ep .send

/-- No send is executed on the closed channel, from `s` on. -/
def SafeFrom (lib : Library) (s : System) : Prop :=
  ∀ t a u, Reach (System.step lib) anyStep s t → t.step lib a = some u → a.IsSend → t.chan.closed = false

/-- The worker's close, on either path, waits for both informers to stop. -/
def ClosesLast (s : System) (a : Action) : Prop :=
  a = .worker .close → s.svc.pc = .stopped ∧ s.ep.pc = .stopped

/-- The deferred close has run. -/
def WorkerPC.closed : WorkerPC → Prop
  | exited => True
  | unwound _ _ => True
  | _ => False

/-- The worker has closed the channel, and no informer is left to send on it. -/
structure ShutDown (s : System) : Prop where
  worker : s.worker.closed
  svc : s.svc.pc = .stopped
  ep : s.ep.pc = .stopped

section
variable {env : Env} {lib : Library} {s t u : System} {a : Action}

theorem not_step_of_stopped {α : Type} {keyOf : α → String} {ready cancelled : Bool} {ch : UpdateChan}
    {i : Informer keyOf} {e : InformerEvent α} {out : Except Panic (Informer keyOf × UpdateChan)}
    (hpc : i.pc = .stopped) : ¬ i.Step ready cancelled ch e out := by
  intro h
  cases h with
  | applyInitial h _ | apply h | resync h _ | skip h _ | handler h _ | send h _ | sendClosed h _ | stop h _ =>
    rw [hpc] at h
    cases h

theorem WorkerPC.closed.ne_absent {pc : WorkerPC} (h : pc.closed) : pc ≠ .absent := by
  rintro rfl
  exact h

/-- Nothing happens after shutdown but a cancellation, and the end of a process that has panicked. -/
theorem shutDown_step (h : ShutDown s) (hc : Control s) (hs : System.Step lib s a t) : ShutDown t := by
  have hstart := hc.worker h.worker.ne_absent
  have hclosed := h.worker
  cases hs with
  | svc hi => exact absurd hi (not_step_of_stopped h.svc)
  | ep hi => exact absurd hi (not_step_of_stopped h.ep)
  | cancel | crash _ => exact ⟨h.worker, h.svc, h.ep⟩
  | timeout hs _ =>
    rw [hstart] at hs
    rcases hs with hs | hs <;> cases hs
  | configFails hs | config hs | svcSynced hs _ | epSynced hs _ | assignSvc hs | assignEp hs | storeReady hs
  | startRun hs _ | launch hs | panic hs =>
    rw [hstart] at hs
    cases hs
  | done hs _ | receive hs _ | workerRun hs _ | close hs | closePanicking hs =>
    rw [hs] at hclosed
    exact absurd hclosed id

theorem isSend_of_shutDown (h : ShutDown s) (hs : System.Step lib s a t) : ¬ a.IsSend := by
  intro hsend
  cases hs with
  | svc hi => exact not_step_of_stopped h.svc hi
  | ep hi => exact not_step_of_stopped h.ep hi
  | _ => rcases hsend with hsend | hsend <;> cases hsend

theorem closed_of_step (hs : System.Step lib s a t) (hopen : s.chan.closed = false) :
    t.chan.closed = false ∨ a = .worker .close ∧ ∃ pc : WorkerPC, pc.closed ∧
      t = { s with worker := pc, chan := { s.chan with closed := true } } := by
  cases hs with
  | close _ => exact .inr ⟨rfl, .exited, trivial, rfl⟩
  | @closePanicking pc why _ => exact .inr ⟨rfl, .unwound pc why, trivial, rfl⟩
  | @svc e out hi =>
    rcases out with why | ⟨i, ch⟩
    · exact .inl hopen
    · exact .inl ((Informer.chan_of_step hi).1.trans hopen)
  | @ep e out hi =>
    rcases out with why | ⟨i, ch⟩
    · exact .inl hopen
    · exact .inl ((Informer.chan_of_step hi).1.trans hopen)
  | @startRun pc e out _ _ => rcases out with why | ⟨pub, pc' | _ | err⟩ <;> exact .inl hopen
  | @workerRun pc e out _ _ => rcases out with why | ⟨pub, pc' | err⟩ <;> exact .inl hopen
  | _ => exact .inl hopen

/-- Along a run whose closes come last, a closed channel means shutdown. -/
theorem shutDown_of_closed (h : Reach (System.step env.lib) ClosesLast (System.initial env) s) :
    s.chan.closed = true → ShutDown s := by
  refine Reach.invariant (fun s => s.chan.closed = true → ShutDown s) (fun h => by cases h) ?_ h
  intro s a t hr hi hok hs hclosed
  have hc : Control s := @Reachable.control env _ (hr.mono fun _ _ _ => trivial)
  have hstep := (System.step_cases hs).2
  cases hwas : s.chan.closed with
  | true => exact shutDown_step (hi hwas) hc hstep
  | false =>
    rcases closed_of_step hstep hwas with hopen | ⟨ha, pc, hpc, rfl⟩
    · rw [hopen] at hclosed
      cases hclosed
    · obtain ⟨hsvc, hep⟩ := hok ha
      exact ⟨hpc, hsvc, hep⟩

theorem safeFrom_of_shutDown (hr : Reachable env s) (h : ShutDown s) : SafeFrom env.lib s := by
  intro t a u ht hs hsend
  have hdown : ShutDown t ∧ Reachable env t := by
    refine Reach.invariant (fun t => ShutDown t ∧ Reachable env t) ⟨h, hr⟩ ?_ ht
    intro t a u _ ⟨hd, hrt⟩ hok hs
    exact ⟨shutDown_step hd hrt.control (System.step_cases hs).2, .tail a hrt hok hs⟩
  exact absurd hsend (isSend_of_shutDown hdown.1 (System.step_cases hs).2)

/-! ## A close that does not come last -/

theorem SafeFrom.next (h : SafeFrom lib s) (hs : s.step lib a = some t) : SafeFrom lib t :=
  fun u b v hr => h u b v ((Reach.tail a .refl trivial hs).trans hr)

/-- The channel is closed and a handler that runs now will send. -/
structure Exposed (s : System) : Prop where
  no_panic : s.crash = none
  ready : s.ready = true
  closed : s.chan.closed = true

theorem step_svc (h : s.crash = none) {e : InformerEvent Service}
    {out : Except Panic (Informer Service.key × UpdateChan)}
    (hi : s.svc.step s.ready s.cancelled s.chan e = some out) : s.step lib (.svc e) = some (s.svcAfter out) := by
  simp [System.step, h, hi]

theorem step_ep (h : s.crash = none) {e : InformerEvent Endpoints}
    {out : Except Panic (Informer Endpoints.key × UpdateChan)}
    (hi : s.ep.step s.ready s.cancelled s.chan e = some out) : s.step lib (.ep e) = some (s.epAfter out) := by
  simp [System.step, h, hi]

section Deliver
variable {α : Type} {keyOf : α → String} {ready cancelled : Bool} {ch : UpdateChan} {i : Informer keyOf}

theorem step_apply (h : i.pc = .idle) (c : Change α String) :
    i.step ready cancelled ch (.apply c) = some (.ok (i.change c, ch)) := by
  simp [Informer.step, h]

theorem step_handler (h : i.pc = .applied) (hr : ready = true) :
    i.step ready cancelled ch .handler = some (.ok ({ i with pc := .sending }, ch)) := by
  simp [Informer.step, h, hr]

theorem step_send (h : i.pc = .sending) (hc : ch.closed = true) :
    i.step ready cancelled ch .send = some (.error .sendOnClosedChannel) := by
  simp [Informer.step, h, UpdateChan.trySend, hc, Except.map]

end Deliver

/-- From wherever its goroutine stands, a running informer gets to its send. The informer is given
by where the system keeps it, and by the action and the effect of its steps. -/
theorem not_safe_of_running {α : Type} {keyOf : α → String} (informer : System → Informer keyOf)
    (act : InformerEvent α → Action) (after : System → Except Panic (Informer keyOf × UpdateChan) → System)
    (hact : ∀ (u : System) (e : InformerEvent α) (out : Except Panic (Informer keyOf × UpdateChan)),
      u.crash = none → (informer u).step u.ready u.cancelled u.chan e = some out →
        u.step lib (act e) = some (after u out))
    (hafter : ∀ (u : System) (i : Informer keyOf), Exposed u →
      Exposed (after u (.ok (i, u.chan))) ∧ informer (after u (.ok (i, u.chan))) = i)
    (hsend : (act .send).IsSend) (h : Exposed s) (hstarted : (informer s).pc ≠ .notStarted)
    (hrunning : (informer s).pc ≠ .stopped) : ¬ SafeFrom lib s := by
  have hsending : ∀ u : System, Exposed u → (informer u).pc = .sending → ¬ SafeFrom lib u := by
    intro u hu hpc hsafe
    have hopen := hsafe u _ _ .refl (hact u _ _ hu.no_panic (step_send hpc hu.closed)) hsend
    rw [hu.closed] at hopen
    cases hopen
  have hhandler : ∀ u : System, Exposed u → (informer u).pc = .applied → ¬ SafeFrom lib u := by
    intro u hu hpc hsafe
    have hnext := hsafe.next (hact u _ _ hu.no_panic (step_handler hpc hu.ready))
    obtain ⟨hexposed, hi⟩ := hafter u { informer u with pc := .sending } hu
    exact hsending _ hexposed (by rw [hi]) hnext
  intro hsafe
  cases hpc : (informer s).pc with
  | notStarted => exact hstarted hpc
  | idle =>
    have hnext := hsafe.next (hact s _ _ h.no_panic (step_apply hpc (.delete "")))
    obtain ⟨hexposed, hi⟩ := hafter s ((informer s).change (.delete "")) h
    exact hhandler _ hexposed (by rw [hi]; rfl) hnext
  | applied => exact hhandler s h hpc hsafe
  | sending => exact hsending s h hpc hsafe
  | stopped => exact hrunning hpc

theorem not_safe_of_svc (h : Exposed s) (hstarted : s.svc.pc ≠ .notStarted) (hrunning : s.svc.pc ≠ .stopped) :
    ¬ SafeFrom lib s :=
  not_safe_of_running (fun u => u.svc) Action.svc System.svcAfter (fun _ _ _ hc hi => step_svc hc hi)
    (fun _ _ hu => ⟨⟨hu.no_panic, hu.ready, hu.closed⟩, rfl⟩) (.inl rfl) h hstarted hrunning

theorem not_safe_of_ep (h : Exposed s) (hstarted : s.ep.pc ≠ .notStarted) (hrunning : s.ep.pc ≠ .stopped) :
    ¬ SafeFrom lib s :=
  not_safe_of_running (fun u => u.ep) Action.ep System.epAfter (fun _ _ _ hc hi => step_ep hc hi)
    (fun _ _ hu => ⟨⟨hu.no_panic, hu.ready, hu.closed⟩, rfl⟩) (.inr rfl) h hstarted hrunning

/-- The close of a worker that returns and that of one that panics leave the same state behind. -/
theorem worker_of_close (hs : System.Step lib s (.worker .close) t) :
    s.worker ≠ .absent ∧ ∃ pc : WorkerPC, pc.closed ∧
      t = { s with worker := pc, chan := { s.chan with closed := true } } := by
  cases hs with
  | close hw => exact ⟨by rw [hw]; simp, .exited, trivial, rfl⟩
  | @closePanicking pc why hw => exact ⟨by rw [hw]; simp, .unwound pc why, trivial, rfl⟩

theorem safeFrom_close_iff (hr : Reachable env s) (hs : s.step env.lib (.worker .close) = some t) :
    SafeFrom env.lib t ↔ s.svc.pc = .stopped ∧ s.ep.pc = .stopped := by
  obtain ⟨hcrash, hstep⟩ := System.step_cases hs
  have hrt : Reachable env t := .tail _ hr trivial hs
  obtain ⟨hw, pc, hpc, rfl⟩ := worker_of_close hstep
  obtain ⟨_, _, he⟩ := hr.control.of_worker hw
  refine ⟨fun hsafe => ?_, fun ⟨hsvc, hep⟩ => safeFrom_of_shutDown hrt ⟨hpc, hsvc, hep⟩⟩
  have hexposed : Exposed { s with worker := pc, chan := { s.chan with closed := true } } :=
    ⟨hcrash, he.ready, rfl⟩
  by_contra hrunning
  rcases not_and_or.mp hrunning with hsvc | hep
  · exact not_safe_of_svc hexposed he.svc_started hsvc hsafe
  · exact not_safe_of_ep hexposed he.ep_started hep hsafe

/-- No send hits the closed channel in any run whose closes come last, and every close that does not
come last makes such a send reachable. -/
theorem send_open_iff (env : Env) :
    (∀ s a t, Reach (System.step env.lib) ClosesLast (System.initial env) s → s.step env.lib a = some t →
      a.IsSend → s.chan.closed = false) ∧
    ∀ s t, Reachable env s → s.step env.lib (.worker .close) = some t →
      (SafeFrom env.lib t ↔ s.svc.pc = .stopped ∧ s.ep.pc = .stopped) := by
  refine ⟨fun s a t hr hs hsend => ?_, fun s t hr hs => safeFrom_close_iff hr hs⟩
  by_contra hclosed
  have hdown := shutDown_of_closed hr (Bool.not_eq_false _ ▸ hclosed)
  exact isSend_of_shutDown hdown (System.step_cases hs).2 hsend

def emptyEnv : Env where
  lib := demoLibrary
  services := []
  endpoints := []

/-- `Start` returns, the context is cancelled, the worker closes the channel, and a Service is added. -/
def lateDelivery : List Action :=
  [.start (.configure none), .start .sync, .start .assign, .start .sync, .start .assign, .start .storeReady,
    .start (.run (.list default)), .start (.run (.build default)), .start (.run (.publish none)), .start .launch,
    .cancel, .worker .done, .worker .close, .svc (.apply (.set serviceMain)), .svc .handler]

theorem not_send_open_demo : ¬ ∀ s a t, Reachable emptyEnv s → s.step emptyEnv.lib a = some t →
    a.IsSend → s.chan.closed = false := by
  have hend : (runActions (System.step emptyEnv.lib) (System.initial emptyEnv) lateDelivery).map (fun s =>
      (s.chan.closed, (s.step emptyEnv.lib (.svc .send)).isSome)) = some (true, true) := by decide
  obtain ⟨s, hs, hlast⟩ := Option.map_eq_some_iff.mp hend
  obtain ⟨hclosed, hsome⟩ := Prod.mk.inj hlast
  obtain ⟨t, ht⟩ := Option.isSome_iff_exists.mp hsome
  intro h
  have hopen := h s (.svc .send) t (Reach.of_runActions hs) ht (.inl rfl)
  rw [hclosed] at hopen
  cases hopen

end
end HalfMesh
