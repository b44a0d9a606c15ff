import HalfMesh.Process.Settling
import HalfMesh.Process.Updater

/-! How the process dies. There are four places where it can, and each leaves the parties where
they were: a run at a Service whose Endpoints are not there, a handler that sends after the worker
has closed the channel, because the worker was cancelled or because it panicked itself, and
`runKubeWatcher` on an error of `Start`. A nil indexer is never used. -/
namespace HalfMesh
open HalfMesh.Foundations HalfMesh.Kube HalfMesh.Xds
set_option autoImplicit false
set_option maxHeartbeats 250000
set_option maxRecDepth 120000

/-- The run has come to a Service whose Endpoints were not there when it asked for them, after its
other reads. They may have come since: a worker that panics closes the channel first. -/
def RunPC.AtUnresolved (lib : Library) (log : List (Change Endpoints String)) : RunPC → Prop
  | collecting run => ∃ service todo, run.todo = service :: todo ∧ ∃ n ≤ log.length, (∀ rd ∈ run.reads, rd.epAt ≤ n) ∧
      Unresolved lib.yamlUnmarshal (getByKey (KeyedStore.replay Endpoints.key (log.take n))) service
  | _ => False

/-- Why the process has died, and where the parties stood. -/
inductive Died (env : Env) (s : System) : Panic → Prop
  | unresolved {pc : RunPC} : s.start = .updating pc ∨ s.worker = .unwound pc .interfaceConversion →
      pc.AtUnresolved env.lib s.ep.log → Died env s .interfaceConversion
  | late : s.cancelled = true → s.worker = .exited → s.svc.pc = .sending ∨ s.ep.pc = .sending →
      Died env s .sendOnClosedChannel
  | unwinding {pc : RunPC} : s.worker = .unwound pc .interfaceConversion → pc.AtUnresolved env.lib s.ep.log →
      s.svc.pc = .sending ∨ s.ep.pc = .sending → Died env s .sendOnClosedChannel
  | failed {err : String} : s.start = .returned (some err) → s.worker = .absent → Died env s .explicit

section
variable {env : Env} {lib : Library} {s t : System}

theorem closed_step {a : Action} (h : s.chan.closed = true → s.worker.closed) (hc : Control s)
    (hs : System.Step lib s a t) : t.chan.closed = true → t.worker.closed := by
  intro hclosed
  cases hwas : s.chan.closed with
  | false =>
    rcases closed_of_step hs hwas with hopen | ⟨_, pc, hpc, rfl⟩
    · rw [hopen] at hclosed
      cases hclosed
    · exact hpc
  | true =>
    have hw := h hwas
    have hstart := hc.worker hw.ne_absent
    cases hs with
    | @svc e out _ => cases out <;> exact hw
    | @ep e out _ => cases out <;> exact hw
    | startRun hs _ | launch hs =>
      rw [hstart] at hs
      cases hs
    | done hs _ | receive hs _ | workerRun hs _ | close hs | closePanicking hs =>
      rw [hs] at hw
      exact absurd hw id
    | _ => exact hw

theorem Reachable.closed (h : Reachable env s) : s.chan.closed = true → s.worker.closed :=
  Reach.invariant (fun s : System => s.chan.closed = true → s.worker.closed) (fun hc => by cases hc)
    (fun _ _ _ hr hi _ hs => closed_step hi (Reachable.control hr) (System.step_cases hs).2) h

/-- A run never finds an indexer unassigned, and panics only in the type assertion. -/
theorem panic_of_runStep {stores : Stores} {pub : Publisher} {pc : RunPC} {e : RunEvent} {why : Panic}
    (hsvc : stores.svcAssigned = true) (hep : stores.epAssigned = true)
    (h : RunStep lib stores pub pc e (.error why)) :
    why = .interfaceConversion ∧ ∃ run service todo, pc = .collecting run ∧ run.todo = service :: todo ∧
      Unresolved lib.yamlUnmarshal (getByKey stores.ep.indexer) service := by
  cases h with
  | listNil hnil =>
    rw [hsvc] at hnil
    cases hnil
  | iterateNil _ hnil =>
    rw [hep] at hnil
    cases hnil
  | @iteratePanics run service todo _ htodo hr =>
    by_cases hun : Unresolved lib.yamlUnmarshal (getByKey stores.ep.indexer) service
    · rw [registerService_of_unresolved hun] at hr
      exact ⟨(Outcome.panic.inj hr).symm, run, service, todo, rfl, htodo, hun⟩
    · rw [registerService_of_resolved hun] at hr
      cases hr

/-- The Service is unresolved in what the log of the Endpoints says now. -/
theorem atUnresolved_of_run {pc : RunPC} {e : RunEvent} {why : Panic} (hr : Reachable env s)
    (hpc : s.inProgress = [pc]) (h : RunStep env.lib s.toStores s.pub pc e (.error why)) :
    why = .interfaceConversion ∧ pc.AtUnresolved env.lib s.ep.log := by
  have he := hr.control.established_of_inProgress (by rw [hpc]; exact List.cons_ne_nil _ _)
  obtain ⟨rfl, run, service, todo, rfl, htodo, hun⟩ := panic_of_runStep he.svc_assigned he.ep_assigned h
  obtain ⟨hrec, _⟩ := hr.runsSound.active _ (by rw [hpc]; exact List.mem_singleton_self _)
  have htake : s.ep.log.take s.ep.log.length = s.ep.log := List.take_length
  refine ⟨rfl, service, todo, htodo, s.ep.log.length, Nat.le_refl _, hrec.epAt_le, ?_⟩
  rw [htake, ← hr.runsSound.ep.logged]
  exact hun

theorem RunPC.AtUnresolved.later {log log' : List (Change Endpoints String)} {pc : RunPC}
    (h : pc.AtUnresolved lib log) (hl : log <+: log') : pc.AtUnresolved lib log' := by
  cases pc with
  | collecting run =>
    obtain ⟨service, todo, htodo, n, hn, hreads, hun⟩ := h
    refine ⟨service, todo, htodo, n, Nat.le_trans hn hl.length_le, hreads, ?_⟩
    rw [take_of_longer hl hn]
    exact hun
  | listing | publishing run snap => exact h

/-! ## A worker that unwinds -/

/-- A worker panics only at an unresolved Service. -/
def Unwinding (lib : Library) (s : System) : Prop :=
  ∀ pc why, s.worker = .panicking pc why ∨ s.worker = .unwound pc why →
    why = .interfaceConversion ∧ pc.AtUnresolved lib s.ep.log

theorem unwinding_of_working (h : ∀ pc why, t.worker ≠ .panicking pc why ∧ t.worker ≠ .unwound pc why) :
    Unwinding lib t := by
  intro pc why hw
  rcases hw with hw | hw
  · exact absurd hw (h pc why).1
  · exact absurd hw (h pc why).2

theorem unwinding_workerAfter {pc : RunPC} {e : RunEvent} {out : Except Panic (Publisher × Progress)}
    (hr : Reachable env s) (hs : s.worker = .updating pc) (h : RunStep env.lib s.toStores s.pub pc e out) :
    Unwinding env.lib (s.workerAfter pc out) := by
  rcases out with why | ⟨pub, pc' | err⟩
  · have hstart := hr.control.worker (by rw [hs]; simp)
    have hat := atUnresolved_of_run hr (inProgress_of_worker (some pc) (by rw [hs]; rfl) hstart) h
    intro pc' why' hw
    rcases hw with hw | hw
    · cases hw
      exact hat
    · cases hw
  · exact unwinding_of_working fun _ _ => by simp [System.workerAfter]
  · exact unwinding_of_working fun _ _ => by simp [System.workerAfter]

theorem unwinding_step {a : Action} (h : Unwinding env.lib s) (hr : Reachable env s)
    (hs : System.Step env.lib s a t) : Unwinding env.lib t := by
  cases hs with
  | @svc e out _ => cases out <;> exact h
  | @ep e out hi =>
    rcases out with why | ⟨i, ch⟩
    · exact h
    · intro pc why hw
      obtain ⟨hwhy, hat⟩ := h pc why hw
      exact ⟨hwhy, hat.later (Informer.log_of_step hi)⟩
  | @startRun pc e out _ _ => rcases out with why | ⟨pub, pc' | _ | err⟩ <;> exact h
  | workerRun hs hrun => exact unwinding_workerAfter hr hs hrun
  | launch _ | done _ _ | receive _ _ | close _ => exact unwinding_of_working fun _ _ => by simp
  | closePanicking hs =>
    intro pc why hw
    rcases hw with hw | hw
    · cases hw
    · cases hw
      exact h _ _ (.inl hs)
  | _ => exact h

theorem Reachable.unwinding (h : Reachable env s) : Unwinding env.lib s :=
  Reach.invariant (Unwinding env.lib) (unwinding_of_working fun _ _ => by simp [System.initial])
    (fun _ _ _ hr hi _ hs => unwinding_step hi hr (System.step_cases hs).2) h

/-! ## The last step -/

theorem sending_of_panic {α : Type} {keyOf : α → String} {ready cancelled : Bool} {ch : UpdateChan}
    {i : Informer keyOf} {e : InformerEvent α} {why : Panic} (h : i.Step ready cancelled ch e (.error why)) :
    why = .sendOnClosedChannel ∧ i.pc = .sending ∧ ch.closed = true := by
  cases h with
  | sendClosed hpc hclosed => exact ⟨rfl, hpc, hclosed⟩

/-- A channel that is closed was closed by a worker that has returned or by one that has panicked. -/
theorem died_of_send (hr : Reachable env s) (hclosed : s.chan.closed = true)
    (hsending : s.svc.pc = .sending ∨ s.ep.pc = .sending) :
    Died env (s.panics .sendOnClosedChannel) .sendOnClosedChannel := by
  have hw := hr.closed hclosed
  cases hpc : s.worker with
  | exited => exact .late (hr.manned.leaving (.inr hpc)) hpc hsending
  | unwound pc why =>
    obtain ⟨rfl, hat⟩ := hr.unwinding pc why (.inr hpc)
    exact .unwinding hpc hat hsending
  | absent | select | updating pc | returning | panicking pc why =>
    rw [hpc] at hw
    exact absurd hw id

theorem died_of_step {a : Action} {why : Panic} (hr : Reachable env s) (halive : s.crash = none)
    (h : System.Step env.lib s a t) (hw : t.crash = some why) : Died env t why := by
  have hc := hr.control
  have hnone : ¬ s.crash = some why := by
    rw [halive]
    simp
  cases h with
  | @svc e out hi =>
    rcases out with why' | ⟨i, ch⟩
    · obtain rfl := Option.some.inj hw
      obtain ⟨rfl, hpc, hclosed⟩ := sending_of_panic hi
      exact died_of_send hr hclosed (.inl hpc)
    · exact absurd hw hnone
  | @ep e out hi =>
    rcases out with why' | ⟨i, ch⟩
    · obtain rfl := Option.some.inj hw
      obtain ⟨rfl, hpc, hclosed⟩ := sending_of_panic hi
      exact died_of_send hr hclosed (.inr hpc)
    · exact absurd hw hnone
  | @startRun pc e out hs hrun =>
    rcases out with why' | ⟨pub, pc' | _ | err⟩
    · obtain rfl := Option.some.inj hw
      have habsent := hc.absent_of_start (by rw [hs]; simp)
      obtain ⟨rfl, hat⟩ := atUnresolved_of_run hr (inProgress_of_start (some pc) (by rw [hs]; rfl) habsent) hrun
      exact .unresolved (.inl hs) hat
    all_goals exact absurd hw hnone
  | @workerRun pc e out _ _ => rcases out with why' | ⟨pub, pc' | err⟩ <;> exact absurd hw hnone
  | @crash pc why' hs =>
    obtain rfl := Option.some.inj hw
    obtain ⟨rfl, hat⟩ := hr.unwinding pc why' (.inr hs)
    exact .unresolved (.inr hs) hat
  | panic hs =>
    obtain rfl := Option.some.inj hw
    exact .failed hs (hc.absent_of_start (by rw [hs]; simp))
  | _ => exact absurd hw hnone

end

/-- Every panic that some interleaving reaches is one of the four, in its place. -/
theorem crash_cases (env : Env) (s : System) (h : Reachable env s) (why : Panic) (hw : s.crash = some why) :
    Died env s why := by
  cases h with
  | refl => cases hw
  | tail a hr _ hs =>
    obtain ⟨halive, hstep⟩ := System.step_cases hs
    exact died_of_step hr halive hstep hw

/-! The Services of the demo are listed before their Endpoints are there. And the Endpoints of
`service-beta` are deleted later: the worker panics at them, and as its deferred close comes before
the end of the process, the handler of a Service that is set meanwhile sends on the closed channel. -/

def demoCrash : List Action :=
  [.start (.configure none), .svc .applyInitial, .svc .handler, .svc .applyInitial, .svc .handler,
    .start .sync, .start .assign, .start .sync, .start .assign, .start .storeReady,
    .start (.run (.list default)), .start (.run .iterate)]

def bareEnv : Env := { demoEnv with endpoints := [] }

theorem demoCrash_enabled : (runActions (System.step bareEnv.lib) (System.initial bareEnv) demoCrash).isSome := by
  decide

def crashedSystem : System :=
  (runActions (System.step bareEnv.lib) (System.initial bareEnv) demoCrash).get demoCrash_enabled

def demoUnwinding : List Action :=
  demoStartup ++ [.ep (.apply (.delete "default/service-beta")), .ep .handler, .ep .send, .worker .receive,
    .worker (.run (.list default)), .svc (.apply (.set serviceMain)), .svc .handler, .worker (.run .iterate),
    .worker .close, .svc .send]

theorem demoUnwinding_enabled :
    (runActions (System.step demoEnv.lib) (System.initial demoEnv) demoUnwinding).isSome := by decide

def unwoundSystem : System :=
  (runActions (System.step demoEnv.lib) (System.initial demoEnv) demoUnwinding).get demoUnwinding_enabled

theorem crash_cases_demo :
    Died bareEnv crashedSystem .interfaceConversion ∧
      unwoundSystem.cancelled = false ∧ Died demoEnv unwoundSystem .sendOnClosedChannel :=
  ⟨crash_cases bareEnv crashedSystem (Reach.of_runActions (Option.some_get _).symm) .interfaceConversion rfl,
    rfl, crash_cases demoEnv unwoundSystem (Reach.of_runActions (Option.some_get _).symm) .sendOnClosedChannel rfl⟩

end HalfMesh
