import HalfMesh.Process.Healing
import HalfMesh.Process.Shutdown
import Mathlib.Data.Prod.Lex

/-! The control plane settles. An internal step is any step but a new store change, a resync and the
cancellation: the rest of the initial lists, the handlers, `Start`, the worker, the answers of the
third-party calls. Every such step brings some party closer to the end of what it has to do
(`left_of_step`), so internal runs are finite, and where none is left the worker waits with
nothing to do and the last snapshot is that of the indexers. -/
namespace HalfMesh
open HalfMesh.Foundations HalfMesh.Kube HalfMesh.Xds
set_option autoImplicit false
set_option maxHeartbeats 250000
set_option maxRecDepth 120000

/-- What an informer does of itself, with no change in the cluster and no resync due. -/
def InformerEvent.Internal {α : Type} : InformerEvent α → Prop
  | apply _ => False
  | resync _ => False
  | _ => True

def Action.Internal : Action → Prop
  | .svc e => e.Internal
  | .ep e => e.Internal
  | .cancel => False
  | _ => True

/-! ## What is left to do -/

/-- A run goes through `List`, the iterations, and `SetSnapshot`. -/
def RunPC.left : RunPC → ℕ × ℕ
  | listing => (6, 0)
  | collecting run => (5, run.todo.length)
  | publishing _ _ => (4, 0)

def StartPC.left : StartPC → ℕ × ℕ
  | config => (12, 0)
  | waitSvc => (11, 0)
  | assignSvc => (10, 0)
  | waitEp => (9, 0)
  | assignEp => (8, 0)
  | storeReady => (7, 0)
  | updating pc => pc.left
  | launch => (3, 0)
  | returned _ => (2, 0)

def WorkerPC.left : WorkerPC → ℕ × ℕ
  | updating pc => pc.left
  | select => (3, 0)
  | returning => (2, 0)
  | exited => (1, 0)
  | panicking _ _ => (2, 0)
  | unwound _ _ => (1, 0)
  | absent => (0, 0)

def InformerPC.left : InformerPC → ℕ
  | notStarted => 4
  | applied => 3
  | sending => 2
  | idle => 1
  | stopped => 0

/-- The measure, most significant first: a panic ends everything; `Start` launches the informers and
the worker; an initial object sets a handler off, a handler leaves a token, a token a run. -/
def System.left (s : System) : ℕ ×ₗ (ℕ ×ₗ ℕ) ×ₗ ℕ ×ₗ ℕ ×ₗ ℕ ×ₗ (ℕ ×ₗ ℕ) :=
  toLex (if s.crash.isSome then 0 else 1, toLex (toLex s.start.left,
    toLex (s.svc.pending.length + s.ep.pending.length,
      toLex (s.svc.pc.left + s.ep.pc.left, toLex (s.chan.token.toNat, toLex s.worker.left)))))

theorem lex_first {α β : Type} [LT α] [LT β] {a a' : α} {b b' : β} (h : a < a') :
    toLex (a, b) < toLex (a', b') := Prod.Lex.toLex_lt_toLex.mpr (.inl h)

theorem lex_second {α β : Type} [LT α] [LT β] {a a' : α} {b b' : β} (ha : a = a') (h : b < b') :
    toLex (a, b) < toLex (a', b') := Prod.Lex.toLex_lt_toLex.mpr (.inr ⟨ha, h⟩)

section
variable {lib : Library} {s t : System}

theorem left_of_panics (why : Panic) (h : s.crash = none) : (s.panics why).left < s.left := by
  refine lex_first ?_
  rw [h]
  exact Nat.one_pos

theorem left_of_start (hc : t.crash = s.crash) (h : toLex t.start.left < toLex s.start.left) : t.left < s.left :=
  lex_second (by rw [hc]) (lex_first h)

theorem left_of_pending (hc : t.crash = s.crash) (hs : t.start = s.start)
    (h : t.svc.pending.length + t.ep.pending.length < s.svc.pending.length + s.ep.pending.length) :
    t.left < s.left :=
  lex_second (by rw [hc]) (lex_second (by rw [hs]) (lex_first h))

theorem left_of_informers (hc : t.crash = s.crash) (hs : t.start = s.start)
    (hp : t.svc.pending.length + t.ep.pending.length = s.svc.pending.length + s.ep.pending.length)
    (h : t.svc.pc.left + t.ep.pc.left < s.svc.pc.left + s.ep.pc.left) : t.left < s.left :=
  lex_second (by rw [hc]) (lex_second (by rw [hs]) (lex_second hp (lex_first h)))

theorem left_of_token (hc : t.crash = s.crash) (hs : t.start = s.start) (hst : t.toStores = s.toStores)
    (h : t.chan.token.toNat < s.chan.token.toNat) : t.left < s.left :=
  lex_second (by rw [hc]) (lex_second (by rw [hs]) (lex_second (by rw [hst])
    (lex_second (by rw [hst]) (lex_first h))))

theorem left_of_worker (hc : t.crash = s.crash) (hs : t.start = s.start) (hst : t.toStores = s.toStores)
    (hk : t.chan.token = s.chan.token) (h : toLex t.worker.left < toLex s.worker.left) : t.left < s.left :=
  lex_second (by rw [hc]) (lex_second (by rw [hs]) (lex_second (by rw [hst])
    (lex_second (by rw [hst]) (lex_second (by rw [hk]) h))))

/-! ## Every internal step leaves less -/

theorem left_of_runStep {stores : Stores} {pub pub' : Publisher} {pc pc' : RunPC} {e : RunEvent}
    (h : RunStep lib stores pub pc e (.ok (pub', .more pc'))) : toLex pc'.left < toLex pc.left := by
  cases h with
  | list _ => exact lex_first (by decide)
  | iterate htodo _ =>
    refine lex_second rfl ?_
    rw [htodo]
    exact Nat.lt_succ_self _
  | build _ _ => exact lex_first (by decide)

theorem RunPC.lt_left (pc : RunPC) : toLex (3, 0) < toLex pc.left := by
  cases pc with
  | listing | collecting run | publishing run snap => exact lex_first (by decide)

/-- What an informer has left to do besides its pending objects, or the objects themselves. -/
theorem left_of_informer {α : Type} {keyOf : α → String} {ready cancelled : Bool} {ch ch' : UpdateChan}
    {i i' : Informer keyOf} {e : InformerEvent α} (hint : e.Internal)
    (h : i.Step ready cancelled ch e (.ok (i', ch'))) :
    i'.pending.length < i.pending.length ∨ i'.pending = i.pending ∧ i'.pc.left < i.pc.left := by
  cases h with
  | applyInitial _ hp =>
    refine .inl ?_
    rw [hp]
    exact Nat.lt_succ_self _
  | apply _ | resync _ _ => exact absurd hint id
  | skip hpc _ | handler hpc _ | send hpc _ | stop hpc _ => exact .inr ⟨rfl, by simp [hpc, InformerPC.left]⟩

theorem left_of_startAfter {pc : RunPC} {e : RunEvent} {out : Except Panic (Publisher × Progress)}
    (hcrash : s.crash = none) (hs : s.start = .updating pc) (h : RunStep lib s.toStores s.pub pc e out) :
    (s.startAfter out).left < s.left := by
  rcases out with why | ⟨pub, pc' | _ | err⟩
  · exact left_of_panics why hcrash
  · refine left_of_start rfl ?_
    rw [hs]
    exact left_of_runStep h
  · refine left_of_start rfl ?_
    rw [hs]
    exact pc.lt_left
  · refine left_of_start rfl ?_
    rw [hs]
    exact lt_trans (lex_first (by decide)) pc.lt_left

theorem left_of_workerAfter {pc : RunPC} {e : RunEvent} {out : Except Panic (Publisher × Progress)}
    (hs : s.worker = .updating pc) (h : RunStep lib s.toStores s.pub pc e out) :
    (s.workerAfter pc out).left < s.left := by
  rcases out with why | ⟨pub, pc' | err⟩
  · refine left_of_worker rfl rfl rfl rfl ?_
    rw [hs]
    exact lt_trans (lex_first (by decide)) pc.lt_left
  · refine left_of_worker rfl rfl rfl rfl ?_
    rw [hs]
    exact left_of_runStep h
  · refine left_of_worker rfl rfl rfl rfl ?_
    rw [hs]
    exact pc.lt_left

theorem left_of_step {a : Action} (hint : a.Internal) (hcrash : s.crash = none) (h : System.Step lib s a t) :
    t.left < s.left := by
  cases h with
  | @svc e out hi =>
    rcases out with why | ⟨i, ch⟩
    · exact left_of_panics why hcrash
    · have hle := left_of_informer hint hi
      rcases hle with hp | ⟨hp, hpc⟩
      · exact left_of_pending rfl rfl (Nat.add_lt_add_right hp _)
      · exact left_of_informers rfl rfl (by rw [System.svcAfter, hp]) (Nat.add_lt_add_right hpc _)
  | @ep e out hi =>
    rcases out with why | ⟨i, ch⟩
    · exact left_of_panics why hcrash
    · have hle := left_of_informer hint hi
      rcases hle with hp | ⟨hp, hpc⟩
      · exact left_of_pending rfl rfl (Nat.add_lt_add_left hp _)
      · exact left_of_informers rfl rfl (by rw [System.epAfter, hp]) (Nat.add_lt_add_left hpc _)
  | configFails hs | config hs | svcSynced hs _ | epSynced hs _ | assignSvc hs | assignEp hs | storeReady hs
  | launch hs =>
    refine left_of_start rfl ?_
    rw [hs]
    exact lex_first (by decide)
  | timeout hs _ =>
    refine left_of_start rfl ?_
    rcases hs with hs | hs <;> rw [hs] <;> exact lex_first (by decide)
  | startRun hs hr => exact left_of_startAfter hcrash hs hr
  | workerRun hs hr => exact left_of_workerAfter hs hr
  | done hs _ | close hs | closePanicking hs =>
    refine left_of_worker rfl rfl rfl rfl ?_
    rw [hs]
    exact lex_first (by decide)
  | receive hs hk =>
    refine left_of_token rfl rfl rfl ?_
    rw [hk]
    exact Nat.one_pos
  | cancel => exact absurd hint id
  | crash _ | panic _ => exact left_of_panics _ hcrash

/-- There is no endless internal run, from any state. -/
theorem left_of_internal (lib : Library) (s : System) (a : Action) (t : System) (hint : a.Internal)
    (h : s.step lib a = some t) : t.left < s.left := by
  obtain ⟨hcrash, hstep⟩ := System.step_cases h
  exact left_of_step hint hcrash hstep

end

/-! ## Where no internal step is left -/

/-- The parties leave their work only when they are told to. -/
structure Manned (s : System) : Prop where
  svc_stopped : s.svc.pc = .stopped → s.cancelled = true
  ep_stopped : s.ep.pc = .stopped → s.cancelled = true
  launched : s.start = .returned none → s.worker ≠ .absent
  leaving : s.worker = .returning ∨ s.worker = .exited → s.cancelled = true

section
variable {env : Env} {lib : Library} {s t : System}

theorem stopped_of_step {α : Type} {keyOf : α → String} {ready cancelled : Bool} {ch ch' : UpdateChan}
    {i i' : Informer keyOf} {e : InformerEvent α} (h : i.Step ready cancelled ch e (.ok (i', ch')))
    (hs : i'.pc = .stopped) : cancelled = true := by
  cases h with
  | stop _ hc => exact hc
  | _ => cases hs

theorem manned_startAfter {out : Except Panic (Publisher × Progress)} (h : Manned s) :
    Manned (s.startAfter out) := by
  rcases out with why | ⟨pub, pc' | _ | err⟩
  · exact ⟨h.svc_stopped, h.ep_stopped, h.launched, h.leaving⟩
  · exact ⟨h.svc_stopped, h.ep_stopped, nofun, h.leaving⟩
  · exact ⟨h.svc_stopped, h.ep_stopped, nofun, h.leaving⟩
  · exact ⟨h.svc_stopped, h.ep_stopped, nofun, h.leaving⟩

theorem manned_workerAfter {pc : RunPC} {out : Except Panic (Publisher × Progress)} (h : Manned s) :
    Manned (s.workerAfter pc out) := by
  rcases out with why | ⟨pub, pc' | err⟩
  · exact ⟨h.svc_stopped, h.ep_stopped, fun _ => nofun, fun hw => by rcases hw with hw | hw <;> cases hw⟩
  · exact ⟨h.svc_stopped, h.ep_stopped, fun _ => nofun, fun hw => by rcases hw with hw | hw <;> cases hw⟩
  · exact ⟨h.svc_stopped, h.ep_stopped, fun _ => nofun, fun hw => by rcases hw with hw | hw <;> cases hw⟩

theorem manned_step {a : Action} (h : Manned s) (hs : System.Step lib s a t) : Manned t := by
  cases hs with
  | @svc e out hi =>
    rcases out with why | ⟨i, ch⟩
    · exact ⟨h.svc_stopped, h.ep_stopped, h.launched, h.leaving⟩
    · exact ⟨stopped_of_step hi, h.ep_stopped, h.launched, h.leaving⟩
  | @ep e out hi =>
    rcases out with why | ⟨i, ch⟩
    · exact ⟨h.svc_stopped, h.ep_stopped, h.launched, h.leaving⟩
    · exact ⟨h.svc_stopped, stopped_of_step hi, h.launched, h.leaving⟩
  | config _ => exact ⟨nofun, h.ep_stopped, nofun, h.leaving⟩
  | assignSvc _ => exact ⟨h.svc_stopped, nofun, nofun, h.leaving⟩
  | configFails _ | svcSynced _ _ | epSynced _ _ | timeout _ _ | assignEp _ | storeReady _ =>
    exact ⟨h.svc_stopped, h.ep_stopped, nofun, h.leaving⟩
  | launch _ => exact ⟨h.svc_stopped, h.ep_stopped, fun _ => nofun, fun hw => by rcases hw with hw | hw <;> cases hw⟩
  | startRun _ _ => exact manned_startAfter h
  | workerRun _ _ => exact manned_workerAfter h
  | receive _ _ | closePanicking _ =>
    exact ⟨h.svc_stopped, h.ep_stopped, fun _ => nofun, fun hw => by rcases hw with hw | hw <;> cases hw⟩
  | done _ hc => exact ⟨h.svc_stopped, h.ep_stopped, fun _ => nofun, fun _ => hc⟩
  | close hs => exact ⟨h.svc_stopped, h.ep_stopped, fun _ => nofun, fun _ => h.leaving (.inl hs)⟩
  | cancel => exact ⟨fun _ => rfl, fun _ => rfl, h.launched, fun _ => rfl⟩
  | crash _ | panic _ => exact ⟨h.svc_stopped, h.ep_stopped, h.launched, h.leaving⟩

theorem Reachable.manned (h : Reachable env s) : Manned s :=
  Reach.invariant Manned
    ⟨fun hw => (by cases hw), fun hw => (by cases hw), fun hs => (by cases hs), fun hw => by rcases hw with hw | hw <;> cases hw⟩
    (fun _ _ _ _ hi _ hs => manned_step hi (System.step_cases hs).2) h

/-! A party that has something left to do can do it. -/

theorem step_start (h : s.crash = none) (e : StartEvent) : s.step lib (.start e) = s.startStep lib e := by
  simp [System.step, h]

theorem step_worker (h : s.crash = none) (e : WorkerEvent) : s.step lib (.worker e) = s.workerStep lib e := by
  simp [System.step, h]

theorem runStep_enabled (lib : Library) (stores : Stores) (pub : Publisher) (pc : RunPC) :
    ∃ e, (runStep lib stores pub pc e).isSome := by
  cases pc with
  | listing => exact ⟨.list default, rfl⟩
  | collecting run =>
    cases htodo : run.todo with
    | nil => exact ⟨.build default, by simp [runStep, htodo]⟩
    | cons service todo => exact ⟨.iterate, by simp [runStep, htodo]⟩
  | publishing run snap => exact ⟨.publish none, rfl⟩

/-- An informer that runs and cannot move has delivered everything. -/
theorem delivered_of_stuck {α : Type} {keyOf : α → String} {i : Informer keyOf} {ready cancelled : Bool}
    {ch : UpdateChan} (hstarted : i.pc ≠ .notStarted) (hrunning : i.pc ≠ .stopped)
    (h : ∀ e : InformerEvent α, e.Internal → i.step ready cancelled ch e = none) : i.pc = .idle ∧ i.pending = [] := by
  cases hpc : i.pc with
  | notStarted => exact absurd hpc hstarted
  | stopped => exact absurd hpc hrunning
  | applied =>
    have hnone := h .handler trivial
    simp [Informer.step, hpc] at hnone
  | sending =>
    have hnone := h .send trivial
    simp [Informer.step, hpc] at hnone
  | idle =>
    refine ⟨rfl, ?_⟩
    cases hp : i.pending with
    | nil => rfl
    | cons o rest =>
      have hnone := h .applyInitial trivial
      simp [Informer.step, hpc, hp] at hnone

/-- The worker waits, and nothing is on its way to it. -/
structure Settled (s : System) : Prop where
  started : s.start = .returned none
  waiting : s.worker = .select
  no_token : s.chan.token = false
  svc_delivered : s.svc.pc = .idle ∧ s.svc.pending = []
  ep_delivered : s.ep.pc = .idle ∧ s.ep.pending = []

section Stuck
variable (hcrash : s.crash = none) (hstuck : Stuck (System.step lib) (fun _ a => a.Internal) s)
include hcrash hstuck

theorem svc_of_stuck (hstarted : s.svc.pc ≠ .notStarted) (hrunning : s.svc.pc ≠ .stopped) :
    s.svc.pc = .idle ∧ s.svc.pending = [] := by
  refine @delivered_of_stuck _ _ _ s.ready s.cancelled s.chan hstarted hrunning ?_
  intro e he
  cases hi : s.svc.step s.ready s.cancelled s.chan e with
  | none => rfl
  | some out =>
    have hnone := hstuck (.svc e) he
    rw [step_svc hcrash hi] at hnone
    cases hnone

theorem ep_of_stuck (hstarted : s.ep.pc ≠ .notStarted) (hrunning : s.ep.pc ≠ .stopped) :
    s.ep.pc = .idle ∧ s.ep.pending = [] := by
  refine @delivered_of_stuck _ _ _ s.ready s.cancelled s.chan hstarted hrunning ?_
  intro e he
  cases hi : s.ep.step s.ready s.cancelled s.chan e with
  | none => rfl
  | some out =>
    have hnone := hstuck (.ep e) he
    rw [step_ep hcrash hi] at hnone
    cases hnone

theorem start_of_stuck (hc : Control s) (hm : Manned s) (hlive : s.cancelled = false) : s.start = .returned none := by
  have hnone : ∀ e, s.startStep lib e = none := by
    intro e
    rw [← step_start hcrash e]
    exact hstuck (.start e) trivial
  have hrunning : s.svc.pc ≠ .stopped ∧ s.ep.pc ≠ .stopped := by
    refine ⟨fun hs => ?_, fun hs => ?_⟩
    · exact absurd (hm.svc_stopped hs) (by rw [hlive]; decide)
    · exact absurd (hm.ep_stopped hs) (by rw [hlive]; decide)
  cases hs : s.start with
  | config =>
    have h := hnone (.configure none)
    simp [System.startStep, hs] at h
  | waitSvc =>
    have hp := (svc_of_stuck hcrash hstuck (hc.svc_started (by rw [hs]; decide)) hrunning.1).2
    have h := hnone .sync
    simp [System.startStep, hs, Informer.hasSynced, hp] at h
  | waitEp =>
    have hp := (ep_of_stuck hcrash hstuck (hc.ep_started (by rw [hs]; decide)) hrunning.2).2
    have h := hnone .sync
    simp [System.startStep, hs, Informer.hasSynced, hp] at h
  | assignSvc | assignEp =>
    have h := hnone .assign
    simp [System.startStep, hs] at h
  | storeReady =>
    have h := hnone .storeReady
    simp [System.startStep, hs] at h
  | updating pc =>
    obtain ⟨e, he⟩ := runStep_enabled lib s.toStores s.pub pc
    have h := hnone (.run e)
    rw [System.startStep, hs, Option.map_eq_none_iff] at h
    rw [h] at he
    cases he
  | launch =>
    have h := hnone .launch
    simp [System.startStep, hs] at h
  | returned err =>
    cases err with
    | none => rfl
    | some err =>
      have h := hstuck .panic trivial
      simp [System.step, hcrash, hs] at h

theorem worker_of_stuck (hm : Manned s) (hs : s.start = .returned none) (hlive : s.cancelled = false) :
    s.worker = .select ∧ s.chan.token = false := by
  have hnone : ∀ e, s.workerStep lib e = none := by
    intro e
    rw [← step_worker hcrash e]
    exact hstuck (.worker e) trivial
  have hleaving : ¬ (s.worker = .returning ∨ s.worker = .exited) := by
    intro hw
    exact absurd (hm.leaving hw) (by rw [hlive]; decide)
  cases hw : s.worker with
  | absent => exact absurd hw (hm.launched hs)
  | returning => exact absurd (.inl hw) hleaving
  | exited => exact absurd (.inr hw) hleaving
  | panicking pc why =>
    have h := hnone .close
    simp [System.workerStep, hw] at h
  | unwound pc why =>
    have h := hnone .crash
    simp [System.workerStep, hw] at h
  | updating pc =>
    obtain ⟨e, he⟩ := runStep_enabled lib s.toStores s.pub pc
    have h := hnone (.run e)
    rw [System.workerStep, hw, Option.map_eq_none_iff] at h
    rw [h] at he
    cases he
  | select =>
    refine ⟨rfl, ?_⟩
    cases hk : s.chan.token with
    | false => rfl
    | true =>
      have h := hnone .receive
      simp [System.workerStep, hw, hk] at h

end Stuck

theorem settled_of_stuck (hr : Reachable env s) (hcrash : s.crash = none) (hlive : s.cancelled = false)
    (hstuck : Stuck (System.step env.lib) (fun _ a => a.Internal) s) : Settled s := by
  have hm := hr.manned
  have hs := start_of_stuck hcrash hstuck hr.control hm hlive
  have he := hr.control.established (by rw [hs]; decide)
  obtain ⟨hw, hk⟩ := worker_of_stuck hcrash hstuck hm hs hlive
  refine ⟨hs, hw, hk, ?_, ?_⟩
  · refine svc_of_stuck hcrash hstuck he.svc_started fun hstop => ?_
    exact absurd (hm.svc_stopped hstop) (by rw [hlive]; decide)
  · refine ep_of_stuck hcrash hstuck he.ep_started fun hstop => ?_
    exact absurd (hm.ep_stopped hstop) (by rw [hlive]; decide)

theorem Settled.waits (h : Settled s) : Waiting s := by
  refine ⟨h.started, h.waiting, h.no_token, ?_, ?_⟩
  · rw [Informer.InFlight, h.svc_delivered.1]
    decide
  · rw [Informer.InFlight, h.ep_delivered.1]
    decide

/-- From every reachable state the internal steps come to an end, and they leave a worker that waits
with everything delivered, unless the process has died or is being shut down. -/
theorem settles (env : Env) (s : System) (h : Reachable env s) :
    (∀ run : ℕ → System, run 0 = s →
      ¬ ∀ n, ∃ a : Action, a.Internal ∧ (run n).step env.lib a = some (run (n + 1))) ∧
    (∃ t, Reach (System.step env.lib) (fun _ a => a.Internal) s t ∧
      Stuck (System.step env.lib) (fun _ a => a.Internal) t) ∧
    ∀ t, Reach (System.step env.lib) (fun _ a => a.Internal) s t →
      Stuck (System.step env.lib) (fun _ a => a.Internal) t →
      t.crash.isSome ∨ t.cancelled = true ∨ Settled t := by
  refine ⟨fun run _ => not_forever (left_of_internal env.lib) run, exists_stuck (left_of_internal env.lib) s, ?_⟩
  intro t ht hstuck
  have hr : Reachable env t := h.trans (ht.mono fun _ _ _ => trivial)
  cases hcrash : t.crash with
  | some why => exact .inl rfl
  | none =>
    cases hlive : t.cancelled with
    | true => exact .inr (.inl rfl)
    | false => exact .inr (.inr (settled_of_stuck hr hcrash hlive hstuck))

theorem settles_demo :
    (∀ run : ℕ → System, run 0 = System.initial demoEnv →
      ¬ ∀ n, ∃ a : Action, a.Internal ∧ (run n).step demoEnv.lib a = some (run (n + 1))) ∧
    (∃ t, Reach (System.step demoEnv.lib) (fun _ a => a.Internal) (System.initial demoEnv) t ∧
      Stuck (System.step demoEnv.lib) (fun _ a => a.Internal) t) ∧
    ∀ t, Reach (System.step demoEnv.lib) (fun _ a => a.Internal) (System.initial demoEnv) t →
      Stuck (System.step demoEnv.lib) (fun _ a => a.Internal) t →
      t.crash.isSome ∨ t.cancelled = true ∨ Settled t :=
  settles demoEnv (System.initial demoEnv) .refl

/-- Once settled, a name followed through the last snapshot finds exactly the mesh that the two
indexers declare: the Services that provide it, with their weights and ready addresses. -/
theorem settled_follow (env : Env) (s : System) (h : ReachableWell env s) (hs : Settled s) :
    ∃ p, s.pub.published.getLast? = some p ∧ ∀ m,
      ((follow p.passed.resources m).isSome ↔ (s.watcher.mesh env.lib.yamlUnmarshal).Provided m) ∧
      ∀ ups, follow p.passed.resources m = some ups → (ups.map Upstream.name).Nodup ∧ ∀ u, u ∈ ups ↔
        ∃ o, s.watcher.mesh env.lib.yamlUnmarshal u.name = some o ∧ o.provides = m ∧ u.weight = o.weight ∧
          u.addresses = o.endpoints := by
  obtain ⟨p, hp, hsound, hfresh⟩ := h.fresh hs.waits
  obtain ⟨ord, hnow⟩ := getResources_of_fresh hsound hfresh
  have hreal := KubeWatcher.getResources_realizes hnow
  refine ⟨p, hp, fun m => ⟨hreal.follow_isSome, fun ups hups => ?_⟩⟩
  obtain ⟨ups', hups', hnd, hmem⟩ := hreal.follow_of_provided (hreal.follow_isSome.mp (by rw [hups]; rfl))
  obtain rfl := Option.some.inj (hups.symm.trans hups')
  exact ⟨hnd, hmem⟩

theorem demoHealed_settled : Settled demoHealed.1 := by
  refine ⟨rfl, rfl, rfl, ⟨?_, ?_⟩, ⟨?_, ?_⟩⟩ <;> decide

theorem settled_follow_demo : ∃ p, demoHealed.1.pub.published.getLast? = some p ∧ ∀ m,
    ((follow p.passed.resources m).isSome ↔ (demoHealed.1.watcher.mesh demoEnv.lib.yamlUnmarshal).Provided m) ∧
    ∀ ups, follow p.passed.resources m = some ups → (ups.map Upstream.name).Nodup ∧ ∀ u, u ∈ ups ↔
      ∃ o, demoHealed.1.watcher.mesh demoEnv.lib.yamlUnmarshal u.name = some o ∧ o.provides = m ∧
        u.weight = o.weight ∧ u.addresses = o.endpoints :=
  settled_follow demoEnv demoHealed.1 demoHealed_reachable demoHealed_settled

end
end HalfMesh
