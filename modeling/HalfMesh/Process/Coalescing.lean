import HalfMesh.Process.Rollback

/-! The control plane does not work for nothing. Each snapshot passed on is owed to the start or to
one delivery, a store change or a resynced object: a delivery makes at most one handler send, a send
leaves at most one token, however many deliveries found the channel full, and a token begins one
run. So there are never more snapshots than deliveries and one, and after the last delivery at most
four are still to come. -/
namespace HalfMesh
open HalfMesh.Foundations HalfMesh.Kube HalfMesh.Xds
set_option autoImplicit false
set_option maxHeartbeats 250000
set_option maxRecDepth 120000

def System.changes (s : System) : ℕ := s.svc.log.length + s.ep.log.length

/-- The objects that the hourly resyncs have handed to the handlers again. -/
def System.resyncs (s : System) : ℕ := s.svc.resyncs + s.ep.resyncs

/-! ## The snapshots each party may still cause -/

def InformerPC.owes : InformerPC → ℕ
  | applied => 1
  | sending => 1
  | _ => 0

def StartPC.owes : StartPC → ℕ
  | launch => 0
  | returned _ => 0
  | _ => 1

def WorkerPC.owes : WorkerPC → ℕ
  | updating _ => 1
  | _ => 0

def System.owed (s : System) : ℕ :=
  s.start.owes + s.worker.owes + s.chan.token.toNat + s.svc.pc.owes + s.ep.pc.owes

section
variable {env : Env} {lib : Library} {s t : System}

theorem InformerPC.owes_le (pc : InformerPC) : pc.owes ≤ 1 := by
  cases pc <;> decide

/-- `Start` and the worker never run both. -/
theorem Control.owed_le (h : Control s) : s.owed ≤ 4 := by
  have hsvc := s.svc.pc.owes_le
  have hep := s.ep.pc.owes_le
  have htoken := Bool.toNat_le s.chan.token
  have hruns : s.start.owes + s.worker.owes ≤ 1 := by
    by_cases hw : s.worker = .absent
    · rw [hw]
      cases s.start <;> simp [StartPC.owes, WorkerPC.owes]
    · rw [h.worker hw]
      cases s.worker <;> simp [StartPC.owes, WorkerPC.owes]
  unfold System.owed
  omega

/-! ## No step gains a snapshot that no delivery pays for -/

theorem owes_of_informer {α : Type} {keyOf : α → String} {ready cancelled : Bool} {ch ch' : UpdateChan}
    {i i' : Informer keyOf} {e : InformerEvent α} (h : i.Step ready cancelled ch e (.ok (i', ch'))) :
    i'.pc.owes + ch'.token.toNat + (i.log.length + i.resyncs) ≤
      i.pc.owes + ch.token.toNat + (i'.log.length + i'.resyncs) := by
  cases h with
  | applyInitial hpc _ | apply hpc =>
    simp [hpc, Informer.change, InformerPC.owes]
    omega
  | resync hpc _ =>
    simp [hpc, Informer.resync, InformerPC.owes]
    omega
  | skip hpc _ | handler hpc _ | stop hpc _ => simp [hpc, InformerPC.owes]
  | send hpc _ => simp [hpc, InformerPC.owes]

theorem owes_of_runStep {stores : Stores} {pub pub' : Publisher} {pc : RunPC} {e : RunEvent} {progress : Progress}
    (h : RunStep lib stores pub pc e (.ok (pub', progress))) :
    pub'.published.length + progress.active.length ≤ pub.published.length + 1 := by
  cases h with
  | publish => simp [Publisher.publish, Progress.active]
  | _ => simp [Publisher.fail, Progress.active]

/-- Between `s` and `t` every snapshot passed on or newly owed is paid for by a delivery. -/
def Paid (s t : System) : Prop :=
  t.pub.published.length + t.owed + (s.changes + s.resyncs) ≤
    s.pub.published.length + s.owed + (t.changes + t.resyncs)

theorem paid_startAfter {pc : RunPC} {e : RunEvent} {out : Except Panic (Publisher × Progress)}
    (hs : s.start = .updating pc) (h : RunStep lib s.toStores s.pub pc e out) : Paid s (s.startAfter out) := by
  rcases out with why | ⟨pub, pc' | _ | err⟩
  · exact Nat.le_refl _
  all_goals
    have hle := owes_of_runStep h
    simp only [Progress.active, List.length_cons, List.length_nil] at hle
    simp only [Paid, System.startAfter, System.owed, System.changes, System.resyncs, hs, StartPC.owes]
    omega

theorem paid_workerAfter {pc : RunPC} {e : RunEvent} {out : Except Panic (Publisher × Progress)}
    (hs : s.worker = .updating pc) (h : RunStep lib s.toStores s.pub pc e out) : Paid s (s.workerAfter pc out) := by
  rcases out with why | ⟨pub, pc' | err⟩
  · simp [Paid, System.workerAfter, System.owed, System.changes, System.resyncs, hs, WorkerPC.owes]
  all_goals
    have hle := owes_of_runStep h
    simp only [Progress.active, List.length_cons, List.length_nil] at hle
    simp only [Paid, System.workerAfter, System.owed, System.changes, System.resyncs, hs, WorkerPC.owes]
    omega

theorem paid_step {a : Action} (hs : System.Step lib s a t) : Paid s t := by
  cases hs with
  | @svc e out hi =>
    rcases out with why | ⟨i, ch⟩
    · exact Nat.le_refl _
    · have hle := owes_of_informer hi
      simp only [Paid, System.svcAfter, System.owed, System.changes, System.resyncs]
      omega
  | @ep e out hi =>
    rcases out with why | ⟨i, ch⟩
    · exact Nat.le_refl _
    · have hle := owes_of_informer hi
      simp only [Paid, System.epAfter, System.owed, System.changes, System.resyncs]
      omega
  | startRun hs hr => exact paid_startAfter hs hr
  | workerRun hs hr => exact paid_workerAfter hs hr
  | timeout hs _ => rcases hs with hs | hs <;> simp [Paid, System.owed, System.changes, System.resyncs, hs, StartPC.owes]
  | config hs | assignSvc hs =>
    simp only [Paid, System.owed, System.changes, System.resyncs, hs, StartPC.owes, Informer.launch,
      InformerPC.owes]
    omega
  | configFails hs | svcSynced hs _ | epSynced hs _ | assignEp hs | storeReady hs | launch hs =>
    simp [Paid, System.owed, System.changes, System.resyncs, hs, StartPC.owes, WorkerPC.owes]
  | done hs _ | close hs | closePanicking hs =>
    simp [Paid, System.owed, System.changes, System.resyncs, hs, WorkerPC.owes]
  | receive hs hk => simp [Paid, System.owed, System.changes, System.resyncs, hs, hk, WorkerPC.owes]
  | cancel | crash _ | panic _ => exact Nat.le_refl _

theorem paid_reach (h : Reach (System.step lib) anyStep s t) : Paid s t := by
  refine Reach.invariant (Paid s) (Nat.le_refl _) ?_ h
  intro u a v _ hpaid _ hs
  have hone := paid_step (System.step_cases hs).2
  unfold Paid at *
  omega

end

/-- No more snapshots are passed on than there were store changes and resynced objects, and one; from
any state on, no more than there are of these still to come, and four. -/
theorem published_bounded (env : Env) (s t : System) (hs : Reachable env s)
    (h : Reach (System.step env.lib) anyStep s t) :
    t.pub.published.length ≤ t.changes + t.resyncs + 1 ∧
      t.pub.published.length + (s.changes + s.resyncs) ≤
        s.pub.published.length + (t.changes + t.resyncs) + 4 := by
  constructor
  · have hpaid : Paid (System.initial env) t := paid_reach (hs.trans h)
    simp only [Paid, System.initial, System.owed, System.changes, System.resyncs, StartPC.owes, WorkerPC.owes, Informer.create,
      InformerPC.owes, List.length_nil, Bool.toNat_false] at hpaid
    unfold System.changes System.resyncs
    omega
  · have hpaid := paid_reach h
    have howed := hs.control.owed_le
    unfold Paid at hpaid
    omega

/-! After the deletion of the demo the Service that is left is resynced, which passes the same
resources on once more. -/

def demoResync : List Action :=
  demoStartup ++ demoDeletion ++ [.svc (.resync "default/service-main"), .svc .handler, .svc .send,
    .worker .receive, .worker (.run (.list default)), .worker (.run .iterate), .worker (.run (.build default)),
    .worker (.run (.publish none))]

theorem demoResync_enabled :
    (runActions (System.step demoEnv.lib) (System.initial demoEnv) demoResync).isSome := by decide

def resyncedSystem : System :=
  (runActions (System.step demoEnv.lib) (System.initial demoEnv) demoResync).get demoResync_enabled

theorem published_bounded_demo : (resyncedSystem.pub.published.length = 3 ∧ resyncedSystem.changes = 5 ∧
      resyncedSystem.resyncs = 1) ∧
    resyncedSystem.pub.published.length ≤ resyncedSystem.changes + resyncedSystem.resyncs + 1 ∧
    resyncedSystem.pub.published.length + ((System.initial demoEnv).changes + (System.initial demoEnv).resyncs) ≤
      (System.initial demoEnv).pub.published.length + (resyncedSystem.changes + resyncedSystem.resyncs) + 4 :=
  ⟨by decide, published_bounded demoEnv (System.initial demoEnv) resyncedSystem .refl
    (Reach.of_runActions (Option.some_get _).symm)⟩

end HalfMesh
