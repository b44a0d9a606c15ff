import HalfMesh.Process.Rollback

/-! No update is lost. The latest run, in progress or published, either has read what the indexers
still hold (`Fresh`), or some party still has to make the worker run again (`System.Pending`): a
token in the channel, or a handler between its change and its send. A quiescent state has nothing
pending, so what is published last is what the indexers hold. -/
namespace HalfMesh
open HalfMesh.Foundations HalfMesh.Kube HalfMesh.Xds
set_option autoImplicit false
set_option maxHeartbeats 250000
set_option maxRecDepth 120000

/-- All that the run has read is still so. -/
structure Fresh (stores : Stores) (run : Run) : Prop where
  listed : ∃ ord, run.services = stores.svc.indexer.list ord
  looked_up : ∀ rd ∈ run.reads, rd.value = stores.ep.indexer.items.lookup rd.key

structure UpToDate (s : System) : Prop where
  active : ∀ pc ∈ s.inProgress, ∀ run, pc.run? = some run → Fresh s.toStores run ∨ s.Pending
  idle : s.inProgress = [] → s.pub.failed = false →
    ∀ p, s.pub.published.getLast? = some p → Fresh s.toStores p.run ∨ s.Pending

section
variable {env : Env} {lib : Library} {stores : Stores} {pub pub' : Publisher} {s t : System} {run : Run}

theorem fresh_create (ord : RangeOrder String Service) : Fresh stores (Run.create stores ord) :=
  ⟨⟨ord, rfl⟩, nofun⟩

theorem fresh_advance (h : Fresh stores run) (service : Service) (todo : List Service) (mss : MeshServices) :
    Fresh stores (run.advance lib stores service todo mss) := by
  refine ⟨h.listed, fun rd hrd => ?_⟩
  rcases List.mem_append.mp hrd with hold | hnew
  · exact h.looked_up rd hold
  · obtain ⟨_, rfl⟩ := mem_readOf.mp hnew
    rfl

/-- What was fresh before a step is fresh after it, or its staleness is on its way to the worker. -/
theorem fresh_of_told (h : Told s t) (hf : Fresh s.toStores run ∨ s.Pending) : Fresh t.toStores run ∨ t.Pending := by
  rcases h with hp | ⟨hsvc, hep, hkeep⟩
  · exact .inr hp
  · refine hf.imp (fun hf => ⟨?_, ?_⟩) hkeep
    · rw [hsvc]
      exact hf.listed
    · rw [hep]
      exact hf.looked_up

/-- A run reads the stores as they are, so the fresh run in progress stays fresh and, once it is
done, is the last one published, unless it failed. -/
theorem fresh_runStep {P : Prop} {pc : RunPC} {e : RunEvent} {progress : Progress}
    (h : RunStep lib stores pub pc e (.ok (pub', progress)))
    (hpc : ∀ run, pc.run? = some run → Fresh stores run ∨ P) :
    (∀ pc' ∈ progress.active, ∀ run, pc'.run? = some run → Fresh stores run ∨ P) ∧
      (progress.active = [] → pub'.failed = false →
        ∀ p, pub'.published.getLast? = some p → Fresh stores p.run ∨ P) := by
  have hcases := run_cases (fun run => Fresh stores run ∨ P) h (fun ord => .inl (fresh_create ord))
    (fun run service todo mss hrun => hrun.imp_left fun hf => fresh_advance hf service todo mss) hpc
  rcases hcases with ⟨pc', rfl, _, hrun⟩ | ⟨err, rfl, _, hfailed⟩ | ⟨q, answer, rfl, hpub, hq⟩
  · refine ⟨fun pc'' hpc'' => ?_, nofun⟩
    obtain rfl := List.mem_singleton.mp hpc''
    exact hrun
  · refine ⟨fun _ hpc' => absurd hpc' List.not_mem_nil, fun _ hok => ?_⟩
    rw [hfailed] at hok
    cases hok
  · refine ⟨fun _ hpc' => absurd hpc' List.not_mem_nil, fun _ _ p hp => ?_⟩
    rw [hpub, List.getLast?_concat] at hp
    obtain rfl := Option.some.inj hp
    exact hq

theorem upToDate_initial : UpToDate (System.initial env) :=
  ⟨fun _ hpc => absurd hpc List.not_mem_nil, fun _ _ _ hp => by cases hp⟩

/-- Before the first run there is nothing to be stale. -/
theorem Control.idle_of_unready (h : Control s) (hr : ¬ (s.ready = true ∧ s.start.starting = false)) :
    s.inProgress = [] ∧ s.pub.published = [] := by
  have hoff : s.ready = false ∨ s.start.starting = true := by
    cases hready : s.ready with
    | false => exact .inl rfl
    | true => exact .inr (Bool.not_eq_false _ ▸ fun hlate => hr ⟨hready, hlate⟩)
  have hw : s.worker = .absent := by
    by_contra hw
    obtain ⟨_, hlate, he⟩ := h.of_worker hw
    exact hr ⟨he.ready, hlate⟩
  have hs : s.start.run? = none := by
    cases hstart : s.start with
    | updating pc =>
      have he := h.established (by rw [hstart]; exact Nat.le_refl 6)
      exact absurd ⟨he.ready, by rw [hstart]; rfl⟩ hr
    | _ => rfl
  exact ⟨inProgress_of_start _ hs hw, h.silent hoff⟩

theorem upToDate_step (h : UpToDate s) (hc : Control s) (hs : RunsStep lib s t) : UpToDate t := by
  cases hs with
  | other _ hpub hruns htold =>
    by_cases hr : s.ready = true ∧ s.start.starting = false
    · have htold := htold hr.1 hr.2
      refine ⟨fun pc hpc run hrun => ?_, fun hidle hok p hp => ?_⟩
      · exact fresh_of_told htold (h.active pc (hruns ▸ hpc) run hrun)
      · rw [hpub] at hok hp
        exact fresh_of_told htold (h.idle (hruns ▸ hidle) hok p hp)
    · obtain ⟨hnone, hnopub⟩ := hc.idle_of_unready hr
      refine ⟨fun pc hpc => ?_, fun _ _ p hp => ?_⟩
      · rw [hruns, hnone] at hpc
        cases hpc
      · rw [hpub, hnopub] at hp
        cases hp
  | begins _ _ _ hafter =>
    refine ⟨fun pc hpc run hrun => ?_, fun hidle => ?_⟩
    · rw [hafter] at hpc
      obtain rfl := List.mem_singleton.mp hpc
      cases hrun
    · rw [hafter] at hidle
      cases hidle
  | @runs pc e progress hbefore hstep hst hchan hafter =>
    have hpc := h.active pc (by rw [hbefore]; exact List.mem_singleton_self pc)
    obtain ⟨hactive', hidle'⟩ := fresh_runStep hstep hpc
    have hpend : t.Pending ↔ s.Pending := by rw [System.Pending, System.Pending, hst, hchan]
    refine ⟨?_, ?_⟩
    · rw [hafter, hst, hpend]
      exact hactive'
    · rw [hafter, hst, hpend]
      exact hidle'

theorem Reachable.upToDate (h : Reachable env s) : UpToDate s :=
  Reach.invariant UpToDate upToDate_initial
    (fun _ _ _ hr hi _ hs => upToDate_step hi (Reachable.control hr) (Reachable.runsStep hr hs)) h

/-! ## The first publication -/

/-- Once the initial `updateCache` has returned without an error, something is published. -/
def Launched (s : System) : Prop := 7 ≤ s.start.rank → s.pub.published ≠ []

theorem published_of_runStep {pc : RunPC} {e : RunEvent} {progress : Progress}
    (h : RunStep lib stores pub pc e (.ok (pub', progress))) :
    pub.published <+: pub'.published ∧ (progress = .finished none → pub'.published ≠ []) := by
  cases h with
  | publish => exact ⟨List.prefix_append _ _, fun _ => List.append_ne_nil_of_right_ne_nil _ (List.cons_ne_nil _ _)⟩
  | _ => exact ⟨List.prefix_refl _, nofun⟩

theorem launched_of_early (h : s.start.rank < 7) : Launched s := by
  intro hr
  omega

theorem launched_startAfter {pc : RunPC} {e : RunEvent} {out : Except Panic (Publisher × Progress)}
    (hs : s.start = .updating pc) (h : RunStep lib s.toStores s.pub pc e out) : Launched (s.startAfter out) := by
  rcases out with why | ⟨pub, pc' | _ | err⟩
  · exact launched_of_early (by simp [System.startAfter, System.panics, hs, StartPC.rank])
  · exact launched_of_early (by simp [System.startAfter, StartPC.rank])
  · exact fun _ => (published_of_runStep h).2 rfl
  · exact launched_of_early (by simp [System.startAfter, StartPC.rank])

theorem launched_workerAfter {pc : RunPC} {e : RunEvent} {out : Except Panic (Publisher × Progress)}
    (hl : Launched s) (h : RunStep lib s.toStores s.pub pc e out) : Launched (s.workerAfter pc out) := by
  rcases out with why | ⟨pub, progress⟩
  · exact hl
  · have hgrow := (published_of_runStep h).1
    have hkeep : s.pub.published ≠ [] → pub.published ≠ [] := by
      intro hne hnil
      rw [hnil] at hgrow
      exact hne (List.prefix_nil.mp hgrow)
    cases progress with
    | more pc' => exact fun hr => hkeep (hl hr)
    | finished err => exact fun hr => hkeep (hl hr)

theorem launched_step {a : Action} (h : Launched s) (hs : System.Step lib s a t) : Launched t := by
  cases hs with
  | @svc e out _ => cases out <;> exact h
  | @ep e out _ => cases out <;> exact h
  | startRun hs hr => exact launched_startAfter hs hr
  | workerRun _ hr => exact launched_workerAfter h hr
  | launch hs => exact fun _ => h (by rw [hs]; decide)
  | done _ _ | receive _ _ | close _ | closePanicking _ | crash _ | cancel | panic _ => exact h
  | configFails _ | config _ | svcSynced _ _ | epSynced _ _ | timeout _ _ | assignSvc _ | assignEp _
  | storeReady _ => exact launched_of_early (by simp [StartPC.rank])

theorem launched_initial : Launched (System.initial env) :=
  launched_of_early (by simp [System.initial, StartPC.rank])

theorem Reachable.launched (h : Reachable env s) : Launched s :=
  Reach.invariant Launched launched_initial (fun _ _ _ _ hi _ hs => launched_step hi (System.step_cases hs).2) h

/-! ## Quiescent states -/

/-- The initial `updateCache` has returned, the worker waits, the channel is empty, every change has
been handled, and nothing has been cancelled or has failed. -/
structure Quiescent (s : System) : Prop where
  started : s.start = .returned none
  waiting : s.worker = .select
  no_token : s.chan.token = false
  svc_handled : ¬ s.svc.InFlight
  ep_handled : ¬ s.ep.InFlight
  live : s.cancelled = false
  no_failure : s.pub.failed = false
  no_panic : s.crash = none

theorem Quiescent.not_pending (h : Quiescent s) : ¬ s.Pending := by
  intro hp
  rcases hp with htok | hf | hf
  · rw [h.no_token] at htok
    cases htok
  · exact h.svc_handled hf
  · exact h.ep_handled hf

/-- A fresh publication is what `getResources` returns now, in some order. -/
theorem getResources_of_fresh {p : Publication} (hp : p.Sound lib s.toStores) (hf : Fresh s.toStores p.run) :
    ∃ ord, s.watcher.getResources lib.yamlUnmarshal ord = .ok p.passed.resources := by
  have hans : p.run.Answers (getByKey s.ep.indexer) := by
    intro rd hrd
    rw [getByKey, ← hf.looked_up rd hrd]
  obtain ⟨ord', hok⟩ := hp.computed hans
  obtain ⟨listing, hlist⟩ := hf.listed
  refine ⟨{ ord' with services := listing }, ?_⟩
  rw [KubeWatcher.getResources, ← hok, hlist]
  rfl

/-- A fresh publication carries what `getResources` returns now, in whatever order it enumerates. -/
theorem equiv_of_fresh {p : Publication} (hp : p.Sound lib s.toStores) (hf : Fresh s.toStores p.run)
    (ord : RangeOrders) :
    ∃ r, s.watcher.getResources lib.yamlUnmarshal ord = .ok r ∧ p.passed.resources.Equiv r := by
  obtain ⟨ord', hnow⟩ := getResources_of_fresh hp hf
  obtain ⟨r, hr⟩ := (getResources_returns ord).mpr ((getResources_returns ord').mp ⟨_, hnow⟩)
  exact ⟨r, hr, (KubeWatcher.getResources_realizes hnow).equiv (KubeWatcher.getResources_realizes hr)⟩

/-- In every quiescent state the snapshot passed on last carries exactly what `getResources`
computes from the current contents of both indexers. -/
theorem published_up_to_date (env : Env) (s : System) (h : Reachable env s) (hq : Quiescent s) :
    ∃ p, s.pub.published.getLast? = some p ∧
      env.lib.newSnapshot (itoa p.passed.version) p.passed.resources = .ok p.passed.snapshot ∧
      ∀ ord, ∃ r, s.watcher.getResources env.lib.yamlUnmarshal ord = .ok r ∧ p.passed.resources.Equiv r := by
  have hne : s.pub.published ≠ [] := h.launched (by rw [hq.started]; decide)
  obtain ⟨p, hp⟩ := Option.isSome_iff_exists.mp (List.getLast?_isSome.mpr hne)
  have hidle : s.inProgress = [] := inProgress_of_worker none (by rw [hq.waiting]; rfl) hq.started
  have hsound := h.runsSound.published p (List.mem_of_getLast? hp)
  have hfresh := (h.upToDate.idle hidle hq.no_failure p hp).resolve_right hq.not_pending
  exact ⟨p, hp, (buildSnapshot_eq_ok.mp hsound.snapshot).2, fun ord => equiv_of_fresh hsound hfresh ord⟩

theorem demoSystem_quiescent : Quiescent demoSystem := by
  have hpcs : demoSystem.svc.pc = .idle ∧ demoSystem.ep.pc = .idle := by decide
  refine ⟨rfl, rfl, rfl, ?_, ?_, rfl, rfl, rfl⟩
  · rw [Informer.InFlight, hpcs.1]
    decide
  · rw [Informer.InFlight, hpcs.2]
    decide

theorem published_up_to_date_demo :
    ∃ p, demoSystem.pub.published.getLast? = some p ∧
      demoEnv.lib.newSnapshot (itoa p.passed.version) p.passed.resources = .ok p.passed.snapshot ∧
      ∀ ord, ∃ r, demoSystem.watcher.getResources demoEnv.lib.yamlUnmarshal ord = .ok r ∧
        p.passed.resources.Equiv r :=
  published_up_to_date demoEnv demoSystem demoSystem_reachable demoSystem_quiescent

end
end HalfMesh
