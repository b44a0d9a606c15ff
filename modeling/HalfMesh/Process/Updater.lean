import HalfMesh.Process.Rollback

/-! Clean startup and the single updater: what holds whenever a run of `updateCache` is in progress,
what the snapshots know of the initial lists, and what follows when `Start` fails. -/
namespace HalfMesh
open HalfMesh.Foundations HalfMesh.Kube HalfMesh.Xds
set_option autoImplicit false
set_option maxHeartbeats 250000
set_option maxRecDepth 120000

/-! ## The initial lists -/

/-- Each initial list was in its indexer before the run read anything of it. -/
structure Initialized (env : Env) (stores : Stores) (run : Run) : Prop where
  services : ∀ o ∈ env.services, Change.set o ∈ stores.svc.log.take run.svcAt
  endpoints : ∀ rd ∈ run.reads, ∀ o ∈ env.endpoints, Change.set o ∈ stores.ep.log.take rd.epAt

structure Listed (env : Env) (stores : Stores) : Prop where
  services : ∀ o ∈ env.services, Change.set o ∈ stores.svc.log
  endpoints : ∀ o ∈ env.endpoints, Change.set o ∈ stores.ep.log

structure RunsInitialized (env : Env) (stores : Stores) (pub : Publisher) (runs : List RunPC) : Prop where
  active : ∀ pc ∈ runs, ∀ run, pc.run? = some run → Initialized env stores run
  published : ∀ p ∈ pub.published, Initialized env stores p.run

section
variable {env : Env} {lib : Library} {stores stores' : Stores} {pub pub' : Publisher} {s t : System} {run : Run}

theorem Initialized.later (h : Initialized env stores run) (hl : Later stores stores') :
    Initialized env stores' run where
  services o ho := mem_take_of_longer hl.svc_log (h.services o ho)
  endpoints rd hrd o ho := mem_take_of_longer hl.ep_log (h.endpoints rd hrd o ho)

theorem initialized_create (hl : Listed env stores) (ord : RangeOrder String Service) :
    Initialized env stores (Run.create stores ord) where
  services o ho := by
    have htake : stores.svc.log.take stores.svc.log.length = stores.svc.log := List.take_length
    simp only [Run.create]
    rw [htake]
    exact hl.services o ho
  endpoints := nofun

theorem initialized_advance (hl : Listed env stores) (h : Initialized env stores run) (service : Service)
    (todo : List Service) (mss : MeshServices) : Initialized env stores (run.advance lib stores service todo mss) where
  services := h.services
  endpoints rd hrd o ho := by
    rcases List.mem_append.mp hrd with hold | hnew
    · exact h.endpoints rd hold o ho
    · obtain ⟨_, rfl⟩ := mem_readOf.mp hnew
      have htake : stores.ep.log.take stores.ep.log.length = stores.ep.log := List.take_length
      simp only
      rw [htake]
      exact hl.endpoints o ho

theorem initialized_runStep {pc : RunPC} {e : RunEvent} {progress : Progress} (hl : Listed env stores)
    (h : RunStep lib stores pub pc e (.ok (pub', progress))) (hi : RunsInitialized env stores pub [pc]) :
    RunsInitialized env stores pub' progress.active := by
  have hcases := run_cases (Initialized env stores) h (initialized_create hl)
    (fun run service todo mss hrun => initialized_advance hl hrun service todo mss)
    (hi.active pc (List.mem_singleton_self pc))
  rcases hcases with ⟨pc', rfl, hpub, hrun⟩ | ⟨err, rfl, hpub, _⟩ | ⟨q, answer, rfl, hpub, hq⟩
  · refine ⟨fun pc'' hpc'' => ?_, by rw [hpub]; exact hi.published⟩
    obtain rfl := List.mem_singleton.mp hpc''
    exact hrun
  · exact ⟨fun _ hpc' => absurd hpc' List.not_mem_nil, by rw [hpub]; exact hi.published⟩
  · refine ⟨fun _ hpc' => absurd hpc' List.not_mem_nil, fun p hp => ?_⟩
    rw [hpub] at hp
    rcases List.mem_append.mp hp with hold | hnew
    · exact hi.published p hold
    · obtain rfl := List.mem_singleton.mp hnew
      exact hq

theorem Control.established_of_inProgress (h : Control s) (hrun : s.inProgress ≠ []) : Established s := by
  by_cases hw : s.worker = .absent
  · cases hstart : s.start with
    | updating pc => exact h.established (by rw [hstart]; exact Nat.le_refl 6)
    | _ => exact absurd (inProgress_of_start none (by rw [hstart]; rfl) hw) hrun
  · exact (h.of_worker hw).2.2

theorem listed_of_established (he : Established s) (hs : RunsSound env s.toStores s.pub s.inProgress) :
    Listed env s.toStores where
  services o ho := by
    rcases hs.svc.listed o ho with hp | hl
    · rw [he.svc_synced] at hp
      cases hp
    · exact hl
  endpoints o ho := by
    rcases hs.ep.listed o ho with hp | hl
    · rw [he.ep_synced] at hp
      cases hp
    · exact hl

theorem runsInitialized_initial :
    RunsInitialized env (System.initial env).toStores (System.initial env).pub (System.initial env).inProgress :=
  ⟨fun _ hpc => absurd hpc List.not_mem_nil, nofun⟩

theorem runsInitialized_step (h : RunsInitialized env s.toStores s.pub s.inProgress) (hc : Control s)
    (hsound : RunsSound env s.toStores s.pub s.inProgress) (hs : RunsStep env.lib s t) :
    RunsInitialized env t.toStores t.pub t.inProgress := by
  refine hs.keeps h ?_ ?_ ?_
  · intro stores' hl h
    exact ⟨fun pc hpc run hrun => (h.active pc hpc run hrun).later hl, fun p hp => (h.published p hp).later hl⟩
  · intro h
    refine ⟨fun pc hpc run hrun => ?_, h.published⟩
    obtain rfl := List.mem_singleton.mp hpc
    cases hrun
  · intro pc e pub' progress hbefore hstep h
    have hne : s.inProgress ≠ [] := by
      rw [hbefore]
      exact List.cons_ne_nil _ _
    exact initialized_runStep (listed_of_established (hc.established_of_inProgress hne) hsound) hstep h

theorem Reachable.runsInitialized (h : Reachable env s) : RunsInitialized env s.toStores s.pub s.inProgress :=
  Reach.invariant (fun s : System => RunsInitialized env s.toStores s.pub s.inProgress) runsInitialized_initial
    (fun _ _ _ hr hi _ hs => runsInitialized_step hi (Reachable.control hr) (Reachable.runsSound hr)
      (Reachable.runsStep hr hs)) h

/-! ## What the snapshots know of the initial lists -/

/-- A Service that the run listed and whose annotation decodes was looked up, was found, and takes
its part in the published mesh. -/
theorem Publication.Sound.offer_of_service {p : Publication} (h : p.Sound lib stores) {service : Service}
    (hin : service ∈ p.run.services) {cfg : MeshServiceConfig}
    (hcfg : meshConfig? lib.yamlUnmarshal service = some cfg) :
    ∃ rd ∈ p.run.reads, ∃ endpoints, rd.key = service.key ∧ rd.value = some endpoints ∧
      meshOf lib.yamlUnmarshal p.run.lookup p.run.services service.key =
        some { provides := cfg.provides, weight := cfg.weight, endpoints := readyAddresses cfg.port endpoints } := by
  have hans := answers_lookup h.recorded h.collected
  obtain ⟨rd, hrd, hkey⟩ := h.collected.asked service hin (by rw [hcfg]; rfl)
  have hlook : p.run.lookup service.key = .ok rd.value := hkey ▸ hans rd hrd
  obtain ⟨ord, hok⟩ := h.computed hans
  have hres := (resourcesOf_eq_ok.mp hok).1 service hin
  cases hval : rd.value with
  | none => exact absurd ⟨by rw [hcfg]; rfl, by rw [hlook, hval]⟩ hres
  | some endpoints =>
    refine ⟨rd, hrd, endpoints, hkey, hval, ?_⟩
    have hnamed : named Service.key service.key p.run.services = some service :=
      (named_eq_some h.recorded.keys_nodup).mpr ⟨hin, rfl⟩
    rw [meshOf, hnamed, Option.bind_some]
    exact offerOf_eq_some.mpr ⟨cfg, endpoints, hcfg, by rw [hlook, hval], rfl⟩

/-- The snapshot knows every object of the initial lists, unless the object was changed since: it
publishes what a Service says about itself and the ready addresses of its Endpoints. -/
structure AccountsFor (env : Env) (s : System) (p : Publication) : Prop where
  initialized : Initialized env s.toStores p.run
  services : ∀ o ∈ env.services, KeyedStore.Kept Service.key (s.svc.log.take p.run.svcAt) o →
    o ∈ p.run.services ∧ ∀ cfg, meshConfig? env.lib.yamlUnmarshal o = some cfg →
      { name := o.key, weight := cfg.weight } ∈ p.passed.resources.weightsOf cfg.provides
  endpoints : ∀ o ∈ env.endpoints, ∀ service ∈ p.run.services, service.key = o.key →
    ∀ cfg, meshConfig? env.lib.yamlUnmarshal service = some cfg →
      ∃ rd ∈ p.run.reads, rd.key = o.key ∧
        (KeyedStore.Kept Endpoints.key (s.ep.log.take rd.epAt) o →
          ∃ a ∈ p.passed.resources.assignments, a.clusterName = o.key ∧ a.addresses = readyAddresses cfg.port o)

theorem accountsFor_of_sound {p : Publication} (h : p.Sound env.lib s.toStores)
    (hi : Initialized env s.toStores p.run) : AccountsFor env s p where
  initialized := hi
  services o _ hkept := by
    obtain ⟨ord, hlist⟩ := h.recorded.listed
    have hin : o ∈ p.run.services := by
      rw [hlist, KeyedStore.mem_list]
      exact KeyedStore.lookup_replay_of_kept hkept
    refine ⟨hin, fun cfg hcfg => ?_⟩
    obtain ⟨_, _, _, _, _, hmesh⟩ := h.offer_of_service hin hcfg
    exact h.realizes.mem_weightsOf.mpr ⟨_, hmesh, rfl, rfl⟩
  endpoints o _ service hin hkey cfg hcfg := by
    obtain ⟨rd, hrd, endpoints, hrk, hval, hmesh⟩ := h.offer_of_service hin hcfg
    refine ⟨rd, hrd, hrk.trans hkey, fun hkept => ?_⟩
    have hfound := h.recorded.looked_up rd hrd
    rw [hrk.trans hkey, KeyedStore.lookup_replay_of_kept hkept, hval] at hfound
    obtain rfl := Option.some.inj hfound
    refine ⟨_, (h.realizes.mem_assignments _).mpr ⟨service.key, _, hmesh, rfl⟩, hkey, ?_⟩
    exact Offer.addresses_assignment _ _

/-! ## A failed start -/

theorem start_of_step {a : Action} {err : Option String} (h : s.start = .returned err)
    (hs : System.Step lib s a t) : t.start = .returned err := by
  cases hs with
  | @svc e out _ => cases out <;> exact h
  | @ep e out _ => cases out <;> exact h
  | @workerRun pc e out _ _ =>
    rcases out with why | ⟨pub, pc' | err'⟩
    · exact h
    · exact h
    · exact h
  | done _ _ | receive _ _ | close _ | closePanicking _ | crash _ | cancel | panic _ => exact h
  | timeout hs _ =>
    rw [h] at hs
    rcases hs with hs | hs <;> cases hs
  | configFails hs | config hs | svcSynced hs _ | epSynced hs _ | assignSvc hs | assignEp hs | storeReady hs
  | startRun hs _ | launch hs =>
    rw [h] at hs
    cases hs

theorem start_of_reach {err : Option String} (h : s.start = .returned err)
    (hr : Reach (System.step lib) anyStep s t) : t.start = .returned err :=
  Reach.invariant (fun u => u.start = .returned err) h
    (fun _ _ _ _ hi _ hs => start_of_step hi (System.step_cases hs).2) hr

theorem Control.no_worker_of_failed (h : Control s) {err : String} (hs : s.start = .returned (some err)) :
    s.worker = .absent ∧ s.inProgress = [] := by
  have hw := h.absent_of_start (by rw [hs]; exact nofun)
  exact ⟨hw, inProgress_of_start none (by rw [hs]; rfl) hw⟩

structure CleanStartup (env : Env) (s : System) : Prop where
  /-- While a run is in progress, both indexers are assigned and hold their initial lists. -/
  established : s.inProgress ≠ [] → s.svcAssigned = true ∧ s.epAssigned = true ∧ Listed env s.toStores
  single : s.inProgress.length ≤ 1
  accounted : ∀ p ∈ s.pub.published, AccountsFor env s p
  /-- After a `Start` that failed there is no worker and no run, now or later. -/
  stopped : ∀ err, s.start = .returned (some err) → ∀ t, Reach (System.step env.lib) anyStep s t →
    t.worker = .absent ∧ t.inProgress = []

theorem startup_clean (env : Env) (s : System) (h : Reachable env s) :
    (s.svc.indexer = KeyedStore.replay Service.key s.svc.log ∧
      s.ep.indexer = KeyedStore.replay Endpoints.key s.ep.log) ∧ CleanStartup env s := by
  have hsound := h.runsSound
  refine ⟨⟨hsound.svc.logged, hsound.ep.logged⟩, ?_, h.control.inProgress_length, ?_, ?_⟩
  · intro hrun
    have he := h.control.established_of_inProgress hrun
    exact ⟨he.svc_assigned, he.ep_assigned, listed_of_established he hsound⟩
  · exact fun p hp => accountsFor_of_sound (hsound.published p hp) (h.runsInitialized.published p hp)
  · intro err hs t hr
    have hcontrol : Control t := @Reachable.control env _ (h.trans hr)
    exact hcontrol.no_worker_of_failed (start_of_reach hs hr)

/-! Besides the start that succeeds: one whose context is cancelled while it waits for the Services,
and one whose first `SetSnapshot` fails. -/

def demoTimeout : List Action :=
  [.start (.configure none), .svc .applyInitial, .svc .handler, .cancel, .start .timeout]

def demoRefusal : List Action :=
  [.start (.configure none), .svc .applyInitial, .svc .handler, .svc .applyInitial, .svc .handler,
    .start .sync, .start .assign, .ep .applyInitial, .ep .handler, .ep .applyInitial, .ep .handler,
    .start .sync, .start .assign, .start .storeReady, .start (.run (.list default)), .start (.run .iterate),
    .start (.run .iterate), .start (.run (.build default)), .start (.run (.publish (some "no watch")))]

theorem demoTimeout_enabled :
    (runActions (System.step demoEnv.lib) (System.initial demoEnv) demoTimeout).isSome := by decide

theorem demoRefusal_enabled :
    (runActions (System.step demoEnv.lib) (System.initial demoEnv) demoRefusal).isSome := by decide

def timedOutSystem : System :=
  (runActions (System.step demoEnv.lib) (System.initial demoEnv) demoTimeout).get demoTimeout_enabled

def refusedSystem : System :=
  (runActions (System.step demoEnv.lib) (System.initial demoEnv) demoRefusal).get demoRefusal_enabled

theorem startup_clean_demo :
    ((demoSystem.svc.indexer = KeyedStore.replay Service.key demoSystem.svc.log ∧
      demoSystem.ep.indexer = KeyedStore.replay Endpoints.key demoSystem.ep.log) ∧
      CleanStartup demoEnv demoSystem) ∧
    (timedOutSystem.start = .returned (some System.timedOut) ∧ CleanStartup demoEnv timedOutSystem) ∧
    refusedSystem.start = .returned (some "no watch") ∧ refusedSystem.pub.published.length = 1 ∧
      CleanStartup demoEnv refusedSystem :=
  ⟨startup_clean demoEnv demoSystem demoSystem_reachable,
    ⟨rfl, (startup_clean demoEnv timedOutSystem (Reach.of_runActions (Option.some_get _).symm)).2⟩,
    rfl, rfl, (startup_clean demoEnv refusedSystem (Reach.of_runActions (Option.some_get _).symm)).2⟩

end
end HalfMesh
