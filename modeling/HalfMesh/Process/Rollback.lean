import HalfMesh.Process.Runs
import HalfMesh.Process.Versions

/-! What the published snapshots reflect. A snapshot mixes values read at different moments, but
each of them is a value its indexer held at the moment of the read; and as one run ends before the
next begins, a later snapshot reads no value of a key that is older than what an earlier one read. -/
namespace HalfMesh
open HalfMesh.Foundations HalfMesh.Kube HalfMesh.Xds
set_option autoImplicit false
set_option maxHeartbeats 250000
set_option maxRecDepth 120000

/-! ## The content of one snapshot -/

def Run.lookup (run : Run) : GetByKey := fun key => .ok ((named Read.key key run.reads).bind Read.value)

section
variable {lib : Library} {stores : Stores} {run : Run} {p : Publication}

theorem Recorded.keys_nodup (h : Recorded stores run) : (run.services.map Service.key).Nodup := by
  obtain ⟨ord, hlist⟩ := h.listed
  rw [hlist]
  exact KeyedStore.list_keys_nodup _ ord

/-- Each Service is listed once, so no key is read twice and the answers fit together. -/
theorem answers_lookup {before : List Service} (hrec : Recorded stores run) (hcol : Collected lib run before) :
    run.Answers run.lookup := by
  have hbefore : (before.map Service.key).Nodup := by
    have hall := hrec.keys_nodup
    rw [hcol.services, List.map_append] at hall
    exact (List.nodup_append.mp hall).1
  have hnodup : (run.reads.map Read.key).Nodup := hcol.keys.nodup hbefore
  intro rd hrd
  have hfound : named Read.key rd.key run.reads = some rd := (named_eq_some hnodup).mpr ⟨hrd, rfl⟩
  rw [Run.lookup, hfound]
  rfl

/-- The published resources are those of one call of `getResources` that lists and looks up what
the run did. -/
theorem Publication.Sound.computed (h : p.Sound lib stores) {lookup : GetByKey} (hans : p.run.Answers lookup) :
    ∃ ord, resourcesOf lib.yamlUnmarshal lookup ord p.run.services = .ok p.passed.resources := by
  obtain ⟨ord, hres⟩ := h.resources
  have hbuilt : registerServices lib.yamlUnmarshal lookup p.run.services = .ok p.run.meshServices :=
    h.collected.built lookup hans
  refine ⟨ord, ?_⟩
  rw [resourcesOf, hbuilt, hres]
  rfl

theorem Publication.Sound.realizes (h : p.Sound lib stores) :
    Realizes p.passed.resources (meshOf lib.yamlUnmarshal p.run.lookup p.run.services) := by
  obtain ⟨ord, hok⟩ := h.computed (answers_lookup h.recorded h.collected)
  exact resourcesOf_realizes h.recorded.keys_nodup hok

theorem Publication.Sound.offer (h : p.Sound lib stores) {c : String} {o : Offer}
    (ho : meshOf lib.yamlUnmarshal p.run.lookup p.run.services c = some o) :
    ∃ service ∈ p.run.services, ∃ rd ∈ p.run.reads, ∃ cfg endpoints, service.key = c ∧ rd.key = c ∧
      meshConfig? lib.yamlUnmarshal service = some cfg ∧ rd.value = some endpoints ∧
      o = { provides := cfg.provides, weight := cfg.weight, endpoints := readyAddresses cfg.port endpoints } := by
  obtain ⟨service, hs, ho⟩ := Option.bind_eq_some_iff.mp ho
  obtain ⟨hin, hkey⟩ := named_some_mem hs
  obtain ⟨cfg, endpoints, hcfg, hlook, ho⟩ := offerOf_eq_some.mp ho
  obtain ⟨rd, hrd, hrk⟩ := h.collected.asked service hin (by rw [hcfg]; rfl)
  have hans := answers_lookup h.recorded h.collected rd hrd
  rw [hrk, hlook] at hans
  exact ⟨service, hin, rd, hrd, cfg, endpoints, hkey, hrk.trans hkey, hcfg, (Except.ok.inj hans).symm, ho⟩

end

/-- A published snapshot is made of the values its run read, each the one its indexer held at the
time of the read, that is the value with the number the key had then. -/
structure FromStores (lib : Library) (s : System) (p : Publication) : Prop where
  listed : p.run.svcAt ≤ s.svc.log.length ∧
    ∃ ord, p.run.services = (KeyedStore.replay Service.key (s.svc.log.take p.run.svcAt)).list ord
  listed_value : ∀ key, named Service.key key p.run.services = KeyedStore.valueOf Service.key s.svc.log key
    (KeyedStore.keyVersion Service.key s.svc.log key p.run.svcAt)
  looked_up : ∀ rd ∈ p.run.reads, rd.epAt ≤ s.ep.log.length ∧
    rd.value = (KeyedStore.replay Endpoints.key (s.ep.log.take rd.epAt)).items.lookup rd.key
  looked_up_value : ∀ rd ∈ p.run.reads, rd.value = KeyedStore.valueOf Endpoints.key s.ep.log rd.key
    (KeyedStore.keyVersion Endpoints.key s.ep.log rd.key rd.epAt)
  computed : ∃ lookup ord, p.run.Answers lookup ∧
    resourcesOf lib.yamlUnmarshal lookup ord p.run.services = .ok p.passed.resources
  weights : ∀ m, ∀ w ∈ p.passed.resources.weightsOf m, ∃ service ∈ p.run.services, ∃ cfg,
    service.key = w.name ∧ meshConfig? lib.yamlUnmarshal service = some cfg ∧ cfg.provides = m ∧ cfg.weight = w.weight
  assignments : ∀ a ∈ p.passed.resources.assignments, ∃ service ∈ p.run.services, ∃ rd ∈ p.run.reads,
    ∃ cfg endpoints, service.key = a.clusterName ∧ rd.key = a.clusterName ∧
      meshConfig? lib.yamlUnmarshal service = some cfg ∧ rd.value = some endpoints ∧
      a.addresses = readyAddresses cfg.port endpoints

theorem fromStores_of_sound {lib : Library} {s : System} {p : Publication} (h : p.Sound lib s.toStores) :
    FromStores lib s p where
  listed := ⟨h.recorded.svcAt_le, h.recorded.listed⟩
  listed_value key := by
    obtain ⟨ord, hlist⟩ := h.recorded.listed
    rw [hlist, KeyedStore.named_list]
    exact KeyedStore.lookup_replay_take s.svc.log key p.run.svcAt
  looked_up rd hrd := ⟨h.recorded.epAt_le rd hrd, h.recorded.looked_up rd hrd⟩
  looked_up_value rd hrd := by
    rw [h.recorded.looked_up rd hrd]
    exact KeyedStore.lookup_replay_take s.ep.log rd.key rd.epAt
  computed := by
    have hans := answers_lookup h.recorded h.collected
    obtain ⟨ord, hok⟩ := h.computed hans
    exact ⟨p.run.lookup, ord, hans, hok⟩
  weights m w hw := by
    obtain ⟨o, ho, hm, hwt⟩ := h.realizes.mem_weightsOf.mp hw
    obtain ⟨service, hin, _, _, cfg, _, hkey, _, hcfg, _, rfl⟩ := h.offer ho
    exact ⟨service, hin, cfg, hkey, hcfg, hm, hwt.symm⟩
  assignments a ha := by
    obtain ⟨c, o, ho, rfl⟩ := (h.realizes.mem_assignments a).mp ha
    obtain ⟨service, hin, rd, hrd, cfg, endpoints, hkey, hrk, hcfg, hval, rfl⟩ := h.offer ho
    exact ⟨service, hin, rd, hrd, cfg, endpoints, hkey, hrk, hcfg, hval, Offer.addresses_assignment _ c⟩

/-! ## Two snapshots -/

/-- All that `run` has read, it read before `run'` read anything of the same store. -/
def Run.Before (run run' : Run) : Prop :=
  run.svcAt ≤ run'.svcAt ∧ ∀ rd ∈ run.reads, ∀ rd' ∈ run'.reads, rd.epAt ≤ rd'.epAt

structure Ordered (pub : Publisher) (runs : List RunPC) : Prop where
  published : pub.published.Pairwise fun p q => p.run.Before q.run
  active : ∀ pc ∈ runs, ∀ run, pc.run? = some run → ∀ p ∈ pub.published, p.run.Before run

section
variable {env : Env} {lib : Library} {stores : Stores} {pub pub' : Publisher} {s t : System}

theorem before_create {p : Publication} (h : p.Sound lib stores) (ord : RangeOrder String Service) :
    p.run.Before (Run.create stores ord) := ⟨h.recorded.svcAt_le, fun _ _ => nofun⟩

theorem before_advance {run : Run} {p : Publication} (h : p.Sound lib stores) (hb : p.run.Before run)
    (service : Service) (todo : List Service) (mss : MeshServices) :
    p.run.Before (run.advance lib stores service todo mss) := by
  refine ⟨hb.1, fun rd hrd rd' hrd' => ?_⟩
  rcases List.mem_append.mp hrd' with hold | hnew
  · exact hb.2 rd hrd rd' hold
  · obtain ⟨_, rfl⟩ := mem_readOf.mp hnew
    exact h.recorded.epAt_le rd hrd

/-- The run in progress comes after all that is published, and publishes itself last. -/
theorem ordered_runStep {pc : RunPC} {e : RunEvent} {progress : Progress}
    (h : RunStep lib stores pub pc e (.ok (pub', progress))) (hsound : ∀ p ∈ pub.published, p.Sound lib stores)
    (ho : Ordered pub [pc]) : Ordered pub' progress.active := by
  have hcases := run_cases (fun run => ∀ p ∈ pub.published, p.run.Before run) h
    (fun ord p hp => before_create (hsound p hp) ord)
    (fun run service todo mss hrun p hp => before_advance (hsound p hp) (hrun p hp) service todo mss)
    (ho.active pc (List.mem_singleton_self pc))
  rcases hcases with ⟨pc', rfl, hpub, hrun⟩ | ⟨err, rfl, hpub, _⟩ | ⟨q, answer, rfl, hpub, hq⟩
  · refine ⟨by rw [hpub]; exact ho.published, fun pc'' hpc'' => ?_⟩
    obtain rfl := List.mem_singleton.mp hpc''
    rw [hpub]
    exact hrun
  · exact ⟨by rw [hpub]; exact ho.published, fun _ hpc' => absurd hpc' List.not_mem_nil⟩
  · refine ⟨?_, fun _ hpc' => absurd hpc' List.not_mem_nil⟩
    rw [hpub, List.pairwise_append]
    refine ⟨ho.published, List.pairwise_singleton _ _, fun p hp q' hq' => ?_⟩
    obtain rfl := List.mem_singleton.mp hq'
    exact hq p hp

theorem ordered_step (h : Ordered s.pub s.inProgress) (hsound : RunsSound env s.toStores s.pub s.inProgress)
    (hs : RunsStep env.lib s t) : Ordered t.pub t.inProgress := by
  refine hs.keeps (I := fun _ => Ordered) h (fun _ ho => ho) ?_ ?_
  · intro ho
    refine ⟨ho.published, fun pc hpc run hrun => ?_⟩
    obtain rfl := List.mem_singleton.mp hpc
    cases hrun
  · intro pc e pub' progress _ hstep ho
    exact ordered_runStep hstep hsound.published ho

theorem ordered_initial : Ordered (System.initial env).pub (System.initial env).inProgress :=
  ⟨List.Pairwise.nil, fun _ hpc => absurd hpc List.not_mem_nil⟩

theorem Reachable.ordered (h : Reachable env s) : Ordered s.pub s.inProgress :=
  Reach.invariant (fun s : System => Ordered s.pub s.inProgress) ordered_initial
    (fun _ _ _ hr hi _ hs => ordered_step hi (Reachable.runsSound hr) (Reachable.runsStep hr hs)) h

end

/-- No key is seen with a smaller number by `q` than by `p`. -/
structure NoRollback (s : System) (p q : Publication) : Prop where
  services : ∀ key, KeyedStore.keyVersion Service.key s.svc.log key p.run.svcAt ≤
    KeyedStore.keyVersion Service.key s.svc.log key q.run.svcAt
  reads : ∀ rd ∈ p.run.reads, ∀ rd' ∈ q.run.reads, rd.key = rd'.key →
    KeyedStore.keyVersion Endpoints.key s.ep.log rd.key rd.epAt ≤
      KeyedStore.keyVersion Endpoints.key s.ep.log rd'.key rd'.epAt

/-- In every reachable state the snapshots passed on so far are made of values their runs read, and
none rolls a key back behind an earlier one. -/
theorem published_no_rollback (env : Env) (s : System) (h : Reachable env s) :
    (s.svc.indexer = KeyedStore.replay Service.key s.svc.log ∧
      s.ep.indexer = KeyedStore.replay Endpoints.key s.ep.log) ∧
    (∀ p ∈ s.pub.published, FromStores env.lib s p) ∧ s.pub.published.Pairwise (NoRollback s) := by
  have hsound := h.runsSound
  refine ⟨⟨hsound.svc.logged, hsound.ep.logged⟩, fun p hp => fromStores_of_sound (hsound.published p hp), ?_⟩
  refine h.ordered.published.imp fun {p q} hpq => ⟨fun key => ?_, fun rd hrd rd' hrd' hkey => ?_⟩
  · exact KeyedStore.keyVersion_mono s.svc.log key hpq.1
  · rw [← hkey]
    exact KeyedStore.keyVersion_mono s.ep.log rd.key (hpq.2 rd hrd rd' hrd')

/-! The run of the witnesses: a start with the two demo Services and their Endpoints, and then the
deletion of `service-beta`. -/

def demoEnv : Env where
  lib := demoLibrary
  services := [serviceMain, serviceBeta]
  endpoints := [mainEndpoints, betaEndpoints]

def demoStartup : List Action :=
  [.start (.configure none), .svc .applyInitial, .svc .handler, .svc .applyInitial, .svc .handler,
    .start .sync, .start .assign, .ep .applyInitial, .ep .handler, .ep .applyInitial, .ep .handler,
    .start .sync, .start .assign, .start .storeReady, .start (.run (.list default)), .start (.run .iterate),
    .start (.run .iterate), .start (.run (.build default)), .start (.run (.publish none)), .start .launch]

def demoDeletion : List Action :=
  [.svc (.apply (.delete "default/service-beta")), .svc .handler, .svc .send, .worker .receive,
    .worker (.run (.list default)), .worker (.run .iterate), .worker (.run (.build default)),
    .worker (.run (.publish none))]

theorem demo_enabled : (runActions (System.step demoEnv.lib) (System.initial demoEnv)
    (demoStartup ++ demoDeletion)).isSome := by decide

/-- The state at the end, where both snapshots have been passed on. -/
def demoSystem : System := (runActions (System.step demoEnv.lib) (System.initial demoEnv)
  (demoStartup ++ demoDeletion)).get demo_enabled

theorem demoSystem_reachable : Reachable demoEnv demoSystem := Reach.of_runActions (Option.some_get _).symm

theorem published_no_rollback_demo :
    (demoSystem.svc.indexer = KeyedStore.replay Service.key demoSystem.svc.log ∧
      demoSystem.ep.indexer = KeyedStore.replay Endpoints.key demoSystem.ep.log) ∧
    (∀ p ∈ demoSystem.pub.published, FromStores demoEnv.lib demoSystem p) ∧
      demoSystem.pub.published.Pairwise (NoRollback demoSystem) :=
  published_no_rollback demoEnv demoSystem demoSystem_reachable

end HalfMesh
