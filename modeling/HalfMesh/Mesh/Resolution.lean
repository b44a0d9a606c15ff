import HalfMesh.Mesh.Realization

/-! What a client finds when it follows a mesh name through the published resources: listener,
RDS name, route configuration, virtual host, the weighted clusters of the `/` route, then the
Cluster and the load assignment of each. In a map that realizes a mesh this finds the providers of
the name, and for the contents of the two indexers that is the join of the services, their
annotations and the Endpoints. Without the Endpoints of one such service `getResources` panics. -/
namespace HalfMesh
open HalfMesh.Foundations HalfMesh.Kube HalfMesh.Xds
set_option autoImplicit false
set_option maxHeartbeats 250000
set_option maxRecDepth 120000

/-! ## The client's chain of lookups -/

/-- One weighted cluster with the addresses and ports of its load assignment. -/
structure Upstream where
  name : String
  weight : UInt32
  addresses : List (String × UInt32)
  deriving DecidableEq, Repr

def followCluster (r : Resources) (w : ClusterWeight) : Option Upstream :=
  (r.cluster? w.name).bind fun cluster =>
    (r.assignment? cluster.name).map fun assignment =>
      { name := w.name, weight := w.weight, addresses := assignment.addresses }

def follow (r : Resources) (m : String) : Option (List Upstream) :=
  (r.listener? m).bind fun l =>
  (r.route? l.rdsName).bind fun rc =>
  (rc.virtualHosts.find? fun vh => m ∈ vh.domains).bind fun vh =>
  (vh.routes.find? fun route => route.routeMatch.pathPrefix = "/").bind fun route =>
  route.action.weightedClusters.clusters.mapM (followCluster r)

theorem mapM_eq_map {α β : Type} (f : α → Option β) (g : α → β) (l : List α)
    (h : ∀ a ∈ l, f a = some (g a)) : l.mapM f = some (l.map g) := by
  induction l with
  | nil => rfl
  | cons a l ih =>
    have ha := h a (List.mem_cons_self ..)
    have hl := ih fun b hb => h b (List.mem_cons_of_mem a hb)
    simp [List.mapM_cons, ha, hl]

theorem follow_meshRoute {r : Resources} {m : String} {ws : List ClusterWeight}
    (hl : r.listener? m = some (meshListener m)) (hrc : r.route? m = some (meshRoute m ws)) :
    follow r m = ws.mapM (followCluster r) := by
  have hn : (meshListener m).rdsName = m := rfl
  rw [follow, hl, Option.bind_some, hn, hrc, Option.bind_some]
  simp [meshRoute]

namespace Realizes
variable {r : Resources} {V : Mesh}

theorem followCluster_eq (h : Realizes r V) {w : ClusterWeight} {o : Offer} (ho : V w.name = some o) :
    followCluster r w = some { name := w.name, weight := w.weight, addresses := o.endpoints } := by
  rw [followCluster, h.cluster?_eq, ho, Option.map_some, Option.bind_some,
    show (edsCluster w.name).name = w.name from rfl, h.assignment?_eq, ho, Option.map_some,
    Option.map_some, Offer.addresses_assignment]

/-- Following a provided name finds its providers, each once, and nothing else. -/
theorem follow_of_provided (h : Realizes r V) {m : String} (hm : V.Provided m) :
    ∃ ups, follow r m = some ups ∧ (ups.map Upstream.name).Nodup ∧
      ∀ u, u ∈ ups ↔ ∃ o, V u.name = some o ∧ o.provides = m ∧ u.weight = o.weight ∧
        u.addresses = o.endpoints := by
  obtain ⟨ws, hrc, hnd, hws⟩ := h.route?_of_provided hm
  have hl := h.listener?_eq_some.mpr ⟨hm, rfl⟩
  let up (w : ClusterWeight) : Upstream :=
    { name := w.name, weight := w.weight, addresses := ((V w.name).map Offer.endpoints).getD [] }
  have hup : ∀ w ∈ ws, followCluster r w = some (up w) := by
    intro w hw
    obtain ⟨o, ho, _, _⟩ := (hws w).mp hw
    rw [h.followCluster_eq ho]
    simp [up, ho]
  refine ⟨ws.map up, ?_, ?_, fun u => ⟨fun hu => ?_, fun ⟨o, ho, hp, hw, ha⟩ => ?_⟩⟩
  · rw [follow_meshRoute hl hrc, mapM_eq_map _ up ws hup]
  · rw [List.map_map]
    exact hnd
  · obtain ⟨w, hw, rfl⟩ := List.mem_map.mp hu
    obtain ⟨o, ho, hp, hwt⟩ := (hws w).mp hw
    exact ⟨o, ho, hp, hwt, by simp [up, ho]⟩
  · have hmem : ({ name := u.name, weight := u.weight } : ClusterWeight) ∈ ws := (hws _).mpr ⟨o, ho, hp, hw⟩
    refine List.mem_map.mpr ⟨_, hmem, ?_⟩
    cases u
    simp only [up, ho, Option.map_some, Option.getD_some]
    rw [← ha]

theorem follow_isSome (h : Realizes r V) {m : String} : (follow r m).isSome ↔ V.Provided m := by
  refine ⟨fun hs => ?_, fun hm => ?_⟩
  · obtain ⟨ups, hups⟩ := Option.isSome_iff_exists.mp hs
    obtain ⟨l, hl, _⟩ := Option.bind_eq_some_iff.mp hups
    exact (h.listener?_eq_some.mp hl).1
  · obtain ⟨ups, hups, _⟩ := h.follow_of_provided hm
    rw [hups]
    rfl

end Realizes

/-! ## The join the indexers declare -/

section Join
variable {unmarshal : YamlUnmarshal} {kw : KubeWatcher}

/-- The ready addresses of all subsets, each with the port of the annotation. -/
def readyAddresses (port : UInt32) (endpoints : Endpoints) : List (String × UInt32) :=
  endpoints.subsets.flatMap fun subset => subset.addresses.map fun address => (address.ip, port)

/-- What a Service adds to the mesh service `m` by its annotation and its Endpoints. -/
def declaredUpstream (unmarshal : YamlUnmarshal) (kw : KubeWatcher) (m : String) (service : Service) :
    Option Upstream :=
  (meshConfig? unmarshal service).bind fun cfg =>
    if cfg.provides = m then
      (kw.epIndexer.items.lookup service.key).map fun endpoints =>
        { name := service.key, weight := cfg.weight, addresses := readyAddresses cfg.port endpoints }
    else none

/-- Every Service whose annotation is present and decodes has an Endpoints object. -/
def KubeWatcher.Resolved (kw : KubeWatcher) (unmarshal : YamlUnmarshal) : Prop :=
  ∀ key service, kw.svcIndexer.items.lookup key = some service →
    (meshConfig? unmarshal service).isSome → (kw.epIndexer.items.lookup service.key).isSome

/-- The objects of the indexer are those it lists, so the condition can be checked. -/
instance (kw : KubeWatcher) (unmarshal : YamlUnmarshal) : Decidable (kw.Resolved unmarshal) :=
  decidable_of_iff (∀ service ∈ kw.svcIndexer.list default,
    (meshConfig? unmarshal service).isSome → (kw.epIndexer.items.lookup service.key).isSome)
    ⟨fun h key service hs => h service (KeyedStore.mem_list.mpr
        (by rw [kw.svcIndexer.keyed key service hs, hs])),
      fun h service hs => h service.key service (KeyedStore.mem_list.mp hs)⟩

theorem unresolved_getByKey {service : Service} :
    Unresolved unmarshal (getByKey kw.epIndexer) service ↔
      (meshConfig? unmarshal service).isSome ∧ kw.epIndexer.items.lookup service.key = none := by
  rw [Unresolved, getByKey, Except.ok.injEq]

theorem resolved_iff (ord : RangeOrder String Service) : kw.Resolved unmarshal ↔
    ∀ svc ∈ kw.svcIndexer.list ord, ¬ Unresolved unmarshal (getByKey kw.epIndexer) svc := by
  refine ⟨fun h svc hsvc hun => ?_, fun h key svc hsvc hcfg => ?_⟩
  · obtain ⟨hcfg, hnone⟩ := unresolved_getByKey.mp hun
    have hs := h svc.key svc (KeyedStore.mem_list.mp hsvc) hcfg
    rw [hnone] at hs
    cases hs
  · by_contra hnone
    have hkey := kw.svcIndexer.keyed key svc hsvc
    refine h svc (KeyedStore.mem_list.mpr (by rw [hkey, hsvc])) (unresolved_getByKey.mpr ⟨hcfg, ?_⟩)
    exact Option.not_isSome_iff_eq_none.mp hnone

theorem getResources_of_resolved (h : kw.Resolved unmarshal) (ord : RangeOrders) :
    kw.getResources unmarshal ord = .ok (meshResources ord (MeshServices.registerAll
      (registrations unmarshal (getByKey kw.epIndexer) (kw.svcIndexer.list ord.services)))) :=
  resourcesOf_eq_ok.mpr ⟨(resolved_iff ord.services).mp h, rfl⟩

/-- `getResources` returns exactly when every Service that asks for its Endpoints has them. -/
theorem getResources_returns (ord : RangeOrders) :
    (∃ r, kw.getResources unmarshal ord = .ok r) ↔ kw.Resolved unmarshal := by
  refine ⟨fun ⟨r, hr⟩ => ?_, fun h => ⟨_, getResources_of_resolved h ord⟩⟩
  rw [resolved_iff ord.services]
  exact (resourcesOf_eq_ok.mp hr).1

theorem offerOf_eq_some {lookup : GetByKey} {service : Service} {o : Offer} :
    offerOf unmarshal lookup service = some o ↔
      ∃ cfg endpoints, meshConfig? unmarshal service = some cfg ∧ lookup service.key = .ok (some endpoints) ∧
        o = { provides := cfg.provides, weight := cfg.weight, endpoints := readyAddresses cfg.port endpoints } := by
  unfold offerOf registration?
  cases hc : meshConfig? unmarshal service with
  | none => simp
  | some cfg =>
    rcases he : lookup service.key with e | _ | endpoints
    · simp
    · simp
    · simp [RegisterCall.offer, endpointIPs, readyAddresses, List.map_flatMap, Function.comp_def, eq_comm]

theorem mesh_eq_some {c : String} {o : Offer} :
    kw.mesh unmarshal c = some o ↔ ∃ service cfg endpoints, kw.svcIndexer.items.lookup c = some service ∧
      meshConfig? unmarshal service = some cfg ∧ kw.epIndexer.items.lookup c = some endpoints ∧
      o = { provides := cfg.provides, weight := cfg.weight, endpoints := readyAddresses cfg.port endpoints } := by
  rw [KubeWatcher.mesh, Option.bind_eq_some_iff]
  refine exists_congr fun service => ?_
  refine ⟨fun ⟨hs, ho⟩ => ?_, fun ⟨cfg, endpoints, hs, hcfg, hep, ho⟩ => ?_⟩
  · obtain ⟨cfg, endpoints, hcfg, hep, ho⟩ := offerOf_eq_some.mp ho
    rw [kw.svcIndexer.keyed c service hs] at hep
    exact ⟨cfg, endpoints, hs, hcfg, Except.ok.inj hep, ho⟩
  · refine ⟨hs, offerOf_eq_some.mpr ⟨cfg, endpoints, hcfg, ?_, ho⟩⟩
    rw [kw.svcIndexer.keyed c service hs, getByKey, hep]

/-- With all Endpoints there, a mesh name is provided exactly when some annotation provides it. -/
theorem provided_mesh (h : kw.Resolved unmarshal) {m : String} :
    (kw.mesh unmarshal).Provided m ↔ ∃ key service cfg, kw.svcIndexer.items.lookup key = some service ∧
      meshConfig? unmarshal service = some cfg ∧ cfg.provides = m := by
  refine ⟨fun ⟨c, o, hc, hm⟩ => ?_, fun ⟨key, service, cfg, hs, hcfg, hm⟩ => ?_⟩
  · obtain ⟨service, cfg, _, hs, hcfg, _, ho⟩ := mesh_eq_some.mp hc
    exact ⟨c, service, cfg, hs, hcfg, by rw [← hm, ho]⟩
  · have hep := h key service hs (by rw [hcfg]; rfl)
    obtain ⟨endpoints, hep⟩ := Option.isSome_iff_exists.mp hep
    rw [kw.svcIndexer.keyed key service hs] at hep
    exact ⟨key, _, mesh_eq_some.mpr ⟨service, cfg, endpoints, hs, hcfg, hep, rfl⟩, hm⟩

theorem mem_declaredUpstreams {ord : RangeOrder String Service} {m : String} {u : Upstream} :
    u ∈ (kw.svcIndexer.list ord).filterMap (declaredUpstream unmarshal kw m) ↔
      ∃ o, kw.mesh unmarshal u.name = some o ∧ o.provides = m ∧ u.weight = o.weight ∧ u.addresses = o.endpoints := by
  rw [List.mem_filterMap]
  refine ⟨fun ⟨service, hs, hu⟩ => ?_, fun ⟨o, ho, hm, hw, ha⟩ => ?_⟩
  · obtain ⟨cfg, hcfg, hu⟩ := Option.bind_eq_some_iff.mp hu
    split at hu
    · next hm =>
      obtain ⟨endpoints, hep, rfl⟩ := Option.map_eq_some_iff.mp hu
      exact ⟨_, mesh_eq_some.mpr ⟨service, cfg, endpoints, KeyedStore.mem_list.mp hs, hcfg, hep, rfl⟩, hm, rfl, rfl⟩
    · cases hu
  · obtain ⟨service, cfg, endpoints, hs, hcfg, hep, rfl⟩ := mesh_eq_some.mp ho
    have hkey := kw.svcIndexer.keyed _ service hs
    refine ⟨service, KeyedStore.mem_list.mpr (by rw [hkey, hs]), ?_⟩
    rw [declaredUpstream, hcfg, Option.bind_some, if_pos hm, hkey, hep, Option.map_some]
    cases u
    cases hw
    cases ha
    rfl

theorem declaredUpstreams_names_nodup (ord : RangeOrder String Service) (m : String) :
    (((kw.svcIndexer.list ord).filterMap (declaredUpstream unmarshal kw m)).map Upstream.name).Nodup := by
  refine List.Nodup.sublist ?_ (kw.svcIndexer.list_keys_nodup ord)
  generalize kw.svcIndexer.list ord = l
  induction l with
  | nil => exact List.Sublist.slnil
  | cons svc l ih =>
    cases hu : declaredUpstream unmarshal kw m svc with
    | none =>
      rw [List.filterMap_cons_none hu]
      exact ih.cons _
    | some u =>
      rw [List.filterMap_cons_some hu]
      obtain ⟨cfg, _, hu⟩ := Option.bind_eq_some_iff.mp hu
      split at hu
      · obtain ⟨endpoints, _, rfl⟩ := Option.map_eq_some_iff.mp hu
        exact ih.cons_cons _
      · cases hu

/-- Following a mesh name through the result of `getResources` finds the Services whose annotation
provides it, each once, with the weight of the annotation and all ready addresses. -/
theorem getResources_follow (kw : KubeWatcher) (unmarshal : YamlUnmarshal) (ord : RangeOrders)
    (h : kw.Resolved unmarshal) :
    ∃ r, kw.getResources unmarshal ord = .ok r ∧ ∀ m,
      ((follow r m).isSome ↔ ∃ service ∈ kw.svcIndexer.list ord.services, ∃ cfg,
        meshConfig? unmarshal service = some cfg ∧ cfg.provides = m) ∧
      ∀ ups, follow r m = some ups →
        ups.Perm ((kw.svcIndexer.list ord.services).filterMap (declaredUpstream unmarshal kw m)) := by
  obtain ⟨r, hr⟩ := (getResources_returns ord).mpr h
  have hreal := KubeWatcher.getResources_realizes hr
  refine ⟨r, hr, fun m => ⟨?_, fun ups hups => ?_⟩⟩
  · rw [hreal.follow_isSome, provided_mesh h]
    refine ⟨fun ⟨key, service, cfg, hs, hcfg, hm⟩ => ?_, fun ⟨service, hs, cfg, hcfg, hm⟩ => ?_⟩
    · have hkey := kw.svcIndexer.keyed key service hs
      exact ⟨service, KeyedStore.mem_list.mpr (by rw [hkey, hs]), cfg, hcfg, hm⟩
    · exact ⟨service.key, service, cfg, KeyedStore.mem_list.mp hs, hcfg, hm⟩
  · have hm : (kw.mesh unmarshal).Provided m := hreal.follow_isSome.mp (by rw [hups]; rfl)
    obtain ⟨ups', hups', hnd, hmem⟩ := hreal.follow_of_provided hm
    have he : ups = ups' := Option.some.inj (hups.symm.trans hups')
    subst he
    have hnd' := @declaredUpstreams_names_nodup unmarshal kw ord.services m
    rw [List.perm_ext_iff_of_nodup (List.Nodup.of_map _ hnd) (List.Nodup.of_map _ hnd')]
    intro u
    rw [hmem, mem_declaredUpstreams]

/-! The two Services of `2-control-plane-only/k8s-services.yaml`, in the default namespace. -/

def mainYaml : String := "provides: service\nport: 9000\nweight: 1\n"

def betaYaml : String := "provides: service\nport: 9000\nweight: 0\n"

def serviceMain : Service where
  ns := "default"
  name := "service-main"
  annotations := AList.singleton "mesh-service" mainYaml

def serviceBeta : Service where
  ns := "default"
  name := "service-beta"
  annotations := AList.singleton "mesh-service" betaYaml

def demoUnmarshal : YamlUnmarshal := fun text =>
  if text = mainYaml then .ok { provides := "service", port := 9000, weight := 1 }
  else if text = betaYaml then .ok { provides := "service", port := 9000, weight := 0 }
  else .error "error converting YAML to JSON"

def mainEndpoints : Endpoints where
  ns := "default"
  name := "service-main"
  subsets := [{ addresses := [{ ip := "10.0.0.1" }, { ip := "10.0.0.2" }] }]

def betaEndpoints : Endpoints where
  ns := "default"
  name := "service-beta"
  subsets := [{ addresses := [{ ip := "10.0.0.3" }] }]

def demoWatcher : KubeWatcher where
  svcIndexer := (KeyedStore.set ∅ serviceMain).set serviceBeta
  epIndexer := (KeyedStore.set ∅ mainEndpoints).set betaEndpoints

theorem demoWatcher_resolved : demoWatcher.Resolved demoUnmarshal := by decide

theorem getResources_follow_demo :
    ∃ r, demoWatcher.getResources demoUnmarshal default = .ok r ∧ ∀ m,
      ((follow r m).isSome ↔ ∃ service ∈ demoWatcher.svcIndexer.list default, ∃ cfg,
        meshConfig? demoUnmarshal service = some cfg ∧ cfg.provides = m) ∧
      ∀ ups, follow r m = some ups → ups.Perm
        ((demoWatcher.svcIndexer.list default).filterMap (declaredUpstream demoUnmarshal demoWatcher m)) :=
  getResources_follow demoWatcher demoUnmarshal default demoWatcher_resolved

end Join

/-! ## Services without Endpoints -/

/-- The same watcher with the Services that have no Endpoints object removed. -/
def KubeWatcher.withEndpoints (kw : KubeWatcher) : KubeWatcher where
  svcIndexer := kw.svcIndexer.filter fun service => (kw.epIndexer.items.lookup service.key).isSome
  epIndexer := kw.epIndexer

/-- `getResources` returns, and for every Service that has an Endpoints object it publishes the
cluster, the load assignment and the weighted-cluster entries that it publishes when the Services
without one are removed. -/
def SkipsUnresolved (kw : KubeWatcher) (unmarshal : YamlUnmarshal) (ord ord' : RangeOrders) : Prop :=
  ∃ r r', kw.getResources unmarshal ord = .ok r ∧ kw.withEndpoints.getResources unmarshal ord' = .ok r' ∧
    ∀ service, kw.svcIndexer.items.lookup service.key = some service →
      (kw.epIndexer.items.lookup service.key).isSome →
      r.cluster? service.key = r'.cluster? service.key ∧
      r.assignment? service.key = r'.assignment? service.key ∧
      ∀ m w, w.name = service.key → (w ∈ r.weightsOf m ↔ w ∈ r'.weightsOf m)

section Unresolved
variable {unmarshal : YamlUnmarshal} {kw : KubeWatcher}

theorem withEndpoints_resolved : kw.withEndpoints.Resolved unmarshal := by
  intro key service hs _
  rw [KubeWatcher.withEndpoints, KeyedStore.lookup_filter, Option.filter_eq_some_iff] at hs
  exact hs.2

/-- A Service without Endpoints takes no part in the mesh, removed or not. -/
theorem mesh_withEndpoints : kw.withEndpoints.mesh unmarshal = kw.mesh unmarshal := by
  funext c
  ext o
  rw [mesh_eq_some, mesh_eq_some]
  refine exists_congr fun service => exists_congr fun cfg => exists_congr fun endpoints => ?_
  refine and_congr_left fun ⟨_, hep, _⟩ => ?_
  rw [KubeWatcher.withEndpoints, KeyedStore.lookup_filter, Option.filter_eq_some_iff]
  refine ⟨And.left, fun hs => ⟨hs, ?_⟩⟩
  rw [kw.svcIndexer.keyed c service hs]
  exact Option.isSome_iff_exists.mpr ⟨endpoints, hep⟩

/-- A Service without Endpoints is skipped exactly when it does not ask for them: one decodable
annotation without Endpoints ends in the panic of the type assertion. -/
theorem skipsUnresolved_iff (kw : KubeWatcher) (unmarshal : YamlUnmarshal) (ord ord' : RangeOrders) :
    SkipsUnresolved kw unmarshal ord ord' ↔
      ∀ key service, kw.svcIndexer.items.lookup key = some service →
        (meshConfig? unmarshal service).isSome → (kw.epIndexer.items.lookup service.key).isSome := by
  refine ⟨fun ⟨r, _, hr, _⟩ => (getResources_returns ord).mp ⟨r, hr⟩, fun h => ?_⟩
  obtain ⟨r, hr⟩ := (getResources_returns ord).mpr h
  obtain ⟨r', hr'⟩ := (getResources_returns ord').mpr (@withEndpoints_resolved unmarshal kw)
  have hreal := KubeWatcher.getResources_realizes hr
  have hreal' := KubeWatcher.getResources_realizes hr'
  rw [mesh_withEndpoints] at hreal'
  refine ⟨r, r', hr, hr', fun service _ _ => ⟨?_, ?_, fun m w _ => ?_⟩⟩
  · rw [hreal.cluster?_eq, hreal'.cluster?_eq]
  · rw [hreal.assignment?_eq, hreal'.assignment?_eq]
  · rw [hreal.mem_weightsOf, hreal'.mem_weightsOf]

/-- The Services are there before any Endpoints object is: the state the two independent watches
pass through when a Service is created. -/
theorem not_skipsUnresolved_demo :
    ¬ SkipsUnresolved { demoWatcher with epIndexer := ∅ } demoUnmarshal default default := by
  intro ⟨r, _, hr, _⟩
  have hpanic : KubeWatcher.getResources { demoWatcher with epIndexer := ∅ } demoUnmarshal default =
      .panic .interfaceConversion := rfl
  rw [hpanic] at hr
  cases hr

end Unresolved
end HalfMesh
