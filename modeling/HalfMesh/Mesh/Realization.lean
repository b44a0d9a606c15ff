import HalfMesh.Mesh.View
import HalfMesh.Model.GetResources

/-! `getResources` publishes the mesh that its two indexers declare. First the map
`MeshServices` is shown to represent that mesh (`Represents`), by the last-write rule on the calls
of `register` and the uniqueness of `namespace/name`; then the four lists that the loop over the
mesh services appends to are read back. -/
namespace HalfMesh
open HalfMesh.Foundations HalfMesh.Kube HalfMesh.Xds
set_option autoImplicit false
set_option maxHeartbeats 250000
set_option maxRecDepth 120000

variable {unmarshal : YamlUnmarshal} {lookup : GetByKey} {services : List Service}

/-! ## The declared mesh -/

def RegisterCall.offer (call : RegisterCall) : Offer where
  provides := call.cfg.provides
  weight := call.cfg.weight
  endpoints := call.ips.map fun ip => (ip, call.cfg.port)

/-- The part a Service takes: none unless its annotation decodes and its Endpoints are found. -/
def offerOf (unmarshal : YamlUnmarshal) (lookup : GetByKey) (service : Service) : Option Offer :=
  (registration? unmarshal lookup service).map RegisterCall.offer

def meshOf (unmarshal : YamlUnmarshal) (lookup : GetByKey) (services : List Service) : Mesh :=
  fun c => (named Service.key c services).bind (offerOf unmarshal lookup)

/-- The mesh that the contents of the two indexers declare. -/
def KubeWatcher.mesh (kw : KubeWatcher) (unmarshal : YamlUnmarshal) : Mesh :=
  fun c => (kw.svcIndexer.items.lookup c).bind (offerOf unmarshal (getByKey kw.epIndexer))

theorem meshOf_list (kw : KubeWatcher) (ord : RangeOrder String Service) :
    meshOf unmarshal (getByKey kw.epIndexer) (kw.svcIndexer.list ord) = kw.mesh unmarshal := by
  funext c
  rw [meshOf, KeyedStore.named_list]
  rfl

/-! ## The map of mesh services -/

def Offer.provider (o : Offer) (c : String) : MeshServiceProvider where
  cluster := o.clusterWeight c
  endpoints := {
    locality := {}
    loadBalancingWeight := o.weight
    lbEndpoints := o.endpoints.map fun e =>
      { address := { protocol := .tcp, address := e.1, portValue := e.2 } } }

structure Represents (mss : MeshServices) (V : Mesh) : Prop where
  wellFormed : mss.WellFormed
  provider_iff : ∀ m c p, mss.provider m c = some p ↔ ∃ o, V c = some o ∧ o.provides = m ∧ p = o.provider c

theorem provider_offer (call : RegisterCall) : call.provider = call.offer.provider call.svc.key := by
  unfold RegisterCall.provider newProvider RegisterCall.offer Offer.provider Offer.clusterWeight
    getEndpointsForIPs
  simp [Function.comp_def]

/-- With distinct keys, the calls that hit a pair of names are those of the one Service under the
cluster name, and only if it provides the mesh name. -/
theorem hits_registrations (hn : (services.map Service.key).Nodup) (m c : String) :
    (registrations unmarshal lookup services).filter (RegisterCall.hits m c) =
      ((named Service.key c services).bind (registration? unmarshal lookup)).toList.filter
        (RegisterCall.hits m c) := by
  unfold registrations
  induction services with
  | nil => rfl
  | cons svc services ih =>
    obtain ⟨hnot, hn'⟩ := List.nodup_cons.mp hn
    have ih := ih hn'
    by_cases hk : svc.key = c
    · -- no later Service has this key
      have hnone : named Service.key c services = none := by
        rw [named_eq_none]
        intro x hx he
        exact hnot (List.mem_map.mpr ⟨x, hx, he.trans hk.symm⟩)
      have hhead : named Service.key c (svc :: services) = some svc := by simp [named, hk]
      rw [hnone] at ih
      rw [hhead, Option.bind_some]
      cases hr : registration? unmarshal lookup svc with
      | none => rw [List.filterMap_cons_none hr, ih]; rfl
      | some call =>
        rw [List.filterMap_cons_some hr, List.filter_cons, ih, Option.bind_none, Option.toList_none,
          Option.toList_some, List.filter_singleton, List.filter_nil]
        cases call.hits m c <;> rfl
    · have hhead : named Service.key c (svc :: services) = named Service.key c services := by
        simp [named, hk]
      rw [hhead, ← ih]
      cases hr : registration? unmarshal lookup svc with
      | none => rw [List.filterMap_cons_none hr]
      | some call =>
        have hsvc := registration?_svc hr
        have hck : ¬ c = svc.key := fun h => hk h.symm
        have hmiss : call.hits m c = false := by simp [RegisterCall.hits, hsvc, hck]
        rw [List.filterMap_cons_some hr, List.filter_cons, hmiss]
        rfl

theorem represents_registrations (hn : (services.map Service.key).Nodup) :
    Represents (MeshServices.registerAll (registrations unmarshal lookup services))
      (meshOf unmarshal lookup services) where
  wellFormed := wellFormed_registerAll _
  provider_iff m c p := by
    rw [provider_registerAll, hits_registrations hn]
    unfold meshOf offerOf
    cases hs : named Service.key c services with
    | none => simp
    | some svc =>
      have hkey := (named_some_mem hs).2
      rw [Option.bind_some, Option.bind_some]
      cases hr : registration? unmarshal lookup svc with
      | none => simp
      | some call =>
        have hsvc := registration?_svc hr
        have hp := provider_offer call
        rw [hsvc, hkey] at hp
        have hhit : call.hits m c = true ↔ m = call.offer.provides := by
          simp [RegisterCall.hits, hsvc, hkey, RegisterCall.offer]
        rw [Option.toList_some, List.filter_singleton]
        by_cases hm : m = call.offer.provides
        · rw [hhit.mpr hm]
          simp [hm, hp, eq_comm]
        · have hm' : ¬ call.offer.provides = m := fun h => hm h.symm
          rw [Bool.eq_false_iff.mpr fun h => hm (hhit.mp h)]
          simp [hm']

/-! ## The loop over the mesh services -/

/-- What one mesh service appends to the list of type `t`. -/
def piece (ord : RangeOrders) (ms : MeshService) : (t : ResourceType) → List (ResourceOf t)
  | .listener => [getListener ms]
  | .route => [getRoute (ord.weightedClusters ms.name) ms]
  | .cluster => getClusters (ord.clusters ms.name) ms
  | .endpoint => getEndpoints (ord.endpoints ms.name) ms

theorem lookup_addMeshService (ord : RangeOrders) (r : Resources) (ms : MeshService) (t : ResourceType) :
    (addMeshService ord r ms).lookup t = some (r.get t ++ piece ord ms t) := by
  cases t <;> simp [addMeshService, appendResources, piece, Resources.get]

theorem foldl_addMeshService (ord : RangeOrders) (t : ResourceType) (l : List MeshService) (r : Resources) :
    ((l.foldl (addMeshService ord) r).get t = r.get t ++ l.flatMap fun ms => piece ord ms t) ∧
      (t ∈ l.foldl (addMeshService ord) r ↔ t ∈ r ∨ l ≠ []) := by
  induction l generalizing r with
  | nil => simp
  | cons ms l ih =>
    obtain ⟨hget, hmem⟩ := ih (addMeshService ord r ms)
    have hl := lookup_addMeshService ord r ms t
    have hin : t ∈ addMeshService ord r ms := by
      rw [← AList.lookup_isSome, hl]
      rfl
    rw [List.foldl_cons]
    refine ⟨?_, by simp [hmem, hin]⟩
    rw [hget, Resources.get, hl, Option.getD_some, List.append_assoc, List.flatMap_cons]

section Loop
variable {mss : MeshServices} {V : Mesh} (ord : RangeOrders)

def visited (ord : RangeOrders) (mss : MeshServices) : List MeshService :=
  (ord.meshServices.range mss).map Sigma.snd

theorem meshResources_get (t : ResourceType) :
    (meshResources ord mss).get t = (visited ord mss).flatMap fun ms => piece ord ms t := by
  have h := (foldl_addMeshService ord t (visited ord mss) ∅).1
  exact h.trans (List.nil_append _)

theorem mem_visited (h : mss.WellFormed) {ms : MeshService} :
    ms ∈ visited ord mss ↔ mss.lookup ms.name = some ms := by
  rw [visited, List.mem_map]
  refine ⟨?_, fun hl => ⟨⟨ms.name, ms⟩, (ord.meshServices.mem_range mss _).mpr hl, rfl⟩⟩
  intro ⟨e, he, hms⟩
  rw [ord.meshServices.mem_range] at he
  have hname := (h e.1 e.2 he).1
  rw [← hms, hname, he]

theorem visited_names (h : mss.WellFormed) : ((visited ord mss).map MeshService.name).Nodup := by
  have he : (visited ord mss).map MeshService.name = (ord.meshServices.range mss).map Sigma.fst := by
    rw [visited, List.map_map]
    refine List.map_congr_left fun e he => ?_
    rw [ord.meshServices.mem_range] at he
    exact (h e.1 e.2 he).1
  rw [he]
  exact ord.meshServices.keys_nodup mss

theorem providers_iff (h : Represents mss V) {ms : MeshService} (hms : ms ∈ visited ord mss) (c : String)
    (p : MeshServiceProvider) :
    ms.providers.lookup c = some p ↔ ∃ o, V c = some o ∧ o.provides = ms.name ∧ p = o.provider c := by
  rw [← h.provider_iff, MeshServices.provider, (mem_visited ord h.wellFormed).mp hms]
  rfl

theorem provided_iff (h : Represents mss V) {m : String} :
    V.Provided m ↔ ∃ ms ∈ visited ord mss, ms.name = m := by
  refine ⟨fun ⟨c, o, hc, hm⟩ => ?_, fun ⟨ms, hms, hn⟩ => ?_⟩
  · obtain ⟨ms, hl, _⟩ := Option.bind_eq_some_iff.mp ((h.provider_iff m c _).mpr ⟨o, hc, hm, rfl⟩)
    have hname := (h.wellFormed m ms hl).1
    exact ⟨ms, (mem_visited ord h.wellFormed).mpr (by rw [hname, hl]), hname⟩
  · obtain ⟨_, c, p, hp⟩ := h.wellFormed _ _ ((mem_visited ord h.wellFormed).mp hms)
    obtain ⟨o, hc, hm, _⟩ := (providers_iff ord h hms c p).mp hp
    exact ⟨c, o, hc, hm.trans hn⟩

/-- A cluster name occurs under one mesh service only, so names stay distinct when the providers
of all of them are listed one after the other. -/
theorem flatMap_names_nodup (h : Represents mss V) (names : MeshService → List String)
    (hperm : ∀ ms, (names ms).Perm ms.providers.keys) : ((visited ord mss).flatMap names).Nodup := by
  rw [List.nodup_flatMap]
  refine ⟨fun ms _ => (hperm ms).nodup_iff.mpr ms.providers.keys_nodup, ?_⟩
  have hoffer : ∀ ms ∈ visited ord mss, ∀ c ∈ names ms, ∃ o, V c = some o ∧ o.provides = ms.name := by
    intro ms hms c hc
    have hin : c ∈ ms.providers := (hperm ms).mem_iff.mp hc
    obtain ⟨p, hp⟩ := Option.isSome_iff_exists.mp (AList.lookup_isSome.mpr hin)
    obtain ⟨o, ho, hm, _⟩ := (providers_iff ord h hms c p).mp hp
    exact ⟨o, ho, hm⟩
  have hpw := List.pairwise_map.mp (List.nodup_iff_pairwise_ne.mp (visited_names ord h.wellFormed))
  refine hpw.imp_of_mem fun {ms ms'} hms hms' hne => ?_
  intro c hc hc'
  obtain ⟨o, ho, hm⟩ := hoffer ms hms c hc
  obtain ⟨o', ho', hm'⟩ := hoffer ms' hms' c hc'
  have he : o = o' := Option.some.inj (ho.symm.trans ho')
  exact hne (hm.symm.trans (he ▸ hm'))

theorem weights_getWeightedClusters (h : Represents mss V) {ms : MeshService} (hms : ms ∈ visited ord mss)
    (po : RangeOrder String MeshServiceProvider) : V.Weights ms.name (getWeightedClusters po ms).clusters := by
  have hmem : ∀ e ∈ po.range ms.providers, ∃ o, V e.1 = some o ∧ o.provides = ms.name ∧ e.2 = o.provider e.1 :=
    fun e he => (providers_iff ord h hms e.1 e.2).mp ((po.mem_range _ e).mp he)
  refine ⟨?_, fun w => ⟨fun hw => ?_, fun ⟨o, ho, hm, hwt⟩ => ?_⟩⟩
  · have he : (getWeightedClusters po ms).clusters.map ClusterWeight.name =
        (po.range ms.providers).map Sigma.fst := by
      rw [getWeightedClusters, List.map_map]
      refine List.map_congr_left fun e he => ?_
      obtain ⟨o, _, _, hp⟩ := hmem e he
      rw [Function.comp_apply, hp]
      rfl
    rw [he]
    exact po.keys_nodup ms.providers
  · obtain ⟨e, he, rfl⟩ := List.mem_map.mp hw
    obtain ⟨o, ho, hm, hp⟩ := hmem e he
    rw [hp]
    exact ⟨o, ho, hm, rfl⟩
  · have hp := (providers_iff ord h hms w.name (o.provider w.name)).mpr ⟨o, ho, hm, rfl⟩
    refine List.mem_map.mpr ⟨⟨w.name, o.provider w.name⟩, (po.mem_range _ _).mpr hp, ?_⟩
    cases w
    cases hwt
    rfl

theorem meshResources_realizes (h : Represents mss V) : Realizes (meshResources ord mss) V where
  keys t := by
    rw [meshResources, (foldl_addMeshService ord t _ ∅).2]
    change t ∈ (∅ : Resources) ∨ visited ord mss ≠ [] ↔ _
    have hno : t ∉ (∅ : Resources) := AList.notMem_empty t
    refine ⟨fun hv => ?_, fun ⟨c, o, hc⟩ => .inr ?_⟩
    · obtain ⟨ms, hms⟩ := List.exists_mem_of_ne_nil _ (hv.resolve_left hno)
      obtain ⟨c, o, hc, _⟩ := (provided_iff ord h).mpr ⟨ms, hms, rfl⟩
      exact ⟨c, o, hc⟩
    · obtain ⟨ms, hms, _⟩ := (provided_iff ord h).mp ⟨c, o, hc, rfl⟩
      exact List.ne_nil_of_mem hms
  listener_names := by
    rw [Resources.listeners, meshResources_get, List.map_flatMap]
    have he : (visited ord mss).flatMap (fun ms => (piece ord ms .listener).map Listener.name) =
        (visited ord mss).map MeshService.name := List.map_eq_flatMap.symm
    rw [he]
    exact visited_names ord h.wellFormed
  route_names := by
    rw [Resources.routes, meshResources_get, List.map_flatMap]
    have he : (visited ord mss).flatMap (fun ms => (piece ord ms .route).map RouteConfiguration.name) =
        (visited ord mss).map MeshService.name := List.map_eq_flatMap.symm
    rw [he]
    exact visited_names ord h.wellFormed
  cluster_names := by
    rw [Resources.clusters, meshResources_get, List.map_flatMap]
    refine flatMap_names_nodup ord h _ fun ms => ?_
    have he : (piece ord ms .cluster).map Cluster.name =
        ((ord.clusters ms.name).range ms.providers).map Sigma.fst := List.map_map
    rw [he]
    exact (ord.clusters ms.name).keys_perm ms.providers
  assignment_names := by
    rw [Resources.assignments, meshResources_get, List.map_flatMap]
    refine flatMap_names_nodup ord h _ fun ms => ?_
    have he : (piece ord ms .endpoint).map ClusterLoadAssignment.clusterName =
        ((ord.endpoints ms.name).range ms.providers).map Sigma.fst := List.map_map
    rw [he]
    exact (ord.endpoints ms.name).keys_perm ms.providers
  mem_listeners l := by
    rw [Resources.listeners, meshResources_get, List.mem_flatMap]
    refine ⟨fun ⟨ms, hms, hl⟩ => ⟨ms.name, (provided_iff ord h).mpr ⟨ms, hms, rfl⟩, ?_⟩, fun ⟨m, hm, hl⟩ => ?_⟩
    · exact List.mem_singleton.mp hl
    · obtain ⟨ms, hms, hn⟩ := (provided_iff ord h).mp hm
      refine ⟨ms, hms, List.mem_singleton.mpr ?_⟩
      rw [hl, ← hn]
      rfl
  route_of_provided m hm := by
    obtain ⟨ms, hms, hn⟩ := (provided_iff ord h).mp hm
    refine ⟨(getWeightedClusters (ord.weightedClusters ms.name) ms).clusters, ?_⟩
    rw [Resources.routes, meshResources_get, List.mem_flatMap]
    refine ⟨ms, hms, List.mem_singleton.mpr ?_⟩
    rw [← hn]
    rfl
  mem_routes rc hrc := by
    rw [Resources.routes, meshResources_get, List.mem_flatMap] at hrc
    obtain ⟨ms, hms, he⟩ := hrc
    exact ⟨ms.name, (getWeightedClusters (ord.weightedClusters ms.name) ms).clusters,
      (provided_iff ord h).mpr ⟨ms, hms, rfl⟩, List.mem_singleton.mp he,
      weights_getWeightedClusters ord h hms _⟩
  mem_clusters x := by
    rw [Resources.clusters, meshResources_get, List.mem_flatMap]
    refine ⟨fun ⟨ms, hms, hx⟩ => ?_, fun ⟨c, o, hc, hx⟩ => ?_⟩
    · obtain ⟨e, he, hx'⟩ := List.mem_map.mp hx
      rw [RangeOrder.mem_range, providers_iff ord h hms] at he
      obtain ⟨o, ho, _, _⟩ := he
      exact ⟨e.1, o, ho, hx'.symm⟩
    · obtain ⟨ms, hms, hn⟩ := (provided_iff ord h).mp ⟨c, o, hc, rfl⟩
      have hp := (providers_iff ord h hms c (o.provider c)).mpr ⟨o, hc, hn.symm, rfl⟩
      refine ⟨ms, hms, List.mem_map.mpr ⟨⟨c, o.provider c⟩, ?_, hx.symm⟩⟩
      exact (RangeOrder.mem_range _ _ _).mpr hp
  mem_assignments a := by
    rw [Resources.assignments, meshResources_get, List.mem_flatMap]
    refine ⟨fun ⟨ms, hms, ha⟩ => ?_, fun ⟨c, o, hc, ha⟩ => ?_⟩
    · obtain ⟨e, he, ha'⟩ := List.mem_map.mp ha
      rw [RangeOrder.mem_range, providers_iff ord h hms] at he
      obtain ⟨o, ho, _, hp⟩ := he
      refine ⟨e.1, o, ho, ?_⟩
      rw [← ha', hp]
      rfl
    · obtain ⟨ms, hms, hn⟩ := (provided_iff ord h).mp ⟨c, o, hc, rfl⟩
      have hp := (providers_iff ord h hms c (o.provider c)).mpr ⟨o, hc, hn.symm, rfl⟩
      refine ⟨ms, hms, List.mem_map.mpr ⟨⟨c, o.provider c⟩, ?_, ?_⟩⟩
      · exact (RangeOrder.mem_range _ _ _).mpr hp
      · rw [ha]
        rfl

end Loop

/-! ## `getResources` -/

theorem resourcesOf_realizes (hn : (services.map Service.key).Nodup) {ord : RangeOrders} {r : Resources}
    (h : resourcesOf unmarshal lookup ord services = .ok r) : Realizes r (meshOf unmarshal lookup services) := by
  obtain ⟨_, hr⟩ := resourcesOf_eq_ok.mp h
  rw [← hr]
  exact meshResources_realizes ord (represents_registrations hn)

namespace KubeWatcher
variable {kw : KubeWatcher}

theorem getResources_realizes {ord : RangeOrders} {r : Resources}
    (h : kw.getResources unmarshal ord = .ok r) : Realizes r (kw.mesh unmarshal) := by
  rw [← meshOf_list kw ord.services]
  exact resourcesOf_realizes (kw.svcIndexer.list_keys_nodup ord.services) h

end KubeWatcher
end HalfMesh
