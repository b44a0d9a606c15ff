import HalfMesh.Mesh.Integrity
import Mathlib.Algebra.Ring.Nat

/-! Two things that xDS clients demand of what they are sent, beyond the references: the weights of
a route add up to a positive number of 32 bits, and a load assignment lists no endpoint twice. The
code checks neither. What it publishes adds up to what the annotations add up to, and repeats an
address as often as the Endpoints object has it ready, so both demands come down to conditions on
the indexers. -/
namespace HalfMesh
open HalfMesh.Foundations HalfMesh.Kube HalfMesh.Xds
set_option autoImplicit false
set_option maxHeartbeats 250000
set_option maxRecDepth 120000

/-! ## The weights of a route -/

/-- The sum of the weights as an exact number. -/
def totalWeight (ws : List ClusterWeight) : ℕ := (ws.map fun w => w.weight.toNat).sum

/-- The bounds of the xDS contract on the weighted clusters of a route. -/
def UsableWeights (rc : RouteConfiguration) : Prop :=
  1 ≤ totalWeight rc.clusterWeights ∧ totalWeight rc.clusterWeights ≤ 2 ^ 32 - 1

/-- What the annotation of a Service adds to the weights of the mesh service `m`. -/
def annotationWeight (unmarshal : YamlUnmarshal) (m : String) (service : Service) : ℕ :=
  match meshConfig? unmarshal service with
  | none => 0
  | some cfg => if cfg.provides = m then cfg.weight.toNat else 0

/-- The weights that all annotations together give to the mesh service `m`. -/
def KubeWatcher.annotatedWeight (kw : KubeWatcher) (unmarshal : YamlUnmarshal) (m : String) : ℕ :=
  ((kw.svcIndexer.list default).map (annotationWeight unmarshal m)).sum

theorem sum_map_filterMap {α β : Type} (f : α → Option β) (g : β → ℕ) (l : List α) :
    ((l.filterMap f).map g).sum = (l.map fun x => ((f x).map g).getD 0).sum := by
  induction l with
  | nil => rfl
  | cons x l ih =>
    cases hx : f x with
    | none => simp [hx, ih]
    | some y => simp [hx, ih]

section Weights
variable {unmarshal : YamlUnmarshal} {kw : KubeWatcher} {r : Resources} {m : String}

theorem totalWeight_perm {ws ws' : List ClusterWeight} (h : ws.Perm ws') : totalWeight ws = totalWeight ws' :=
  (h.map _).sum_nat

def Upstream.clusterWeight (u : Upstream) : ClusterWeight := { name := u.name, weight := u.weight }

/-- The weighted clusters of a route are those that the Services declare for its name. -/
theorem clusterWeights_perm (h : Realizes r (kw.mesh unmarshal)) {rc : RouteConfiguration} (hrc : rc ∈ r.routes)
    (ord : RangeOrder String Service) : rc.clusterWeights.Perm
      (((kw.svcIndexer.list ord).filterMap (declaredUpstream unmarshal kw rc.name)).map Upstream.clusterWeight) := by
  have hnd : rc.clusterWeights.Nodup := List.Nodup.of_map _ (h.weight_names_nodup hrc)
  have hnd' : (((kw.svcIndexer.list ord).filterMap (declaredUpstream unmarshal kw rc.name)).map
      Upstream.clusterWeight).Nodup := by
    refine List.Nodup.of_map ClusterWeight.name ?_
    rw [List.map_map]
    exact declaredUpstreams_names_nodup ord rc.name
  rw [List.perm_ext_iff_of_nodup hnd hnd']
  intro w
  rw [h.mem_clusterWeights hrc, List.mem_map]
  constructor
  · rintro ⟨o, ho, hm, hw⟩
    refine ⟨{ name := w.name, weight := o.weight, addresses := o.endpoints }, ?_, ?_⟩
    · exact mem_declaredUpstreams.mpr ⟨o, ho, hm, rfl, rfl⟩
    · rw [Upstream.clusterWeight, ← hw]
  · rintro ⟨u, hu, rfl⟩
    obtain ⟨o, ho, hm, hw, _⟩ := mem_declaredUpstreams.mp hu
    exact ⟨o, ho, hm, hw⟩

/-- A Service that has its Endpoints declares the weight of its annotation. -/
theorem declaredUpstream_weight {service : Service}
    (hep : (meshConfig? unmarshal service).isSome → (kw.epIndexer.items.lookup service.key).isSome) :
    ((declaredUpstream unmarshal kw m service).map fun u => u.weight.toNat).getD 0 =
      annotationWeight unmarshal m service := by
  unfold declaredUpstream annotationWeight
  cases hcfg : meshConfig? unmarshal service with
  | none => rfl
  | some cfg =>
    rw [hcfg] at hep
    obtain ⟨endpoints, he⟩ := Option.isSome_iff_exists.mp (hep rfl)
    by_cases hm : cfg.provides = m
    · simp [hm, he]
    · simp [hm]

theorem totalWeight_eq (h : Realizes r (kw.mesh unmarshal)) (hres : kw.Resolved unmarshal)
    {rc : RouteConfiguration} (hrc : rc ∈ r.routes) :
    totalWeight rc.clusterWeights = kw.annotatedWeight unmarshal rc.name := by
  rw [totalWeight_perm (clusterWeights_perm h hrc default), totalWeight, List.map_map]
  change (((kw.svcIndexer.list default).filterMap (declaredUpstream unmarshal kw rc.name)).map
    fun u => u.weight.toNat).sum = _
  rw [sum_map_filterMap, KubeWatcher.annotatedWeight]
  refine congrArg List.sum (List.map_congr_left fun service hs => ?_)
  exact declaredUpstream_weight (hres service.key service (KeyedStore.mem_list.mp hs))

/-- The annotations add up to something exactly when one of them has a weight. -/
theorem annotatedWeight_pos : 1 ≤ kw.annotatedWeight unmarshal m ↔
    ∃ key service cfg, kw.svcIndexer.items.lookup key = some service ∧
      meshConfig? unmarshal service = some cfg ∧ cfg.provides = m ∧ cfg.weight ≠ 0 := by
  rw [KubeWatcher.annotatedWeight, Nat.succ_le_iff, List.sum_pos_iff_exists_pos_nat]
  constructor
  · rintro ⟨n, hn, hpos⟩
    obtain ⟨service, hs, rfl⟩ := List.mem_map.mp hn
    unfold annotationWeight at hpos
    cases hcfg : meshConfig? unmarshal service with
    | none => simp [hcfg] at hpos
    | some cfg =>
      simp only [hcfg] at hpos
      by_cases hm : cfg.provides = m
      · rw [if_pos hm] at hpos
        refine ⟨service.key, service, cfg, KeyedStore.mem_list.mp hs, hcfg, hm, ?_⟩
        intro hzero
        rw [hzero] at hpos
        exact absurd hpos (by decide)
      · rw [if_neg hm] at hpos
        omega
  · rintro ⟨key, service, cfg, hs, hcfg, hm, hw⟩
    have hkey := kw.svcIndexer.keyed key service hs
    refine ⟨cfg.weight.toNat, List.mem_map.mpr ⟨service, KeyedStore.mem_list.mpr (by rw [hkey, hs]), ?_⟩, ?_⟩
    · simp [annotationWeight, hcfg, hm]
    · exact Nat.pos_of_ne_zero fun hzero => hw (UInt32.toNat_inj.mp hzero)

end Weights

/-- The weights of a published route add up to those of the annotations that provide its name. They
are usable exactly when one of these is not 0 and all of them together fit into 32 bits. -/
theorem usableWeights_iff (kw : KubeWatcher) (unmarshal : YamlUnmarshal) (ord : RangeOrders) (r : Resources)
    (h : kw.getResources unmarshal ord = .ok r) : ∀ rc ∈ r.routes,
      totalWeight rc.clusterWeights = kw.annotatedWeight unmarshal rc.name ∧
      (UsableWeights rc ↔
        (∃ key service cfg, kw.svcIndexer.items.lookup key = some service ∧
          meshConfig? unmarshal service = some cfg ∧ cfg.provides = rc.name ∧ cfg.weight ≠ 0) ∧
        kw.annotatedWeight unmarshal rc.name ≤ 2 ^ 32 - 1) := by
  intro rc hrc
  have hres : kw.Resolved unmarshal := (getResources_returns ord).mp ⟨r, h⟩
  have htotal := totalWeight_eq (KubeWatcher.getResources_realizes h) hres hrc
  refine ⟨htotal, ?_⟩
  rw [UsableWeights, htotal, annotatedWeight_pos]

theorem usableWeights_iff_demo : ∃ rc ∈ demoResources.routes, rc.name = "service" ∧
    totalWeight rc.clusterWeights = demoWatcher.annotatedWeight demoUnmarshal rc.name ∧
    (UsableWeights rc ↔
      (∃ key service cfg, demoWatcher.svcIndexer.items.lookup key = some service ∧
        meshConfig? demoUnmarshal service = some cfg ∧ cfg.provides = rc.name ∧ cfg.weight ≠ 0) ∧
      demoWatcher.annotatedWeight demoUnmarshal rc.name ≤ 2 ^ 32 - 1) := by
  have hnames : demoResources.routes.map RouteConfiguration.name = ["service"] := by decide
  obtain ⟨rc, rest, hrc, hname, _⟩ := List.map_eq_cons_iff.mp hnames
  have hin : rc ∈ demoResources.routes := by
    rw [hrc]
    exact List.mem_cons_self ..
  exact ⟨rc, hin, hname, usableWeights_iff demoWatcher demoUnmarshal default demoResources demoResources_eq rc hin⟩

/-- The demo after the deletion of `service-main`, which leaves the canary of weight 0. -/
def demoCanary : KubeWatcher where
  svcIndexer := demoWatcher.svcIndexer.apply (.delete "default/service-main")
  epIndexer := demoWatcher.epIndexer

/-- An annotation with the largest weight there is. -/
def heavyYaml : String := "provides: service\nport: 9000\nweight: 4294967295\n"

def heavyUnmarshal : YamlUnmarshal := fun text =>
  if text = heavyYaml then .ok { provides := "service", port := 9000, weight := 4294967295 }
  else .error "error converting YAML to JSON"

/-- The demo with this annotation at both Services. -/
def demoHeavy : KubeWatcher where
  svcIndexer := (KeyedStore.set ∅ { serviceMain with annotations := AList.singleton "mesh-service" heavyYaml }).set
    { serviceBeta with annotations := AList.singleton "mesh-service" heavyYaml }
  epIndexer := demoWatcher.epIndexer

theorem exists_route_of_totals {kw : KubeWatcher} {unmarshal : YamlUnmarshal} {n : ℕ} (h : kw.Resolved unmarshal)
    (hn : (meshResources default (MeshServices.registerAll (registrations unmarshal (getByKey kw.epIndexer)
      (kw.svcIndexer.list default)))).routes.map (fun rc => totalWeight rc.clusterWeights) = [n]) :
    ∃ r rc, kw.getResources unmarshal default = .ok r ∧ rc ∈ r.routes ∧ totalWeight rc.clusterWeights = n := by
  obtain ⟨rc, rest, hrc, hrcn, _⟩ := List.map_eq_cons_iff.mp hn
  have hin : rc ∈ rc :: rest := List.mem_cons_self ..
  rw [← hrc] at hin
  exact ⟨_, rc, getResources_of_resolved h default, hin, hrcn⟩

/-- The canary left alone adds up to 0, and two providers may add up to more than 32 bits. -/
theorem not_usableWeights_demo :
    (¬ ∀ (kw : KubeWatcher) (unmarshal : YamlUnmarshal) (ord : RangeOrders) (r : Resources),
      kw.getResources unmarshal ord = .ok r → ∀ rc ∈ r.routes, UsableWeights rc) ∧
    ∃ r rc, demoHeavy.getResources heavyUnmarshal default = .ok r ∧ rc ∈ r.routes ∧
      totalWeight rc.clusterWeights = 8589934590 := by
  constructor
  · obtain ⟨r, rc, hr, hrc, hzero⟩ : ∃ r rc, demoCanary.getResources demoUnmarshal default = .ok r ∧
        rc ∈ r.routes ∧ totalWeight rc.clusterWeights = 0 := exists_route_of_totals (by decide) (by decide)
    intro h
    have husable := h demoCanary demoUnmarshal default r hr rc hrc
    rw [UsableWeights, hzero] at husable
    omega
  · exact exists_route_of_totals (by decide) (by decide)

/-! ## The addresses of a load assignment -/

/-- How often `ip` is ready in the subsets of an Endpoints object. -/
def readyCount (endpoints : Endpoints) (ip : String) : ℕ :=
  (endpoints.subsets.map fun subset => subset.addresses.countP fun address => address.ip = ip).sum

/-- What a client demands of a load assignment for an Endpoints object: no address and port listed
twice, and every ready IP listed. -/
structure ListsOnce (a : ClusterLoadAssignment) (endpoints : Endpoints) : Prop where
  once : a.addresses.Nodup
  ready : ∀ subset ∈ endpoints.subsets, ∀ address ∈ subset.addresses, address.ip ∈ a.addresses.map Prod.fst

section Addresses

theorem count_readyAddresses (port : UInt32) (endpoints : Endpoints) (ip : String) :
    (readyAddresses port endpoints).count (ip, port) = readyCount endpoints ip := by
  unfold readyAddresses readyCount
  induction endpoints.subsets with
  | nil => rfl
  | cons subset subsets ih =>
    rw [List.flatMap_cons, List.count_append, ih, List.map_cons, List.sum_cons, List.count_eq_countP, List.countP_map]
    congr 1
    exact List.countP_congr fun address _ => by simp

theorem port_of_mem {port : UInt32} {endpoints : Endpoints} {e : String × UInt32}
    (h : e ∈ readyAddresses port endpoints) : e.2 = port := by
  obtain ⟨subset, _, he⟩ := List.mem_flatMap.mp h
  obtain ⟨address, _, rfl⟩ := List.mem_map.mp he
  rfl

theorem count_addresses {port port' : UInt32} {endpoints : Endpoints} {ip : String} :
    (readyAddresses port endpoints).count (ip, port') = if port' = port then readyCount endpoints ip else 0 := by
  by_cases hport : port' = port
  · rw [if_pos hport, hport, count_readyAddresses]
  · rw [if_neg hport]
    exact List.count_eq_zero_of_not_mem fun hin => hport (port_of_mem hin)

theorem mem_readyAddresses {port : UInt32} {endpoints : Endpoints} {subset : EndpointSubset}
    (hs : subset ∈ endpoints.subsets) {address : EndpointAddress} (ha : address ∈ subset.addresses) :
    (address.ip, port) ∈ readyAddresses port endpoints :=
  List.mem_flatMap.mpr ⟨subset, hs, List.mem_map.mpr ⟨address, ha, rfl⟩⟩

/-- All entries have the one port of the annotation, so two of them coincide when their IPs do. -/
theorem nodup_readyAddresses {port : UInt32} {endpoints : Endpoints} :
    (readyAddresses port endpoints).Nodup ↔ ∀ ip, readyCount endpoints ip ≤ 1 := by
  rw [List.nodup_iff_count_le_one]
  constructor
  · intro h ip
    rw [← count_readyAddresses port]
    exact h (ip, port)
  · rintro h ⟨ip, port'⟩
    rw [count_addresses]
    split
    · exact h ip
    · omega

end Addresses

/-- The load assignment of a Service lists each IP as often as it is ready, with the port of the
annotation. It lists none twice exactly when no IP is ready twice. -/
theorem listsOnce_iff (kw : KubeWatcher) (unmarshal : YamlUnmarshal) (ord : RangeOrders) (r : Resources)
    (h : kw.getResources unmarshal ord = .ok r) : ∀ key service cfg endpoints,
      kw.svcIndexer.items.lookup key = some service → meshConfig? unmarshal service = some cfg →
      kw.epIndexer.items.lookup key = some endpoints → ∃ a ∈ r.assignments, a.clusterName = key ∧
        (∀ a' ∈ r.assignments, a'.clusterName = key → a' = a) ∧
        (∀ ip port, a.addresses.count (ip, port) = if port = cfg.port then readyCount endpoints ip else 0) ∧
        (∀ subset ∈ endpoints.subsets, ∀ address ∈ subset.addresses, (address.ip, cfg.port) ∈ a.addresses) ∧
        (ListsOnce a endpoints ↔ ∀ ip, readyCount endpoints ip ≤ 1) := by
  intro key service cfg endpoints hs hcfg hep
  have hreal := KubeWatcher.getResources_realizes h
  have hmesh := mesh_eq_some.mpr ⟨service, cfg, endpoints, hs, hcfg, hep, rfl⟩
  have hassign := hreal.assignment?_eq key
  rw [hmesh, Option.map_some] at hassign
  obtain ⟨hin, hname⟩ := named_some_mem hassign
  refine ⟨_, hin, hname, fun a' ha' hn' => ?_, ?_⟩
  · exact List.inj_on_of_nodup_map hreal.assignment_names ha' hin (hn'.trans hname.symm)
  · rw [Offer.addresses_assignment]
    refine ⟨fun ip port => count_addresses, fun subset hsub address ha => mem_readyAddresses hsub ha, ?_⟩
    rw [← @nodup_readyAddresses cfg.port endpoints]
    constructor
    · intro honce
      have hnd := honce.once
      rwa [Offer.addresses_assignment] at hnd
    · intro hnd
      refine ⟨by rwa [Offer.addresses_assignment], fun subset hsub address ha => ?_⟩
      rw [Offer.addresses_assignment]
      exact List.mem_map.mpr ⟨_, mem_readyAddresses hsub ha, rfl⟩

def mainConfig : MeshServiceConfig where
  provides := "service"
  port := 9000
  weight := 1

theorem listsOnce_iff_demo : ∃ a ∈ demoResources.assignments, a.clusterName = "default/service-main" ∧
    (∀ a' ∈ demoResources.assignments, a'.clusterName = "default/service-main" → a' = a) ∧
    (∀ ip port, a.addresses.count (ip, port) = if port = mainConfig.port then readyCount mainEndpoints ip else 0) ∧
    (∀ subset ∈ mainEndpoints.subsets, ∀ address ∈ subset.addresses, (address.ip, mainConfig.port) ∈ a.addresses) ∧
    (ListsOnce a mainEndpoints ↔ ∀ ip, readyCount mainEndpoints ip ≤ 1) :=
  listsOnce_iff demoWatcher demoUnmarshal default demoResources demoResources_eq "default/service-main"
    serviceMain mainConfig mainEndpoints rfl rfl rfl

/-- One ready IP in two subsets, as when its ports differ. -/
def repeatedEndpoints : Endpoints where
  ns := "default"
  name := "service-main"
  subsets := [{ addresses := [{ ip := "10.0.0.1" }] }, { addresses := [{ ip := "10.0.0.1" }] }]

def demoRepeated : KubeWatcher where
  svcIndexer := demoWatcher.svcIndexer
  epIndexer := demoWatcher.epIndexer.set repeatedEndpoints

theorem not_listsOnce_demo : ¬ ∀ (kw : KubeWatcher) (unmarshal : YamlUnmarshal) (ord : RangeOrders) (r : Resources),
    kw.getResources unmarshal ord = .ok r → ∀ key service endpoints a,
      kw.svcIndexer.items.lookup key = some service → kw.epIndexer.items.lookup key = some endpoints →
      r.assignment? key = some a → ListsOnce a endpoints := by
  have hres : demoRepeated.Resolved demoUnmarshal := by decide
  have hr := getResources_of_resolved hres default
  have hlisted : (Resources.assignment? (meshResources default (MeshServices.registerAll (registrations demoUnmarshal
      (getByKey demoRepeated.epIndexer) (demoRepeated.svcIndexer.list default)))) "default/service-main").map
      ClusterLoadAssignment.addresses = some [("10.0.0.1", 9000), ("10.0.0.1", 9000)] := by decide
  obtain ⟨a, ha, haddr⟩ := Option.map_eq_some_iff.mp hlisted
  intro h
  have honce := (h demoRepeated demoUnmarshal default _ hr "default/service-main" serviceMain repeatedEndpoints a
    rfl rfl ha).once
  rw [haddr] at honce
  exact absurd honce (by decide)

end HalfMesh
