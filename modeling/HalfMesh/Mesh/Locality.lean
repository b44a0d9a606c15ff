import HalfMesh.Mesh.Integrity

/-! A change of one object stays local. Two meshes that agree everywhere but at one cluster name
are compared through the resource maps that realize them; for the code, one Service object (added,
deleted or replaced) or one Endpoints object (replaced) changes the mesh at its own name only. -/
namespace HalfMesh
open HalfMesh.Foundations HalfMesh.Kube HalfMesh.Xds
set_option autoImplicit false
set_option maxHeartbeats 250000
set_option maxRecDepth 120000

def Route.dropCluster (c : String) (route : Route) : Route :=
  { route with action := { weightedClusters := {
      clusters := route.action.weightedClusters.clusters.filter fun w => w.name ≠ c } } }

def VirtualHost.dropCluster (c : String) (vh : VirtualHost) : VirtualHost :=
  { vh with routes := vh.routes.map (Route.dropCluster c) }

/-- The route configuration without its weighted-cluster entries named `c`. -/
def RouteConfiguration.dropCluster (c : String) (rc : RouteConfiguration) : RouteConfiguration :=
  { rc with virtualHosts := rc.virtualHosts.map (VirtualHost.dropCluster c) }

theorem dropCluster_meshRoute (c m : String) (ws : List ClusterWeight) :
    RouteConfiguration.dropCluster c (meshRoute m ws) = meshRoute m (ws.filter fun w => w.name ≠ c) := rfl

/-- What may differ between the resources before (`r`) and after (`r'`) a change of the Service
under the key `c`, where `provides` and `provides'` say which mesh name the annotation of each key
provides before and after. -/
structure ServiceFrame (c : String) (provides provides' : String → Option String) (r r' : Resources) : Prop where
  listeners : ∀ m, provides c ≠ some m → provides' c ≠ some m → r'.listener? m = r.listener? m
  routes : ∀ m, provides c ≠ some m → provides' c ≠ some m →
    Option.Rel RouteConfiguration.Equiv (r.route? m) (r'.route? m)
  clusters : ∀ k, k ≠ c → r'.cluster? k = r.cluster? k
  assignments : ∀ k, k ≠ c → r'.assignment? k = r.assignment? k
  /-- Any route that is there before and after differs at most in the entry named `c`. -/
  shared_routes : ∀ m rc rc', r.route? m = some rc → r'.route? m = some rc' →
    (RouteConfiguration.dropCluster c rc).Equiv (RouteConfiguration.dropCluster c rc')
  shared_listeners : ∀ m l l', r.listener? m = some l → r'.listener? m = some l' → l' = l
  entries : ∀ m w, w.name ≠ c → (w ∈ r'.weightsOf m ↔ w ∈ r.weightsOf m)
  /-- A name disappears exactly when `c` was its only provider and provides it no longer. -/
  listener_disappears : ∀ m, ((r.listener? m).isSome ∧ r'.listener? m = none) ↔
    provides c = some m ∧ (∀ k, k ≠ c → provides k ≠ some m) ∧ provides' c ≠ some m
  route_disappears : ∀ m, ((r.route? m).isSome ∧ r'.route? m = none) ↔
    provides c = some m ∧ (∀ k, k ≠ c → provides k ≠ some m) ∧ provides' c ≠ some m
  no_entry_left : ∀ m w, provides' c ≠ some m → w ∈ r'.weightsOf m → w.name ≠ c

/-- What may differ after an Endpoints object under the key `c` is replaced. -/
structure EndpointsFrame (c : String) (r r' : Resources) : Prop where
  listeners : ∀ m, r'.listener? m = r.listener? m
  routes : ∀ m, Option.Rel RouteConfiguration.Equiv (r.route? m) (r'.route? m)
  clusters : ∀ k, r'.cluster? k = r.cluster? k
  assignments : ∀ k, k ≠ c → r'.assignment? k = r.assignment? k

/-! ## Two meshes that differ at one name -/

def Mesh.provides (V : Mesh) (k : String) : Option String := (V k).map Offer.provides

theorem provided_iff_provides {V : Mesh} {m : String} : V.Provided m ↔ ∃ k, V.provides k = some m := by
  refine exists_congr fun k => ?_
  rw [Mesh.provides, Option.map_eq_some_iff]

/-- The same part of the mesh service `m`, up to the endpoints. -/
def SameWeights (V V' : Mesh) (m k : String) : Prop :=
  ∀ w, (∃ o, V k = some o ∧ o.provides = m ∧ w = o.weight) ↔ ∃ o, V' k = some o ∧ o.provides = m ∧ w = o.weight

theorem sameWeights_of_eq {V V' : Mesh} {m k : String} (h : V k = V' k) : SameWeights V V' m k := by
  intro w
  rw [h]

theorem sameWeights_of_ne {V V' : Mesh} {m k : String} (h : V.provides k ≠ some m) (h' : V'.provides k ≠ some m) :
    SameWeights V V' m k := by
  refine fun w => ⟨fun ⟨o, ho, hm, _⟩ => ?_, fun ⟨o, ho, hm, _⟩ => ?_⟩
  · exact absurd (Option.map_eq_some_iff.mpr ⟨o, ho, hm⟩) h
  · exact absurd (Option.map_eq_some_iff.mpr ⟨o, ho, hm⟩) h'

namespace Realizes
variable {r r' : Resources} {V V' : Mesh} {m c : String}

theorem listener?_congr (h : Realizes r V) (h' : Realizes r' V') (hm : V'.Provided m ↔ V.Provided m) :
    r'.listener? m = r.listener? m := by
  ext l
  rw [h.listener?_eq_some, h'.listener?_eq_some, hm]

theorem listener?_eq_none (h : Realizes r V) : r.listener? m = none ↔ ¬ V.Provided m := by
  rw [← Option.not_isSome_iff_eq_none, Resources.listener?, named_isSome, h.mem_listener_names]

theorem listener?_isSome (h : Realizes r V) : (r.listener? m).isSome ↔ V.Provided m := by
  rw [Resources.listener?, named_isSome, h.mem_listener_names]

theorem route?_eq_none (h : Realizes r V) : r.route? m = none ↔ ¬ V.Provided m := by
  rw [← Option.not_isSome_iff_eq_none, h.route?_isSome]

theorem weights_iff {ws : List ClusterWeight} (h : V.Weights m ws) (w : ClusterWeight) :
    w ∈ ws ↔ ∃ o, V w.name = some o ∧ o.provides = m ∧ w.weight = o.weight := h.2 w

/-- Where both meshes give `m` the same weights, the routes of `m` agree up to order. -/
theorem route?_congr (h : Realizes r V) (h' : Realizes r' V') (hm : V'.Provided m ↔ V.Provided m)
    (hw : ∀ k, SameWeights V V' m k) : Option.Rel RouteConfiguration.Equiv (r.route? m) (r'.route? m) := by
  by_cases hp : V.Provided m
  · obtain ⟨ws, hrc, hws⟩ := h.route?_of_provided hp
    obtain ⟨ws', hrc', hws'⟩ := h'.route?_of_provided (hm.mpr hp)
    rw [hrc, hrc']
    refine .some (meshRoute_equiv ?_)
    rw [List.perm_ext_iff_of_nodup (weights_nodup hws) (weights_nodup hws')]
    intro w
    rw [weights_iff hws, weights_iff hws', hw w.name w.weight]
  · rw [h.route?_eq_none.mpr hp, h'.route?_eq_none.mpr (hm.not.mpr hp)]
    exact .none

theorem shared_route (h : Realizes r V) (h' : Realizes r' V') (hV : ∀ k, k ≠ c → V' k = V k)
    {rc rc' : RouteConfiguration} (hrc : r.route? m = some rc) (hrc' : r'.route? m = some rc') :
    (RouteConfiguration.dropCluster c rc).Equiv (RouteConfiguration.dropCluster c rc') := by
  obtain ⟨ws, _, rfl, hws⟩ := h.route?_eq_some hrc
  obtain ⟨ws', _, rfl, hws'⟩ := h'.route?_eq_some hrc'
  rw [dropCluster_meshRoute, dropCluster_meshRoute]
  refine meshRoute_equiv ?_
  rw [List.perm_ext_iff_of_nodup ((weights_nodup hws).filter _) ((weights_nodup hws').filter _)]
  intro w
  rw [List.mem_filter, List.mem_filter, weights_iff hws, weights_iff hws']
  refine and_congr_left fun hne => ?_
  have hk : w.name ≠ c := by simpa using hne
  rw [hV w.name hk]

theorem lost_iff (hV : ∀ k, k ≠ c → V' k = V k) :
    (V.Provided m ∧ ¬ V'.Provided m) ↔
      V.provides c = some m ∧ (∀ k, k ≠ c → V.provides k ≠ some m) ∧ V'.provides c ≠ some m := by
  have hsame (k : String) (hk : k ≠ c) : V'.provides k = V.provides k := by
    rw [Mesh.provides, Mesh.provides, hV k hk]
  rw [provided_iff_provides, provided_iff_provides]
  refine ⟨fun ⟨⟨k, hk⟩, hno⟩ => ?_, fun ⟨hc, honly, hc'⟩ => ⟨⟨c, hc⟩, fun ⟨k, hk⟩ => ?_⟩⟩
  · have honly : ∀ k, k ≠ c → V.provides k ≠ some m := fun k hne he => hno ⟨k, (hsame k hne).trans he⟩
    have hkc : k = c := by_contra fun hne => honly k hne hk
    exact ⟨hkc ▸ hk, honly, fun he => hno ⟨c, he⟩⟩
  · by_cases hkc : k = c
    · exact hc' (hkc ▸ hk)
    · exact honly k hkc ((hsame k hkc).symm.trans hk)

theorem provided_congr (hV : ∀ k, k ≠ c → V' k = V k) (hold : V.provides c ≠ some m)
    (hnew : V'.provides c ≠ some m) : V'.Provided m ↔ V.Provided m := by
  rw [provided_iff_provides, provided_iff_provides]
  refine exists_congr fun k => ?_
  by_cases hk : k = c
  · subst hk
    exact iff_of_false hnew hold
  · rw [Mesh.provides, Mesh.provides, hV k hk]

theorem serviceFrame (h : Realizes r V) (h' : Realizes r' V') (hV : ∀ k, k ≠ c → V' k = V k) :
    ServiceFrame c V.provides V'.provides r r' where
  listeners m hold hnew := h.listener?_congr h' (provided_congr hV hold hnew)
  routes m hold hnew := by
    refine h.route?_congr h' (provided_congr hV hold hnew) fun k => ?_
    by_cases hk : k = c
    · subst hk
      exact sameWeights_of_ne hold hnew
    · exact sameWeights_of_eq (hV k hk).symm
  clusters k hk := by rw [h.cluster?_eq, h'.cluster?_eq, hV k hk]
  assignments k hk := by rw [h.assignment?_eq, h'.assignment?_eq, hV k hk]
  shared_routes m rc rc' hrc hrc' := h.shared_route h' hV hrc hrc'
  shared_listeners m l l' hl hl' := by
    rw [(h.listener?_eq_some.mp hl).2, (h'.listener?_eq_some.mp hl').2]
  entries m w hw := by rw [h.mem_weightsOf, h'.mem_weightsOf, hV w.name hw]
  listener_disappears m := by rw [h.listener?_isSome, h'.listener?_eq_none, lost_iff hV]
  route_disappears m := by rw [h.route?_isSome, h'.route?_eq_none, lost_iff hV]
  no_entry_left m w hnew hw hc := by
    obtain ⟨o, ho, hm, _⟩ := h'.mem_weightsOf.mp hw
    rw [hc] at ho
    exact hnew (Option.map_eq_some_iff.mpr ⟨o, ho, hm⟩)

theorem endpointsFrame (h : Realizes r V) (h' : Realizes r' V') (hV : ∀ k, k ≠ c → V' k = V k)
    (hc : (V c).map (fun o => (o.provides, o.weight)) = (V' c).map fun o => (o.provides, o.weight)) :
    EndpointsFrame c r r' := by
  -- everything but the endpoints is the same at every name
  have hall (k : String) :
      (V k).map (fun o => (o.provides, o.weight)) = (V' k).map fun o => (o.provides, o.weight) := by
    by_cases hk : k = c
    · rw [hk, hc]
    · rw [hV k hk]
  have hprov (k : String) : V'.provides k = V.provides k := by
    have hk := congrArg (Option.map Prod.fst) (hall k)
    rw [Option.map_map, Option.map_map] at hk
    exact hk.symm
  have hm (m : String) : V'.Provided m ↔ V.Provided m := by
    rw [provided_iff_provides, provided_iff_provides]
    exact exists_congr fun k => by rw [hprov k]
  have hsw (m k : String) : SameWeights V V' m k := by
    have hk := hall k
    intro w
    cases hVk : V k <;> cases hVk' : V' k <;> simp_all
  refine ⟨fun m => h.listener?_congr h' (hm m), fun m => h.route?_congr h' (hm m) (hsw m), fun k => ?_, fun k hk => ?_⟩
  · have hk : (V' k).isSome = (V k).isSome := by
      have hk := congrArg Option.isSome (hprov k)
      rwa [Mesh.provides, Mesh.provides, Option.isSome_map, Option.isSome_map] at hk
    rw [h.cluster?_eq, h'.cluster?_eq]
    cases hVk : V k <;> cases hVk' : V' k <;> simp_all
  · rw [h.assignment?_eq, h'.assignment?_eq, hV k hk]

end Realizes

/-! ## The two indexers -/

section Indexers
variable {unmarshal : YamlUnmarshal} {kw kw' : KubeWatcher} {c : String}

def KubeWatcher.provides (kw : KubeWatcher) (unmarshal : YamlUnmarshal) (key : String) : Option String :=
  ((kw.svcIndexer.items.lookup key).bind (meshConfig? unmarshal)).map MeshServiceConfig.provides

theorem provides_mesh (h : kw.Resolved unmarshal) (key : String) :
    (kw.mesh unmarshal).provides key = kw.provides unmarshal key := by
  ext m
  rw [Mesh.provides, Option.map_eq_some_iff, KubeWatcher.provides, Option.map_eq_some_iff]
  refine ⟨fun ⟨o, ho, hm⟩ => ?_, fun ⟨cfg, hcfg, hm⟩ => ?_⟩
  · obtain ⟨service, cfg, _, hs, hcfg, _, rfl⟩ := mesh_eq_some.mp ho
    exact ⟨cfg, Option.bind_eq_some_iff.mpr ⟨service, hs, hcfg⟩, hm⟩
  · obtain ⟨service, hs, hcfg⟩ := Option.bind_eq_some_iff.mp hcfg
    obtain ⟨endpoints, hep⟩ := Option.isSome_iff_exists.mp (h key service hs (by rw [hcfg]; rfl))
    rw [kw.svcIndexer.keyed key service hs] at hep
    exact ⟨_, mesh_eq_some.mpr ⟨service, cfg, endpoints, hs, hcfg, hep, rfl⟩, hm⟩

theorem mesh_congr {k : String} (hs : kw'.svcIndexer.items.lookup k = kw.svcIndexer.items.lookup k)
    (he : kw'.epIndexer.items.lookup k = kw.epIndexer.items.lookup k) :
    kw'.mesh unmarshal k = kw.mesh unmarshal k := by
  ext o
  rw [mesh_eq_some, mesh_eq_some, hs, he]

/-- Replacing an Endpoints object keeps what its Service provides and with what weight. -/
theorem mesh_weight_congr {k : String} (hs : kw'.svcIndexer.items.lookup k = kw.svcIndexer.items.lookup k)
    (he : (kw'.epIndexer.items.lookup k).isSome = (kw.epIndexer.items.lookup k).isSome) :
    (kw.mesh unmarshal k).map (fun o => (o.provides, o.weight)) =
      (kw'.mesh unmarshal k).map fun o => (o.provides, o.weight) := by
  ext p
  rw [Option.map_eq_some_iff, Option.map_eq_some_iff]
  refine ⟨fun ⟨o, ho, hp⟩ => ?_, fun ⟨o, ho, hp⟩ => ?_⟩
  · obtain ⟨service, cfg, endpoints, hs', hcfg, hep, rfl⟩ := mesh_eq_some.mp ho
    obtain ⟨endpoints', hep'⟩ := Option.isSome_iff_exists.mp (he.trans (by rw [hep]; rfl))
    exact ⟨_, mesh_eq_some.mpr ⟨service, cfg, endpoints', hs.trans hs', hcfg, hep', rfl⟩, hp⟩
  · obtain ⟨service, cfg, endpoints, hs', hcfg, hep, rfl⟩ := mesh_eq_some.mp ho
    obtain ⟨endpoints', hep'⟩ := Option.isSome_iff_exists.mp (he.symm.trans (by rw [hep]; rfl))
    exact ⟨_, mesh_eq_some.mpr ⟨service, cfg, endpoints', hs.symm.trans hs', hcfg, hep', rfl⟩, hp⟩

/-- Adding, deleting or replacing one Service changes the resources inside its `ServiceFrame`,
replacing one Endpoints object inside its `EndpointsFrame`. -/
theorem getResources_local (kw kw' : KubeWatcher) (unmarshal : YamlUnmarshal) (ord ord' : RangeOrders)
    (h : kw.Resolved unmarshal) (h' : kw'.Resolved unmarshal) :
    ∃ r r', kw.getResources unmarshal ord = .ok r ∧ kw'.getResources unmarshal ord' = .ok r' ∧
      (∀ change : Change Service String, kw'.svcIndexer = kw.svcIndexer.apply change →
        kw'.epIndexer = kw.epIndexer →
        ServiceFrame (change.key Service.key) (kw.provides unmarshal) (kw'.provides unmarshal) r r') ∧
      (∀ endpoints : Endpoints, (kw.epIndexer.items.lookup endpoints.key).isSome →
        kw'.epIndexer = kw.epIndexer.set endpoints → kw'.svcIndexer = kw.svcIndexer →
        EndpointsFrame endpoints.key r r') := by
  obtain ⟨r, hr⟩ := (getResources_returns ord).mpr h
  obtain ⟨r', hr'⟩ := (getResources_returns ord').mpr h'
  have hreal := KubeWatcher.getResources_realizes hr
  have hreal' := KubeWatcher.getResources_realizes hr'
  refine ⟨r, r', hr, hr', fun change hsvc hep => ?_, fun endpoints hold hep hsvc => ?_⟩
  · have hprov : (kw.mesh unmarshal).provides = kw.provides unmarshal := funext (provides_mesh h)
    have hprov' : (kw'.mesh unmarshal).provides = kw'.provides unmarshal := funext (provides_mesh h')
    rw [← hprov, ← hprov']
    refine hreal.serviceFrame hreal' fun k hk => mesh_congr ?_ (by rw [hep])
    rw [hsvc, KeyedStore.lookup_apply, if_neg hk]
  · have hlook (k : String) : kw'.epIndexer.items.lookup k =
        if k = endpoints.key then some endpoints else kw.epIndexer.items.lookup k := by
      rw [hep]
      exact lookup_insert_if _ _ _ _
    refine hreal.endpointsFrame hreal' (fun k hk => mesh_congr (by rw [hsvc]) ?_) (mesh_weight_congr (by rw [hsvc]) ?_)
    · rw [hlook, if_neg hk]
    · rw [hlook, if_pos rfl, hold]
      rfl

def demoWithoutBeta : KubeWatcher where
  svcIndexer := demoWatcher.svcIndexer.apply (.delete "default/service-beta")
  epIndexer := demoWatcher.epIndexer

/-- The demo after `service-main` was scaled to one replica. -/
def demoScaled : KubeWatcher where
  svcIndexer := demoWatcher.svcIndexer
  epIndexer := demoWatcher.epIndexer.set { mainEndpoints with subsets := [{ addresses := [{ ip := "10.0.0.1" }] }] }

theorem getResources_local_demo :
    (∃ r r', demoWatcher.getResources demoUnmarshal default = .ok r ∧
      demoWithoutBeta.getResources demoUnmarshal default = .ok r' ∧
      ServiceFrame "default/service-beta" (demoWatcher.provides demoUnmarshal)
        (demoWithoutBeta.provides demoUnmarshal) r r') ∧
    ∃ r r', demoWatcher.getResources demoUnmarshal default = .ok r ∧
      demoScaled.getResources demoUnmarshal default = .ok r' ∧ EndpointsFrame "default/service-main" r r' := by
  obtain ⟨r, r', hr, hr', hservice, _⟩ := getResources_local demoWatcher demoWithoutBeta demoUnmarshal
    default default (by decide) (by decide)
  obtain ⟨r₁, r₂, hr₁, hr₂, _, hendpoints⟩ := getResources_local demoWatcher demoScaled demoUnmarshal
    default default (by decide) (by decide)
  exact ⟨⟨r, r', hr, hr', hservice (.delete "default/service-beta") rfl rfl⟩,
    r₁, r₂, hr₁, hr₂, hendpoints { mainEndpoints with subsets := [{ addresses := [{ ip := "10.0.0.1" }] }] }
      (by decide) rfl rfl⟩

end Indexers
end HalfMesh
