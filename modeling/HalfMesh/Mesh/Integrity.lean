import HalfMesh.Mesh.Resolution

/-! Referential integrity: the four resource lists of a published map are tied together by names
only, and every name resolves. The statement speaks about the lists of one resource map; a map that
realizes a mesh has it, whatever the mesh is. -/
namespace HalfMesh
open HalfMesh.Foundations HalfMesh.Kube HalfMesh.Xds
set_option autoImplicit false
set_option maxHeartbeats 250000
set_option maxRecDepth 120000

structure ReferentialIntegrity (r : Resources) : Prop where
  listener_names : (r.listeners.map Listener.name).Nodup
  route_names : (r.routes.map RouteConfiguration.name).Nodup
  cluster_names : (r.clusters.map Cluster.name).Nodup
  assignment_names : (r.assignments.map ClusterLoadAssignment.clusterName).Nodup
  listeners_routes : ∀ n, n ∈ r.listeners.map Listener.name ↔ n ∈ r.routes.map RouteConfiguration.name
  rds_routes : ∀ n, n ∈ r.listeners.map Listener.rdsName ↔ n ∈ r.routes.map RouteConfiguration.name
  /-- A weighted-cluster name is the name of one Cluster and of one load assignment. -/
  entries_resolve : ∀ rc ∈ r.routes, ∀ w ∈ rc.clusterWeights,
    r.clusters.countP (fun x => x.name = w.name) = 1 ∧
    r.assignments.countP (fun a => a.clusterName = w.name) = 1
  /-- A Cluster is referenced by one entry of one route. -/
  clusters_referenced : ∀ x ∈ r.clusters,
    (r.routes.flatMap RouteConfiguration.clusterWeights).countP (fun w => w.name = x.name) = 1
  assignments_referenced : ∀ a ∈ r.assignments,
    (r.routes.flatMap RouteConfiguration.clusterWeights).countP (fun w => w.name = a.clusterName) = 1
  routes_nonempty : ∀ rc ∈ r.routes, rc.clusterWeights ≠ []
  all_or_none : (∀ t, ∃ xs, r.lookup t = some xs ∧ xs ≠ []) ∨ ∀ t, t ∉ r

/-- A name that occurs among distinct names occurs once. -/
theorem countP_name {α : Type} {name : α → String} {l : List α} (hl : (l.map name).Nodup) {n : String}
    (hn : n ∈ l.map name) : l.countP (fun x => name x = n) = 1 := by
  have h := List.count_eq_one_of_mem hl hn
  rw [List.count_eq_countP, List.countP_map] at h
  rw [← h]
  exact List.countP_congr fun x _ => by simp

namespace Realizes
variable {r : Resources} {V : Mesh}

theorem mem_listener_names (h : Realizes r V) {n : String} :
    n ∈ r.listeners.map Listener.name ↔ V.Provided n := by
  rw [← named_isSome]
  refine ⟨fun hs => ?_, fun hn => ?_⟩
  · obtain ⟨l, hl⟩ := Option.isSome_iff_exists.mp hs
    exact (h.listener?_eq_some.mp hl).1
  · exact Option.isSome_iff_exists.mpr ⟨_, h.listener?_eq_some.mpr ⟨hn, rfl⟩⟩

theorem mem_route_names (h : Realizes r V) {n : String} :
    n ∈ r.routes.map RouteConfiguration.name ↔ V.Provided n := by
  rw [← named_isSome]
  exact h.route?_isSome

theorem mem_cluster_names (h : Realizes r V) {c : String} :
    c ∈ r.clusters.map Cluster.name ↔ (V c).isSome := by
  rw [← named_isSome, ← Resources.cluster?, h.cluster?_eq, Option.isSome_map]

theorem mem_assignment_names (h : Realizes r V) {c : String} :
    c ∈ r.assignments.map ClusterLoadAssignment.clusterName ↔ (V c).isSome := by
  rw [← named_isSome, ← Resources.assignment?, h.assignment?_eq, Option.isSome_map]

theorem rdsNames_eq (h : Realizes r V) :
    r.listeners.map Listener.rdsName = r.listeners.map Listener.name := by
  refine List.map_congr_left fun l hl => ?_
  obtain ⟨m, _, rfl⟩ := (h.mem_listeners l).mp hl
  rfl

theorem mem_clusterWeights (h : Realizes r V) {rc : RouteConfiguration} (hrc : rc ∈ r.routes) {w : ClusterWeight} :
    w ∈ rc.clusterWeights ↔ ∃ o, V w.name = some o ∧ o.provides = rc.name ∧ w.weight = o.weight := by
  obtain ⟨m, ws, _, rfl, hw⟩ := h.mem_routes rc hrc
  rw [clusterWeights_meshRoute, hw.2 w]
  rfl

theorem weight_names_nodup (h : Realizes r V) {rc : RouteConfiguration} (hrc : rc ∈ r.routes) :
    (rc.clusterWeights.map ClusterWeight.name).Nodup := by
  obtain ⟨m, ws, _, rfl, hw⟩ := h.mem_routes rc hrc
  rw [clusterWeights_meshRoute]
  exact hw.1

/-- No cluster is shared: over all routes together every entry has a name of its own. -/
theorem entry_names_nodup (h : Realizes r V) :
    ((r.routes.flatMap RouteConfiguration.clusterWeights).map ClusterWeight.name).Nodup := by
  rw [List.map_flatMap, List.nodup_flatMap]
  refine ⟨fun rc hrc => h.weight_names_nodup hrc, ?_⟩
  · have hpw := List.pairwise_map.mp (List.nodup_iff_pairwise_ne.mp h.route_names)
    refine hpw.imp_of_mem fun {rc rc'} hrc hrc' hne => ?_
    intro c hc hc'
    obtain ⟨w, hw, rfl⟩ := List.mem_map.mp hc
    obtain ⟨w', hw', hn⟩ := List.mem_map.mp hc'
    obtain ⟨o, ho, hm, _⟩ := (h.mem_clusterWeights hrc).mp hw
    obtain ⟨o', ho', hm', _⟩ := (h.mem_clusterWeights hrc').mp hw'
    rw [hn, ho] at ho'
    have he : o = o' := Option.some.inj ho'
    exact hne (hm.symm.trans (he ▸ hm'))

theorem mem_entry_names (h : Realizes r V) {c : String} {o : Offer} (hc : V c = some o) :
    c ∈ (r.routes.flatMap RouteConfiguration.clusterWeights).map ClusterWeight.name := by
  obtain ⟨rc, hrc, hn⟩ := List.mem_map.mp (h.mem_route_names.mpr ⟨c, o, hc, rfl⟩)
  have hw : o.clusterWeight c ∈ rc.clusterWeights := (h.mem_clusterWeights hrc).mpr ⟨o, hc, hn.symm, rfl⟩
  exact List.mem_map.mpr ⟨_, List.mem_flatMap.mpr ⟨rc, hrc, hw⟩, rfl⟩

theorem get_ne_nil (h : Realizes r V) {c : String} {o : Offer} (hc : V c = some o) (t : ResourceType) :
    r.get t ≠ [] := by
  have hm : V.Provided o.provides := ⟨c, o, hc, rfl⟩
  cases t with
  | listener => exact List.ne_nil_of_mem ((h.mem_listeners _).mpr ⟨_, hm, rfl⟩)
  | route =>
    obtain ⟨ws, hws⟩ := h.route_of_provided _ hm
    exact List.ne_nil_of_mem hws
  | cluster => exact List.ne_nil_of_mem ((h.mem_clusters _).mpr ⟨c, o, hc, rfl⟩)
  | endpoint => exact List.ne_nil_of_mem ((h.mem_assignments _).mpr ⟨c, o, hc, rfl⟩)

theorem referentialIntegrity (h : Realizes r V) : ReferentialIntegrity r where
  listener_names := h.listener_names
  route_names := h.route_names
  cluster_names := h.cluster_names
  assignment_names := h.assignment_names
  listeners_routes n := by rw [h.mem_listener_names, h.mem_route_names]
  rds_routes n := by rw [h.rdsNames_eq, h.mem_listener_names, h.mem_route_names]
  entries_resolve rc hrc w hw := by
    obtain ⟨o, ho, _, _⟩ := (h.mem_clusterWeights hrc).mp hw
    have hs : (V w.name).isSome := Option.isSome_iff_exists.mpr ⟨o, ho⟩
    exact ⟨countP_name h.cluster_names (h.mem_cluster_names.mpr hs),
      countP_name h.assignment_names (h.mem_assignment_names.mpr hs)⟩
  clusters_referenced x hx := by
    obtain ⟨c, o, hc, rfl⟩ := (h.mem_clusters x).mp hx
    exact countP_name h.entry_names_nodup (h.mem_entry_names hc)
  assignments_referenced a ha := by
    obtain ⟨c, o, hc, rfl⟩ := (h.mem_assignments a).mp ha
    exact countP_name h.entry_names_nodup (h.mem_entry_names hc)
  routes_nonempty rc hrc := by
    obtain ⟨m, ws, ⟨c, o, hc, hm⟩, rfl, hw⟩ := h.mem_routes rc hrc
    rw [clusterWeights_meshRoute]
    exact List.ne_nil_of_mem (weights_mem hw hc hm)
  all_or_none := by
    by_cases hV : ∃ c o, V c = some o
    · refine .inl fun t => ?_
      obtain ⟨xs, hxs⟩ := Option.isSome_iff_exists.mp (AList.lookup_isSome.mpr ((h.keys t).mpr hV))
      obtain ⟨c, o, hc⟩ := hV
      have hne := h.get_ne_nil hc t
      rw [Resources.get, hxs, Option.getD_some] at hne
      exact ⟨xs, hxs, hne⟩
    · exact .inr fun t ht => hV ((h.keys t).mp ht)

end Realizes

theorem getResources_integrity (kw : KubeWatcher) (unmarshal : YamlUnmarshal) (ord : RangeOrders)
    (r : Resources) (h : kw.getResources unmarshal ord = .ok r) : ReferentialIntegrity r :=
  (KubeWatcher.getResources_realizes h).referentialIntegrity

def demoResources : Resources := meshResources default (MeshServices.registerAll
  (registrations demoUnmarshal (getByKey demoWatcher.epIndexer) (demoWatcher.svcIndexer.list default)))

theorem demoResources_eq : demoWatcher.getResources demoUnmarshal default = .ok demoResources :=
  getResources_of_resolved demoWatcher_resolved default

theorem getResources_integrity_demo : ReferentialIntegrity demoResources :=
  getResources_integrity demoWatcher demoUnmarshal default demoResources demoResources_eq

end HalfMesh
