import HalfMesh.Model.MeshServices

/-! What the control plane is for, without its maps and loops: a mesh says for each cluster name
(`namespace/name` of a Service) which mesh service it provides, with what weight and on which
endpoints. `Realizes r V` holds when the resource map `r` publishes exactly the mesh `V`. Whatever
follows from it needs no look at the code any more: two maps that realize one mesh are the same
up to order, and a map is read by name through the mesh. -/
namespace HalfMesh
open HalfMesh.Foundations HalfMesh.Kube HalfMesh.Xds
set_option autoImplicit false
set_option maxHeartbeats 250000
set_option maxRecDepth 120000

/-- The part one Service takes in the mesh. -/
structure Offer where
  provides : String
  weight : UInt32
  endpoints : List (String × UInt32)
  deriving DecidableEq, Repr

abbrev Mesh := String → Option Offer

namespace Mesh

def Provided (V : Mesh) (m : String) : Prop := ∃ c o, V c = some o ∧ o.provides = m

end Mesh

def Offer.clusterWeight (o : Offer) (c : String) : ClusterWeight := { name := c, weight := o.weight }

def Offer.assignment (o : Offer) (c : String) : ClusterLoadAssignment where
  clusterName := c
  endpoints := [{
    locality := {}
    loadBalancingWeight := o.weight
    lbEndpoints := o.endpoints.map fun e =>
      { address := { protocol := .tcp, address := e.1, portValue := e.2 } } }]

theorem Offer.addresses_assignment (o : Offer) (c : String) : (o.assignment c).addresses = o.endpoints := by
  simp [Offer.assignment, ClusterLoadAssignment.addresses, Function.comp_def]

def meshListener (m : String) : Listener := getListener { name := m, providers := ∅ }

def meshRoute (m : String) (ws : List ClusterWeight) : RouteConfiguration where
  name := m
  validateClusters := some true
  virtualHosts := [{
    name := m
    domains := [m]
    routes := [{
      routeMatch := { pathPrefix := "/" }
      action := { weightedClusters := { clusters := ws } } }] }]

theorem clusterWeights_meshRoute (m : String) (ws : List ClusterWeight) :
    (meshRoute m ws).clusterWeights = ws := by
  simp [meshRoute, RouteConfiguration.clusterWeights]

/-- The weighted clusters of the mesh service `m`, each provider once. -/
def Mesh.Weights (V : Mesh) (m : String) (ws : List ClusterWeight) : Prop :=
  (ws.map ClusterWeight.name).Nodup ∧
    ∀ w, w ∈ ws ↔ ∃ o, V w.name = some o ∧ o.provides = m ∧ w.weight = o.weight

structure Realizes (r : Resources) (V : Mesh) : Prop where
  keys : ∀ t, t ∈ r ↔ ∃ c o, V c = some o
  listener_names : (r.listeners.map Listener.name).Nodup
  route_names : (r.routes.map RouteConfiguration.name).Nodup
  cluster_names : (r.clusters.map Cluster.name).Nodup
  assignment_names : (r.assignments.map ClusterLoadAssignment.clusterName).Nodup
  mem_listeners : ∀ l, l ∈ r.listeners ↔ ∃ m, V.Provided m ∧ l = meshListener m
  route_of_provided : ∀ m, V.Provided m → ∃ ws, meshRoute m ws ∈ r.routes
  mem_routes : ∀ rc ∈ r.routes, ∃ m ws, V.Provided m ∧ rc = meshRoute m ws ∧ V.Weights m ws
  mem_clusters : ∀ x, x ∈ r.clusters ↔ ∃ c o, V c = some o ∧ x = edsCluster c
  mem_assignments : ∀ a, a ∈ r.assignments ↔ ∃ c o, V c = some o ∧ a = o.assignment c

/-! ## Weighted clusters -/

section Weights
variable {V V' : Mesh} {m : String} {ws ws' : List ClusterWeight}

theorem weights_mem (h : V.Weights m ws) {c : String} {o : Offer} (hc : V c = some o)
    (hm : o.provides = m) : o.clusterWeight c ∈ ws := (h.2 _).mpr ⟨o, hc, hm, rfl⟩

theorem weights_nodup (h : V.Weights m ws) : ws.Nodup := List.Nodup.of_map _ h.1

/-- The weighted clusters are determined up to order by what each cluster provides. -/
theorem weights_perm (h : V.Weights m ws) (h' : V'.Weights m ws')
    (hV : ∀ c o, o.provides = m → (V c = some o ↔ V' c = some o)) : ws.Perm ws' := by
  rw [List.perm_ext_iff_of_nodup (weights_nodup h) (weights_nodup h')]
  intro w
  rw [h.2, h'.2]
  refine exists_congr fun o => ?_
  refine ⟨fun ⟨hc, hm, hw⟩ => ⟨(hV _ o hm).mp hc, hm, hw⟩, fun ⟨hc, hm, hw⟩ => ⟨(hV _ o hm).mpr hc, hm, hw⟩⟩

end Weights

theorem meshRoute_equiv {m : String} {ws ws' : List ClusterWeight} (h : ws.Perm ws') :
    (meshRoute m ws).Equiv (meshRoute m ws') :=
  ⟨rfl, rfl, .cons ⟨rfl, rfl, .cons ⟨rfl, h⟩ .nil⟩ .nil⟩

/-! ## A realized mesh, read by name -/

namespace Realizes
variable {r r' : Resources} {V V' : Mesh}

theorem listener?_eq_some (h : Realizes r V) {m : String} {l : Listener} :
    r.listener? m = some l ↔ V.Provided m ∧ l = meshListener m := by
  rw [Resources.listener?, named_eq_some h.listener_names, h.mem_listeners]
  refine ⟨?_, fun ⟨hm, hl⟩ => ⟨⟨m, hm, hl⟩, by rw [hl]; rfl⟩⟩
  intro ⟨⟨m', hm', hl⟩, hn⟩
  have he : m' = m := by rw [← hn, hl]; rfl
  subst he
  exact ⟨hm', hl⟩

theorem route?_eq_some (h : Realizes r V) {m : String} {rc : RouteConfiguration}
    (hrc : r.route? m = some rc) : ∃ ws, V.Provided m ∧ rc = meshRoute m ws ∧ V.Weights m ws := by
  obtain ⟨hin, hn⟩ := named_some_mem hrc
  obtain ⟨m', ws, hp, he, hw⟩ := h.mem_routes rc hin
  have hm : m' = m := by rw [← hn, he]; rfl
  subst hm
  exact ⟨ws, hp, he, hw⟩

theorem route?_of_provided (h : Realizes r V) {m : String} (hm : V.Provided m) :
    ∃ ws, r.route? m = some (meshRoute m ws) ∧ V.Weights m ws := by
  obtain ⟨ws, hws⟩ := h.route_of_provided m hm
  have hrc : r.route? m = some (meshRoute m ws) := (named_eq_some h.route_names).mpr ⟨hws, rfl⟩
  obtain ⟨ws', _, he, hw⟩ := h.route?_eq_some hrc
  have hcw := congrArg RouteConfiguration.clusterWeights he
  rw [clusterWeights_meshRoute, clusterWeights_meshRoute] at hcw
  exact ⟨ws, hrc, hcw ▸ hw⟩

theorem route?_isSome (h : Realizes r V) {m : String} : (r.route? m).isSome ↔ V.Provided m := by
  refine ⟨fun hs => ?_, fun hm => ?_⟩
  · obtain ⟨rc, hrc⟩ := Option.isSome_iff_exists.mp hs
    exact (h.route?_eq_some hrc).choose_spec.1
  · obtain ⟨ws, hrc, _⟩ := h.route?_of_provided hm
    rw [hrc]
    rfl

theorem cluster?_eq (h : Realizes r V) (c : String) :
    r.cluster? c = (V c).map fun _ => edsCluster c := by
  ext x
  rw [Resources.cluster?, named_eq_some h.cluster_names, h.mem_clusters, Option.map_eq_some_iff]
  refine ⟨?_, fun ⟨o, ho, hx⟩ => ⟨⟨c, o, ho, hx.symm⟩, by rw [← hx]; rfl⟩⟩
  intro ⟨⟨c', o, ho, hx⟩, hn⟩
  have hc : c' = c := by rw [← hn, hx]; rfl
  subst hc
  exact ⟨o, ho, hx.symm⟩

theorem assignment?_eq (h : Realizes r V) (c : String) :
    r.assignment? c = (V c).map fun o => o.assignment c := by
  ext a
  rw [Resources.assignment?, named_eq_some h.assignment_names, h.mem_assignments, Option.map_eq_some_iff]
  refine ⟨?_, fun ⟨o, ho, ha⟩ => ⟨⟨c, o, ho, ha.symm⟩, by rw [← ha]; rfl⟩⟩
  intro ⟨⟨c', o, ho, ha⟩, hn⟩
  have hc : c' = c := by rw [← hn, ha]; rfl
  subst hc
  exact ⟨o, ho, ha.symm⟩

theorem mem_weightsOf (h : Realizes r V) {m : String} {w : ClusterWeight} :
    w ∈ r.weightsOf m ↔ ∃ o, V w.name = some o ∧ o.provides = m ∧ w.weight = o.weight := by
  unfold Resources.weightsOf
  cases hrc : r.route? m with
  | none =>
    refine ⟨fun hw => ?_, fun ⟨o, ho, hm, _⟩ => ?_⟩
    · cases hw
    · have hs := h.route?_isSome.mpr ⟨w.name, o, ho, hm⟩
      rw [hrc] at hs
      cases hs
  | some rc =>
    obtain ⟨ws, _, he, hw⟩ := h.route?_eq_some hrc
    rw [he, Option.map_some, Option.getD_some, clusterWeights_meshRoute]
    exact hw.2 w

/-- The routes of two maps, where the second has an equivalent route for each of the first. -/
theorem routes_equiv (h : Realizes r V) (h' : Realizes r' V) :
    ∃ rcs, r.routes.Perm rcs ∧ List.Forall₂ RouteConfiguration.Equiv rcs r'.routes := by
  -- the routes of `r`, in the order in which `r'` lists its own
  let pick (rc' : RouteConfiguration) : RouteConfiguration := (r.route? rc'.name).getD rc'
  have hpick : ∀ rc' ∈ r'.routes, pick rc' ∈ r.routes ∧ (pick rc').Equiv rc' := by
    intro rc' hin
    obtain ⟨m, ws', hm, he, hw'⟩ := h'.mem_routes rc' hin
    obtain ⟨ws, hrc, hw⟩ := h.route?_of_provided hm
    have hp : pick rc' = meshRoute m ws := by
      change (r.route? rc'.name).getD rc' = _
      rw [he, show (meshRoute m ws').name = m from rfl, hrc]
      rfl
    rw [hp, he]
    exact ⟨(named_some_mem hrc).1, meshRoute_equiv (weights_perm hw hw' fun _ _ _ => Iff.rfl)⟩
  have hnames : (r'.routes.map pick).map RouteConfiguration.name = r'.routes.map RouteConfiguration.name := by
    rw [List.map_map]
    exact List.map_congr_left fun rc' hin => (hpick rc' hin).2.1
  refine ⟨r'.routes.map pick, ?_, ?_⟩
  · have hnd : (r'.routes.map pick).Nodup := by
      refine List.Nodup.of_map RouteConfiguration.name ?_
      rw [hnames]
      exact h'.route_names
    rw [List.perm_ext_iff_of_nodup (List.Nodup.of_map _ h.route_names) hnd]
    intro rc
    refine ⟨fun hin => ?_, fun hin => ?_⟩
    · obtain ⟨m, ws, hm, he, _⟩ := h.mem_routes rc hin
      obtain ⟨ws', hrc', _⟩ := h'.route?_of_provided hm
      have hin' := (named_some_mem hrc').1
      refine List.mem_map.mpr ⟨_, hin', ?_⟩
      have hn : (pick (meshRoute m ws')).name = rc.name := by
        rw [(hpick _ hin').2.1, he]
        rfl
      exact List.inj_on_of_nodup_map h.route_names (hpick _ hin').1 hin hn
    · obtain ⟨rc', hin', rfl⟩ := List.mem_map.mp hin
      exact (hpick rc' hin').1
  · rw [List.forall₂_map_left_iff]
    exact List.forall₂_same.mpr fun rc' hin => (hpick rc' hin).2

/-- A mesh determines the resources that realize it, up to the order of lists. -/
theorem equiv (h : Realizes r V) (h' : Realizes r' V) : r.Equiv r' where
  keys t := (h.keys t).trans (h'.keys t).symm
  listeners := by
    rw [List.perm_ext_iff_of_nodup (List.Nodup.of_map _ h.listener_names)
      (List.Nodup.of_map _ h'.listener_names)]
    intro l
    rw [h.mem_listeners, h'.mem_listeners]
  routes := routes_equiv h h'
  clusters := by
    rw [List.perm_ext_iff_of_nodup (List.Nodup.of_map _ h.cluster_names)
      (List.Nodup.of_map _ h'.cluster_names)]
    intro x
    rw [h.mem_clusters, h'.mem_clusters]
  assignments := by
    rw [List.perm_ext_iff_of_nodup (List.Nodup.of_map _ h.assignment_names)
      (List.Nodup.of_map _ h'.assignment_names)]
    intro a
    rw [h.mem_assignments, h'.mem_assignments]

end Realizes
end HalfMesh
