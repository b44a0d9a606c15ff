import HalfMesh.Mesh.Integrity

/-! The published resources say as much as the mesh. Each Service's part can be read back from the
load assignment of its cluster and the route that names it (`Resources.decode`), so two contents
of the indexers publish the same resources exactly when they declare the same mesh: what does not
show in the mesh is no change to any client, and what does show is. -/
namespace HalfMesh
open HalfMesh.Foundations HalfMesh.Kube HalfMesh.Xds
set_option autoImplicit false
set_option maxHeartbeats 250000
set_option maxRecDepth 120000

/-- The part of the Service `c`: its name, weight and addresses as the clients get them. -/
def Xds.Resources.decode (r : Resources) : Mesh := fun c =>
  (r.assignment? c).bind fun a =>
    (r.routes.find? fun rc => c ∈ rc.clusterWeights.map ClusterWeight.name).bind fun rc =>
      (named ClusterWeight.name c rc.clusterWeights).map fun w =>
        { provides := rc.name, weight := w.weight, endpoints := a.addresses }

namespace Realizes
variable {r r' : Resources} {V V' : Mesh}

theorem assignment_inj {o o' : Offer} {c c' : String} (h : o.assignment c = o'.assignment c') :
    c = c' ∧ o.weight = o'.weight ∧ o.endpoints = o'.endpoints := by
  have hname := congrArg ClusterLoadAssignment.clusterName h
  have haddr := congrArg ClusterLoadAssignment.addresses h
  rw [Offer.addresses_assignment, Offer.addresses_assignment] at haddr
  have hweight := congrArg (fun a => a.endpoints.map LocalityLbEndpoints.loadBalancingWeight) h
  simp only [Offer.assignment, List.map_cons, List.map_nil, List.cons.injEq, and_true] at hweight
  exact ⟨hname, hweight, haddr⟩

/-- The mesh, read off two of the lists: the load assignment of the cluster, and a route that has it
among its weighted clusters. -/
theorem mesh_iff (h : Realizes r V) {c : String} {o : Offer} : V c = some o ↔
    o.assignment c ∈ r.assignments ∧ ∃ rc ∈ r.routes, rc.name = o.provides ∧ o.clusterWeight c ∈ rc.clusterWeights := by
  constructor
  · intro ho
    obtain ⟨ws, hws⟩ := h.route_of_provided o.provides ⟨c, o, ho, rfl⟩
    refine ⟨(h.mem_assignments _).mpr ⟨c, o, ho, rfl⟩, _, hws, rfl, ?_⟩
    obtain ⟨m, ws', _, he, hw⟩ := h.mem_routes _ hws
    have hm : o.provides = m := congrArg RouteConfiguration.name he
    rw [he, clusterWeights_meshRoute]
    exact weights_mem hw ho hm
  · rintro ⟨ha, rc, hrc, hname, hw⟩
    obtain ⟨c', o', ho', he⟩ := (h.mem_assignments _).mp ha
    obtain ⟨rfl, hweight, haddr⟩ := assignment_inj he
    obtain ⟨m, ws, _, rfl, hws⟩ := h.mem_routes rc hrc
    rw [clusterWeights_meshRoute] at hw
    obtain ⟨o'', ho'', hm, _⟩ := (hws.2 _).mp hw
    have hsame : o'' = o' := Option.some.inj (ho''.symm.trans ho')
    have hprov : o.provides = o'.provides := by
      rw [← hname, ← hsame, hm]
      rfl
    rcases o with ⟨p, w, es⟩
    rcases o' with ⟨p', w', es'⟩
    cases hprov
    cases hweight
    cases haddr
    exact ho'

/-- Any weighted cluster of a route is that of a part of the mesh. -/
theorem offer_of_mem (h : Realizes r V) {rc : RouteConfiguration} (hrc : rc ∈ r.routes) {w : ClusterWeight}
    (hw : w ∈ rc.clusterWeights) : ∃ o, V w.name = some o ∧ rc.name = o.provides ∧ w.weight = o.weight := by
  obtain ⟨m, ws, _, rfl, hws⟩ := h.mem_routes rc hrc
  rw [clusterWeights_meshRoute] at hw
  obtain ⟨o, ho, hm, hweight⟩ := (hws.2 w).mp hw
  exact ⟨o, ho, hm.symm, hweight⟩

theorem decode (h : Realizes r V) : r.decode = V := by
  funext c
  cases ho : V c with
  | none => rw [Resources.decode, h.assignment?_eq, ho, Option.map_none, Option.bind_none]
  | some o =>
    obtain ⟨_, rc₀, hrc₀, _, hw₀⟩ := h.mesh_iff.mp ho
    have hfound : (r.routes.find? fun rc => c ∈ rc.clusterWeights.map ClusterWeight.name).isSome := by
      rw [List.find?_isSome]
      exact ⟨rc₀, hrc₀, decide_eq_true (List.mem_map_of_mem hw₀)⟩
    obtain ⟨rc, hrc⟩ := Option.isSome_iff_exists.mp hfound
    have hlisted : c ∈ rc.clusterWeights.map ClusterWeight.name := by simpa using List.find?_some hrc
    obtain ⟨w, hw⟩ := Option.isSome_iff_exists.mp (named_isSome.mpr hlisted)
    obtain ⟨hin, rfl⟩ := named_some_mem hw
    obtain ⟨o', ho', hname, hweight⟩ := h.offer_of_mem (List.mem_of_find?_eq_some hrc) hin
    obtain rfl := Option.some.inj (ho.symm.trans ho')
    rw [Resources.decode, h.assignment?_eq, ho, Option.map_some, Option.bind_some, hrc, Option.bind_some, hw,
      Option.map_some, Offer.addresses_assignment, hname, hweight]

/-! ## Equal resources, equal meshes -/

theorem perm_flatMap {α β : Type} {R : α → α → Prop} {f : α → List β} (hf : ∀ a b, R a b → (f a).Perm (f b))
    {l l' : List α} (h : List.Forall₂ R l l') : (l.flatMap f).Perm (l'.flatMap f) := by
  induction h with
  | nil => exact .nil
  | cons hab _ ih =>
    rw [List.flatMap_cons, List.flatMap_cons]
    exact (hf _ _ hab).append ih

theorem clusterWeights_of_equiv {rc rc' : RouteConfiguration} (h : rc.Equiv rc') :
    rc.clusterWeights.Perm rc'.clusterWeights :=
  perm_flatMap (fun _ _ hvh => perm_flatMap (fun _ _ hroute => hroute.2) hvh.2.2) h.2.2

theorem forall₂_exists_right {α β : Type} {R : α → β → Prop} {l : List α} {l' : List β} (h : List.Forall₂ R l l')
    {a : α} (ha : a ∈ l) : ∃ b ∈ l', R a b := by
  induction h with
  | nil => cases ha
  | cons hab _ ih =>
    rcases List.mem_cons.mp ha with rfl | hin
    · exact ⟨_, List.mem_cons_self .., hab⟩
    · obtain ⟨b, hb, hR⟩ := ih hin
      exact ⟨b, List.mem_cons_of_mem _ hb, hR⟩

/-- Each route has one of the same name and with the same weighted clusters on the other side. -/
def RoutesInto (r r' : Resources) : Prop :=
  ∀ rc ∈ r.routes, ∃ rc' ∈ r'.routes, rc'.name = rc.name ∧ rc'.clusterWeights.Perm rc.clusterWeights

theorem routesInto_of_equiv (he : r.Equiv r') : RoutesInto r r' ∧ RoutesInto r' r := by
  obtain ⟨rcs, hperm, hequiv⟩ := he.routes
  refine ⟨fun rc hrc => ?_, fun rc' hrc' => ?_⟩
  · obtain ⟨rc', hrc', hrr⟩ := forall₂_exists_right hequiv (hperm.mem_iff.mp hrc)
    exact ⟨rc', hrc', hrr.1.symm, (clusterWeights_of_equiv hrr).symm⟩
  · obtain ⟨rc, hrc, hrr⟩ := forall₂_exists_right hequiv.flip hrc'
    exact ⟨rc, hperm.mem_iff.mpr hrc, hrr.1, clusterWeights_of_equiv hrr⟩

theorem mesh_of_into (h : Realizes r V) (h' : Realizes r' V') (ha : r.assignments.Perm r'.assignments)
    (hr : RoutesInto r r') {c : String} {o : Offer} (ho : V c = some o) : V' c = some o := by
  obtain ⟨hassign, rc, hrc, hname, hw⟩ := h.mesh_iff.mp ho
  obtain ⟨rc', hrc', hname', hperm⟩ := hr rc hrc
  exact h'.mesh_iff.mpr ⟨ha.mem_iff.mp hassign, rc', hrc', hname'.trans hname, hperm.mem_iff.mpr hw⟩

end Realizes

/-- What `getResources` publishes decodes to the mesh that the two indexers declare. -/
theorem decode_getResources (kw : KubeWatcher) (unmarshal : YamlUnmarshal) (ord : RangeOrders) (r : Resources)
    (h : kw.getResources unmarshal ord = .ok r) : r.decode = kw.mesh unmarshal :=
  (KubeWatcher.getResources_realizes h).decode

theorem decode_getResources_demo : demoResources.decode = demoWatcher.mesh demoUnmarshal :=
  decode_getResources demoWatcher demoUnmarshal default demoResources demoResources_eq

/-- Two contents of the indexers publish the same resources, up to the order of lists, exactly when
they declare the same mesh. -/
theorem getResources_equiv_iff (kw kw' : KubeWatcher) (unmarshal unmarshal' : YamlUnmarshal) (ord ord' : RangeOrders)
    (r r' : Resources) (h : kw.getResources unmarshal ord = .ok r) (h' : kw'.getResources unmarshal' ord' = .ok r') :
    r.Equiv r' ↔ kw.mesh unmarshal = kw'.mesh unmarshal' := by
  have hreal := KubeWatcher.getResources_realizes h
  have hreal' := KubeWatcher.getResources_realizes h'
  constructor
  · intro he
    obtain ⟨hinto, hinto'⟩ := Realizes.routesInto_of_equiv he
    funext c
    ext o
    exact ⟨hreal.mesh_of_into hreal' he.assignments hinto, hreal'.mesh_of_into hreal he.assignments.symm hinto'⟩
  · intro hmesh
    rw [← hmesh] at hreal'
    exact hreal.equiv hreal'

/-- The demo with the control plane's own Service, which has no annotation. -/
def demoPlain : KubeWatcher where
  svcIndexer := demoWatcher.svcIndexer.set { ns := "default", name := "control-plane", annotations := ∅ }
  epIndexer := demoWatcher.epIndexer

theorem demoPlain_resolved : demoPlain.Resolved demoUnmarshal := by decide

theorem getResources_equiv_iff_demo : ∃ r, demoPlain.getResources demoUnmarshal default = .ok r ∧
    (demoResources.Equiv r ↔ demoWatcher.mesh demoUnmarshal = demoPlain.mesh demoUnmarshal) :=
  ⟨_, getResources_of_resolved demoPlain_resolved default,
    getResources_equiv_iff demoWatcher demoPlain demoUnmarshal demoUnmarshal default default demoResources _
      demoResources_eq (getResources_of_resolved demoPlain_resolved default)⟩

end HalfMesh
