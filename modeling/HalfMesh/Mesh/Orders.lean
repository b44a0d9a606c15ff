import HalfMesh.Mesh.Locality

/-! The order in which Go enumerates its maps does not show in the result. `svcIndexer.List`, the
range over the mesh services and the three ranges over their providers each take an order of their
own, and no two calls of `getResources` need take the same; but every one of them realizes the one
mesh that the indexers declare, or none returns. -/
namespace HalfMesh
open HalfMesh.Foundations HalfMesh.Kube HalfMesh.Xds
set_option autoImplicit false
set_option maxHeartbeats 250000
set_option maxRecDepth 120000

/-- The same resources under the same names, the weighted clusters of a route in any order. -/
structure SameByName (r r' : Resources) : Prop where
  listeners : ∀ n, r.listener? n = r'.listener? n
  routes : ∀ n, Option.Rel RouteConfiguration.Equiv (r.route? n) (r'.route? n)
  clusters : ∀ n, r.cluster? n = r'.cluster? n
  assignments : ∀ n, r.assignment? n = r'.assignment? n

theorem Realizes.sameByName {r r' : Resources} {V : Mesh} (h : Realizes r V) (h' : Realizes r' V) :
    SameByName r r' where
  listeners n := h'.listener?_congr h Iff.rfl
  routes n := h.route?_congr h' Iff.rfl fun k => sameWeights_of_eq rfl
  clusters n := by rw [h.cluster?_eq, h'.cluster?_eq]
  assignments n := by rw [h.assignment?_eq, h'.assignment?_eq]

section
variable {unmarshal : YamlUnmarshal} {lookup : GetByKey} {services : List Service} {kw : KubeWatcher}

/-- Wherever in the list it stands, one Service that asks for Endpoints that are not there ends the
loop in the panic of the type assertion. -/
theorem foldlM_of_unresolved {svc : Service} (hin : svc ∈ services) (hun : Unresolved unmarshal lookup svc)
    (mss : MeshServices) :
    Outcome.foldlM (registerService unmarshal lookup) mss services = .panic .interfaceConversion := by
  induction services generalizing mss with
  | nil => cases hin
  | cons s services ih =>
    rw [Outcome.foldlM]
    by_cases hs : Unresolved unmarshal lookup s
    · rw [registerService_of_unresolved hs]
      rfl
    · have hlater : svc ∈ services := by
        rcases List.mem_cons.mp hin with rfl | hlater
        · exact absurd hun hs
        · exact hlater
      rw [registerService_of_resolved hs, Outcome.bind_ok]
      exact ih hlater _

theorem getResources_panics (h : ¬ kw.Resolved unmarshal) (ord : RangeOrders) :
    kw.getResources unmarshal ord = .panic .interfaceConversion := by
  rw [resolved_iff ord.services] at h
  simp only [not_forall, not_not] at h
  obtain ⟨svc, hin, hun⟩ := h
  rw [KubeWatcher.getResources, resourcesOf, registerServices, foldlM_of_unresolved hin hun]
  rfl

end

/-- Two calls of `getResources` on the same indexers return the same resources by name, whatever
orders they enumerate in, or both end in the same panic. -/
theorem getResources_orders (kw : KubeWatcher) (unmarshal : YamlUnmarshal) (ord ord' : RangeOrders) :
    (∃ r r', kw.getResources unmarshal ord = .ok r ∧ kw.getResources unmarshal ord' = .ok r' ∧
      SameByName r r' ∧ r.Equiv r') ∨
    (kw.getResources unmarshal ord = .panic .interfaceConversion ∧
      kw.getResources unmarshal ord' = .panic .interfaceConversion) := by
  by_cases h : kw.Resolved unmarshal
  · obtain ⟨r, hr⟩ := (getResources_returns ord).mpr h
    obtain ⟨r', hr'⟩ := (getResources_returns ord').mpr h
    have hreal := KubeWatcher.getResources_realizes hr
    have hreal' := KubeWatcher.getResources_realizes hr'
    exact .inl ⟨r, r', hr, hr', hreal.sameByName hreal', hreal.equiv hreal'⟩
  · exact .inr ⟨getResources_panics h ord, getResources_panics h ord'⟩

end HalfMesh
