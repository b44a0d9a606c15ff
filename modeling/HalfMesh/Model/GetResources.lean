import HalfMesh.Foundations.Outcome
import HalfMesh.Model.MeshServices

/-! `getIPsForService` and `getResources` (`kube.go`). The YAML decoder is a parameter: any
function from annotation texts to configurations or errors. -/
namespace HalfMesh
open HalfMesh.Foundations HalfMesh.Kube HalfMesh.Xds
set_option autoImplicit false
set_option maxHeartbeats 250000
set_option maxRecDepth 120000

/-- `yaml.Unmarshal([]byte(text), &meshConfig)` on a zero `meshConfig`. -/
abbrev YamlUnmarshal := String → Except String MeshServiceConfig

/-- `endpointsObj.(*v1.Endpoints)`: the assertion panics on a nil interface. -/
def assertEndpoints : Option Endpoints → Outcome Endpoints
  | none => .panic .interfaceConversion
  | some endpoints => .ok endpoints

def endpointIPs (endpoints : Endpoints) : List String :=
  endpoints.subsets.flatMap fun subset => subset.addresses.map fun address => address.ip

def getIPsForService (lookup : GetByKey) (ns name : String) : Outcome (List String) :=
  let key := ns ++ "/" ++ name
  match lookup key with
  | .error err => .err err
  -- a missing key is only reported on standard output, the assertion runs all the same
  | .ok endpointsObj => (assertEndpoints endpointsObj).map endpointIPs

/-- One iteration of the service loop of `getResources`. -/
def registerService (unmarshal : YamlUnmarshal) (lookup : GetByKey) (meshServices : MeshServices)
    (service : Service) : Outcome MeshServices :=
  match service.annotations.lookup "mesh-service" with
  | none => .ok meshServices
  | some meshServiceYaml =>
    match unmarshal meshServiceYaml with
    | .error _ => .ok meshServices
    | .ok meshConfig =>
      match getIPsForService lookup service.ns service.name with
      | .err _ => .ok meshServices
      | .panic why => .panic why
      | .ok ips => .ok (meshServices.register service meshConfig ips)

def registerServices (unmarshal : YamlUnmarshal) (lookup : GetByKey) (services : List Service) :
    Outcome MeshServices := Outcome.foldlM (registerService unmarshal lookup) ∅ services

/-- One iteration order for each place that enumerates a map: `svcIndexer.List`, the range over
the mesh services, and the three ranges over the providers of each mesh service. -/
structure RangeOrders where
  services : RangeOrder String Service
  meshServices : RangeOrder String MeshService
  weightedClusters : String → RangeOrder String MeshServiceProvider
  clusters : String → RangeOrder String MeshServiceProvider
  endpoints : String → RangeOrder String MeshServiceProvider

instance : Inhabited RangeOrders := ⟨⟨default, default, fun _ => default, fun _ => default, fun _ => default⟩⟩

/-- `resources[t] = append(resources[t], xs...)`. -/
def appendResources (resources : Resources) (t : ResourceType) (xs : List (ResourceOf t)) : Resources :=
  resources.insert t (resources.get t ++ xs)

/-- One iteration of the loop over the mesh services. -/
def addMeshService (ord : RangeOrders) (resources : Resources) (meshService : MeshService) : Resources :=
  let resources := appendResources resources .listener [getListener meshService]
  let resources := appendResources resources .route
    [getRoute (ord.weightedClusters meshService.name) meshService]
  let resources := appendResources resources .cluster
    (getClusters (ord.clusters meshService.name) meshService)
  appendResources resources .endpoint (getEndpoints (ord.endpoints meshService.name) meshService)

def meshResources (ord : RangeOrders) (meshServices : MeshServices) : Resources :=
  ((ord.meshServices.range meshServices).map Sigma.snd).foldl (addMeshService ord) ∅

/-- `getResources` on the services that `List` returned and the answers of `GetByKey`. -/
def resourcesOf (unmarshal : YamlUnmarshal) (lookup : GetByKey) (ord : RangeOrders)
    (services : List Service) : Outcome Resources :=
  (registerServices unmarshal lookup services).map (meshResources ord)

structure KubeWatcher where
  svcIndexer : ServiceIndexer
  epIndexer : EndpointsIndexer

def KubeWatcher.getResources (kw : KubeWatcher) (unmarshal : YamlUnmarshal) (ord : RangeOrders) :
    Outcome Resources :=
  resourcesOf unmarshal (getByKey kw.epIndexer) ord (kw.svcIndexer.list ord.services)

/-! ## One iteration, by what it reads -/

/-- The configuration of a service whose annotation is present and decodes. -/
def meshConfig? (unmarshal : YamlUnmarshal) (service : Service) : Option MeshServiceConfig :=
  (service.annotations.lookup "mesh-service").bind fun text => (unmarshal text).toOption

/-- The call of `register` that one iteration makes: none for a skipped service. -/
def registration? (unmarshal : YamlUnmarshal) (lookup : GetByKey) (service : Service) :
    Option RegisterCall :=
  (meshConfig? unmarshal service).bind fun cfg =>
    match lookup service.key with
    | .ok (some endpoints) => some { svc := service, cfg := cfg, ips := endpointIPs endpoints }
    | _ => none

/-- The iteration panics: the service asks for Endpoints that are not there. -/
def Unresolved (unmarshal : YamlUnmarshal) (lookup : GetByKey) (service : Service) : Prop :=
  (meshConfig? unmarshal service).isSome ∧ lookup service.key = .ok none

section Iteration
variable {unmarshal : YamlUnmarshal} {lookup lookup' : GetByKey} {service : Service}

theorem registerService_of_none (h : meshConfig? unmarshal service = none) (mss : MeshServices) :
    registerService unmarshal lookup mss service = .ok mss := by
  unfold meshConfig? at h
  unfold registerService
  cases ha : service.annotations.lookup "mesh-service" with
  | none => rfl
  | some text =>
    rw [ha, Option.bind_some] at h
    cases hu : unmarshal text with
    | error e => simp [hu]
    | ok cfg => rw [hu] at h; cases h

theorem registerService_of_some {cfg : MeshServiceConfig} (h : meshConfig? unmarshal service = some cfg)
    (mss : MeshServices) :
    registerService unmarshal lookup mss service =
      match lookup service.key with
      | .error _ => .ok mss
      | .ok none => .panic .interfaceConversion
      | .ok (some endpoints) => .ok (mss.register service cfg (endpointIPs endpoints)) := by
  unfold meshConfig? at h
  unfold registerService
  cases ha : service.annotations.lookup "mesh-service" with
  | none => rw [ha] at h; cases h
  | some text =>
    rw [ha, Option.bind_some] at h
    cases hu : unmarshal text with
    | error e => rw [hu] at h; cases h
    | ok cfg' =>
      rw [hu] at h
      have hcfg : cfg' = cfg := Option.some.inj h
      subst hcfg
      simp only [hu, getIPsForService]
      change (match (match lookup service.key with
        | .error err => Outcome.err err
        | .ok obj => (assertEndpoints obj).map endpointIPs) with
        | .err _ => Outcome.ok mss
        | .panic why => .panic why
        | .ok ips => .ok (mss.register service cfg' ips)) = _
      rcases lookup service.key with e | _ | endpoints <;> rfl

/-- An iteration panics or makes the calls of `register` that it registers, at most one. -/
theorem registerService_eq (mss : MeshServices) :
    (Unresolved unmarshal lookup service ∧
      registerService unmarshal lookup mss service = .panic .interfaceConversion) ∨
    (¬ Unresolved unmarshal lookup service ∧
      registerService unmarshal lookup mss service =
        .ok ((registration? unmarshal lookup service).toList.foldl MeshServices.call mss)) := by
  unfold Unresolved registration?
  cases hc : meshConfig? unmarshal service with
  | none =>
    refine .inr ⟨by simp, ?_⟩
    rw [registerService_of_none hc, Option.bind_none]
    rfl
  | some cfg =>
    rw [registerService_of_some hc, Option.bind_some]
    rcases lookup service.key with e | _ | endpoints
    · exact .inr ⟨by simp, rfl⟩
    · exact .inl ⟨⟨rfl, rfl⟩, rfl⟩
    · exact .inr ⟨by simp, rfl⟩

theorem registerService_of_resolved (h : ¬ Unresolved unmarshal lookup service) (mss : MeshServices) :
    registerService unmarshal lookup mss service =
      .ok ((registration? unmarshal lookup service).toList.foldl MeshServices.call mss) :=
  (registerService_eq mss).elim (fun h' => absurd h'.1 h) And.right

theorem registerService_of_unresolved (h : Unresolved unmarshal lookup service) (mss : MeshServices) :
    registerService unmarshal lookup mss service = .panic .interfaceConversion :=
  (registerService_eq mss).elim And.right fun h' => absurd h h'.1

theorem registration?_svc {call : RegisterCall} (h : registration? unmarshal lookup service = some call) :
    call.svc = service := by
  obtain ⟨cfg, _, hcall⟩ := Option.bind_eq_some_iff.mp h
  split at hcall
  · cases hcall
    rfl
  · cases hcall

/-- The iteration looks at nothing but the answer for its own key. -/
theorem registerService_congr (h : lookup service.key = lookup' service.key) (mss : MeshServices) :
    registerService unmarshal lookup mss service = registerService unmarshal lookup' mss service := by
  cases hc : meshConfig? unmarshal service with
  | none => rw [registerService_of_none hc, registerService_of_none hc]
  | some cfg => rw [registerService_of_some hc, registerService_of_some hc, h]

end Iteration

/-! ## The whole loop -/

section Loop
variable {unmarshal : YamlUnmarshal} {lookup : GetByKey} {services : List Service}

def registrations (unmarshal : YamlUnmarshal) (lookup : GetByKey) (services : List Service) :
    List RegisterCall := services.filterMap (registration? unmarshal lookup)

theorem foldlM_registerService (h : ∀ svc ∈ services, ¬ Unresolved unmarshal lookup svc)
    (mss : MeshServices) :
    Outcome.foldlM (registerService unmarshal lookup) mss services =
      .ok ((registrations unmarshal lookup services).foldl MeshServices.call mss) := by
  induction services generalizing mss with
  | nil => rfl
  | cons svc services ih =>
    have hsvc := h svc (List.mem_cons_self ..)
    have hrest := fun s hs => h s (List.mem_cons_of_mem svc hs)
    rw [Outcome.foldlM, registerService_of_resolved hsvc, Outcome.bind_ok, ih hrest]
    unfold registrations
    cases hr : registration? unmarshal lookup svc with
    | none => rw [List.filterMap_cons_none hr]; rfl
    | some call => rw [List.filterMap_cons_some hr]; rfl

theorem registerServices_of_resolved (h : ∀ svc ∈ services, ¬ Unresolved unmarshal lookup svc) :
    registerServices unmarshal lookup services =
      .ok (MeshServices.registerAll (registrations unmarshal lookup services)) :=
  foldlM_registerService h ∅

/-- The loop returns exactly when no service asks for Endpoints that are not there. -/
theorem resolved_of_foldlM {mss mss' : MeshServices}
    (h : Outcome.foldlM (registerService unmarshal lookup) mss services = .ok mss') :
    ∀ svc ∈ services, ¬ Unresolved unmarshal lookup svc := by
  induction services generalizing mss with
  | nil =>
    intro svc hsvc
    cases hsvc
  | cons s services ih =>
    obtain ⟨mss₁, h₁, h₂⟩ := Outcome.bind_eq_ok.mp h
    intro svc hsvc hun
    rcases List.mem_cons.mp hsvc with rfl | hin
    · rw [registerService_of_unresolved hun] at h₁
      cases h₁
    · exact ih h₂ svc hin hun

theorem resourcesOf_eq_ok {ord : RangeOrders} {r : Resources} :
    resourcesOf unmarshal lookup ord services = .ok r ↔
      (∀ svc ∈ services, ¬ Unresolved unmarshal lookup svc) ∧
      meshResources ord (MeshServices.registerAll (registrations unmarshal lookup services)) = r := by
  rw [resourcesOf, Outcome.map_eq_ok]
  refine ⟨?_, fun ⟨hres, hr⟩ => ⟨_, registerServices_of_resolved hres, hr⟩⟩
  intro ⟨mss, hmss, hr⟩
  have hres := resolved_of_foldlM hmss
  rw [registerServices_of_resolved hres] at hmss
  cases hmss
  exact ⟨hres, hr⟩

end Loop
end HalfMesh
