import HalfMesh.Model.Kube
import HalfMesh.Model.Xds

/-! `MeshServices` and the generators of the four resource kinds (`kube.go`). A mesh service
is reached through one pointer only, the one its name maps to, so an assignment through that
pointer is a `mutate` of the map. -/
namespace HalfMesh
open HalfMesh.Foundations HalfMesh.Kube HalfMesh.Xds
set_option autoImplicit false
set_option maxHeartbeats 250000
set_option maxRecDepth 120000

structure MeshServiceConfig where
  provides : String
  port : UInt32
  weight : UInt32
  deriving DecidableEq, Repr

structure MeshServiceProvider where
  cluster : ClusterWeight
  endpoints : LocalityLbEndpoints
  deriving DecidableEq, Repr

structure MeshService where
  name : String
  providers : GoMap String MeshServiceProvider

/-- The key is the mesh service name. -/
abbrev MeshServices := GoMap String MeshService

def getEndpointsForIPs (cfg : MeshServiceConfig) (ips : List String) : LocalityLbEndpoints where
  locality := {}
  loadBalancingWeight := cfg.weight
  lbEndpoints := ips.map fun ip =>
    { address := { protocol := .tcp, address := ip, portValue := cfg.port } }

def MeshServices.register (mss : MeshServices) (svc : Service) (cfg : MeshServiceConfig)
    (ips : List String) : MeshServices :=
  let mss := if (mss.lookup cfg.provides).isSome then mss
    else mss.insert cfg.provides { name := cfg.provides, providers := ∅ }
  let clusterName := svc.ns ++ "/" ++ svc.name
  let provider : MeshServiceProvider := {
    cluster := { name := clusterName, weight := cfg.weight }
    endpoints := getEndpointsForIPs cfg ips }
  mutate mss cfg.provides fun ms => { ms with providers := ms.providers.insert clusterName provider }

/-! ## The four generators -/

/-- `mustAnypb`: `anypb.New` fails on invalid UTF-8 only, and a `String` is valid UTF-8. -/
def mustAnypb {α : Type} (m : α) : Any α := ⟨m⟩

/-- `wellknown.Router`. -/
def wellknownRouter : String := "envoy.filters.http.router"

def getListener (meshService : MeshService) : Listener where
  name := meshService.name
  apiListener := { apiListener := mustAnypb {
    codecType := .auto
    rds := {
      routeConfigName := meshService.name
      configSource := { resourceApiVersion := .v3, configSourceSpecifier := .ads (some {}) } }
    httpFilters := [{ name := wellknownRouter, typedConfig := mustAnypb {} }] } }

def getWeightedClusters (ord : RangeOrder String MeshServiceProvider) (ms : MeshService) :
    WeightedCluster where
  clusters := (ord.range ms.providers).map fun provider => provider.2.cluster

def getRoute (ord : RangeOrder String MeshServiceProvider) (meshService : MeshService) :
    RouteConfiguration where
  name := meshService.name
  validateClusters := some true
  virtualHosts := [{
    name := meshService.name
    domains := [meshService.name]
    routes := [{
      routeMatch := { pathPrefix := "/" }
      action := { weightedClusters := getWeightedClusters ord meshService } }] }]

/-- The cluster that the loop of `getClusters` appends for one key. -/
def edsCluster (clusterName : String) : Cluster where
  name := clusterName
  lbPolicy := .roundRobin
  clusterDiscoveryType := .eds
  edsClusterConfig := { edsConfig := { resourceApiVersion := .auto, configSourceSpecifier := .ads none } }

def getClusters (ord : RangeOrder String MeshServiceProvider) (meshService : MeshService) :
    List Cluster := (ord.range meshService.providers).map fun provider => edsCluster provider.1

def getEndpoints (ord : RangeOrder String MeshServiceProvider) (meshService : MeshService) :
    List ClusterLoadAssignment :=
  (ord.range meshService.providers).map fun provider =>
    { clusterName := provider.1, endpoints := [provider.2.endpoints] }

/-! ## What `register` leaves behind -/

/-- The provider stored for mesh name `m` under cluster name `c`. -/
def MeshServices.provider (mss : MeshServices) (m c : String) : Option MeshServiceProvider :=
  (mss.lookup m).bind fun ms => ms.providers.lookup c

def newProvider (svc : Service) (cfg : MeshServiceConfig) (ips : List String) : MeshServiceProvider where
  cluster := { name := svc.key, weight := cfg.weight }
  endpoints := getEndpointsForIPs cfg ips

/-- The object `register` finds or creates for the mesh name. -/
def MeshServices.entry (mss : MeshServices) (m : String) : MeshService :=
  (mss.lookup m).getD { name := m, providers := ∅ }

theorem lookup_register (mss : MeshServices) (svc : Service) (cfg : MeshServiceConfig)
    (ips : List String) (m : String) :
    (mss.register svc cfg ips).lookup m =
      if m = cfg.provides then
        some { mss.entry m with
          providers := (mss.entry m).providers.insert svc.key (newProvider svc cfg ips) }
      else mss.lookup m := by
  unfold MeshServices.register
  rw [lookup_mutate]
  by_cases hm : m = cfg.provides
  · subst hm
    rw [if_pos rfl, if_pos rfl]
    cases hl : mss.lookup cfg.provides with
    | none => simp [MeshServices.entry, hl, newProvider, Service.key]
    | some ms => simp [MeshServices.entry, hl, newProvider, Service.key]
  · rw [if_neg hm, if_neg hm]
    split
    · rfl
    · rw [lookup_insert_if, if_neg hm]

theorem provider_register (mss : MeshServices) (svc : Service) (cfg : MeshServiceConfig)
    (ips : List String) (m c : String) :
    (mss.register svc cfg ips).provider m c =
      if m = cfg.provides ∧ c = svc.key then some (newProvider svc cfg ips) else mss.provider m c := by
  rw [MeshServices.provider, lookup_register]
  by_cases hm : m = cfg.provides
  · rw [if_pos hm, Option.bind_some, lookup_insert_if]
    by_cases hc : c = svc.key
    · rw [if_pos hc, if_pos ⟨hm, hc⟩]
    · rw [if_neg hc, if_neg fun h => hc h.2, MeshServices.provider, MeshServices.entry]
      cases mss.lookup m with
      | none => rfl
      | some ms => rfl
  · rw [if_neg hm, if_neg fun h => hm h.1, MeshServices.provider]

/-- Every entry is named by its key and provided by something. -/
def MeshServices.WellFormed (mss : MeshServices) : Prop :=
  ∀ m ms, mss.lookup m = some ms → ms.name = m ∧ ∃ c p, ms.providers.lookup c = some p

theorem wellFormed_empty : MeshServices.WellFormed ∅ := by
  intro m ms h
  rw [AList.lookup_empty] at h
  cases h

theorem wellFormed_register {mss : MeshServices} (h : mss.WellFormed) (svc : Service)
    (cfg : MeshServiceConfig) (ips : List String) : (mss.register svc cfg ips).WellFormed := by
  intro m ms hm
  rw [lookup_register] at hm
  split at hm
  · have hname : (mss.entry m).name = m := by
      unfold MeshServices.entry
      cases hl : mss.lookup m with
      | none => rfl
      | some ms' => exact (h m ms' hl).1
    cases hm
    exact ⟨hname, svc.key, newProvider svc cfg ips, AList.lookup_insert _⟩
  · exact h m ms hm

/-! ## Sequences of calls -/

structure RegisterCall where
  svc : Service
  cfg : MeshServiceConfig
  ips : List String

def MeshServices.call (mss : MeshServices) (call : RegisterCall) : MeshServices :=
  mss.register call.svc call.cfg call.ips

def MeshServices.registerAll (calls : List RegisterCall) : MeshServices := calls.foldl MeshServices.call ∅

def RegisterCall.hits (m c : String) (call : RegisterCall) : Bool :=
  m = call.cfg.provides ∧ c = call.svc.key

def RegisterCall.provider (call : RegisterCall) : MeshServiceProvider :=
  newProvider call.svc call.cfg call.ips

/-- A pair of names holds the provider of the last call that stored there. -/
theorem provider_registerAll (calls : List RegisterCall) (m c : String) :
    (MeshServices.registerAll calls).provider m c =
      (calls.filter (RegisterCall.hits m c)).getLast?.map RegisterCall.provider := by
  have hstep (mss : MeshServices) (call : RegisterCall) : (mss.call call).provider m c =
      if call.hits m c then some call.provider else mss.provider m c := by
    rw [MeshServices.call, provider_register]
    simp [RegisterCall.hits, RegisterCall.provider]
  have h := foldl_last_write (fun mss : MeshServices => mss.provider m c) MeshServices.call
    (RegisterCall.hits m c) (fun call => some call.provider) hstep calls ∅
  rw [MeshServices.registerAll, h]
  cases (calls.filter (RegisterCall.hits m c)).getLast? <;> rfl

theorem wellFormed_registerAll (calls : List RegisterCall) : (MeshServices.registerAll calls).WellFormed := by
  unfold MeshServices.registerAll
  induction calls using List.reverseRecOn with
  | nil => exact wellFormed_empty
  | append_singleton calls call ih =>
    rw [List.foldl_append]
    exact wellFormed_register ih call.svc call.cfg call.ips

end HalfMesh
