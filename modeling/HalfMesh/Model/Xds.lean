import HalfMesh.Foundations.GoMap

/-! The xDS messages the control plane builds, with the fields it sets. A message field that
the code always sets is a plain field here, one it may leave nil is an `Option`. -/
namespace HalfMesh.Xds
open HalfMesh.Foundations
set_option autoImplicit false
set_option maxHeartbeats 250000
set_option maxRecDepth 120000

inductive ApiVersion
  | auto
  | v2
  | v3
  deriving DecidableEq, Repr

structure AggregatedConfigSource where
  deriving DecidableEq, Repr

inductive ConfigSourceSpecifier
  | ads (ads : Option AggregatedConfigSource)
  deriving DecidableEq, Repr

structure ConfigSource where
  resourceApiVersion : ApiVersion
  configSourceSpecifier : ConfigSourceSpecifier
  deriving DecidableEq, Repr

/-- A packed message (`anypb.Any`). -/
structure Any (α : Type) where
  message : α
  deriving DecidableEq, Repr

/-! ## Listeners -/

structure Rds where
  routeConfigName : String
  configSource : ConfigSource
  deriving DecidableEq, Repr

structure Router where
  deriving DecidableEq, Repr

structure HttpFilter where
  name : String
  typedConfig : Any Router
  deriving DecidableEq, Repr

inductive CodecType
  | auto
  | http1
  | http2
  | http3
  deriving DecidableEq, Repr

structure HttpConnectionManager where
  codecType : CodecType
  rds : Rds
  httpFilters : List HttpFilter
  deriving DecidableEq, Repr

structure ApiListener where
  apiListener : Any HttpConnectionManager
  deriving DecidableEq, Repr

structure Listener where
  name : String
  apiListener : ApiListener
  deriving DecidableEq, Repr

def Listener.rdsName (l : Listener) : String := l.apiListener.apiListener.message.rds.routeConfigName

/-! ## Routes -/

structure ClusterWeight where
  name : String
  weight : UInt32
  deriving DecidableEq, Repr

structure WeightedCluster where
  clusters : List ClusterWeight
  deriving DecidableEq, Repr

structure RouteMatch where
  pathPrefix : String
  deriving DecidableEq, Repr

structure RouteAction where
  weightedClusters : WeightedCluster
  deriving DecidableEq, Repr

structure Route where
  routeMatch : RouteMatch
  action : RouteAction
  deriving DecidableEq, Repr

structure VirtualHost where
  name : String
  domains : List String
  routes : List Route
  deriving DecidableEq, Repr

structure RouteConfiguration where
  name : String
  validateClusters : Option Bool
  virtualHosts : List VirtualHost
  deriving DecidableEq, Repr

def RouteConfiguration.clusterWeights (rc : RouteConfiguration) : List ClusterWeight :=
  rc.virtualHosts.flatMap fun vh => vh.routes.flatMap fun r => r.action.weightedClusters.clusters

/-! ## Clusters and load assignments -/

inductive LbPolicy
  | roundRobin
  | leastRequest
  | ringHash
  | random
  | maglev
  deriving DecidableEq, Repr

inductive DiscoveryType
  | static
  | strictDns
  | logicalDns
  | eds
  deriving DecidableEq, Repr

structure EdsClusterConfig where
  edsConfig : ConfigSource
  deriving DecidableEq, Repr

structure Cluster where
  name : String
  lbPolicy : LbPolicy
  clusterDiscoveryType : DiscoveryType
  edsClusterConfig : EdsClusterConfig
  deriving DecidableEq, Repr

inductive Protocol
  | tcp
  | udp
  deriving DecidableEq, Repr

structure SocketAddress where
  protocol : Protocol
  address : String
  portValue : UInt32
  deriving DecidableEq, Repr

structure LbEndpoint where
  address : SocketAddress
  deriving DecidableEq, Repr

structure Locality where
  region : String := ""
  zone : String := ""
  subZone : String := ""
  deriving DecidableEq, Repr

structure LocalityLbEndpoints where
  locality : Locality
  loadBalancingWeight : UInt32
  lbEndpoints : List LbEndpoint
  deriving DecidableEq, Repr

structure ClusterLoadAssignment where
  clusterName : String
  endpoints : List LocalityLbEndpoints
  deriving DecidableEq, Repr

def ClusterLoadAssignment.addresses (a : ClusterLoadAssignment) : List (String × UInt32) :=
  a.endpoints.flatMap fun l => l.lbEndpoints.map fun e => (e.address.address, e.address.portValue)

/-! ## The resource map -/

/-- The resource types the control plane writes (`resource.Type`). -/
inductive ResourceType
  | listener
  | route
  | cluster
  | endpoint
  deriving DecidableEq, Repr

abbrev ResourceOf : ResourceType → Type
  | .listener => Listener
  | .route => RouteConfiguration
  | .cluster => Cluster
  | .endpoint => ClusterLoadAssignment

/-- `cache.GetResourceName`. -/
def resourceName : (t : ResourceType) → ResourceOf t → String
  | .listener, l => Listener.name l
  | .route, rc => RouteConfiguration.name rc
  | .cluster, c => Cluster.name c
  | .endpoint, a => ClusterLoadAssignment.clusterName a

/-- `map[resource.Type][]types.Resource`, each list of the messages of its own type. -/
abbrev Resources := AList fun t : ResourceType => List (ResourceOf t)

namespace Resources

/-- `resources[t]`, the nil list where the key is missing. -/
def get (r : Resources) (t : ResourceType) : List (ResourceOf t) := (r.lookup t).getD []

def listeners (r : Resources) : List Listener := get r .listener
def routes (r : Resources) : List RouteConfiguration := get r .route
def clusters (r : Resources) : List Cluster := get r .cluster
def assignments (r : Resources) : List ClusterLoadAssignment := get r .endpoint

def listener? (r : Resources) (n : String) : Option Listener := named Listener.name n (listeners r)
def route? (r : Resources) (n : String) : Option RouteConfiguration :=
  named RouteConfiguration.name n (routes r)
def cluster? (r : Resources) (n : String) : Option Cluster := named Cluster.name n (clusters r)
def assignment? (r : Resources) (n : String) : Option ClusterLoadAssignment :=
  named ClusterLoadAssignment.clusterName n (assignments r)

/-- The weighted clusters of the route configuration named `n`, none if there is no such route. -/
def weightsOf (r : Resources) (n : String) : List ClusterWeight :=
  ((route? r n).map RouteConfiguration.clusterWeights).getD []

end Resources

/-! ## Equality up to the order of weighted clusters -/

def Route.Equiv (a b : Route) : Prop :=
  a.routeMatch = b.routeMatch ∧
    a.action.weightedClusters.clusters.Perm b.action.weightedClusters.clusters

def VirtualHost.Equiv (a b : VirtualHost) : Prop :=
  a.name = b.name ∧ a.domains = b.domains ∧ List.Forall₂ Route.Equiv a.routes b.routes

def RouteConfiguration.Equiv (a b : RouteConfiguration) : Prop :=
  a.name = b.name ∧ a.validateClusters = b.validateClusters ∧
    List.Forall₂ VirtualHost.Equiv a.virtualHosts b.virtualHosts

/-- The same resources up to the order of the lists that are built by ranging over a map: the
four resource lists and the weighted clusters of a route. -/
structure Resources.Equiv (r r' : Resources) : Prop where
  keys : ∀ t, t ∈ r ↔ t ∈ r'
  listeners : r.listeners.Perm r'.listeners
  routes : ∃ rcs, r.routes.Perm rcs ∧ List.Forall₂ RouteConfiguration.Equiv rcs r'.routes
  clusters : r.clusters.Perm r'.clusters
  assignments : r.assignments.Perm r'.assignments

end HalfMesh.Xds
