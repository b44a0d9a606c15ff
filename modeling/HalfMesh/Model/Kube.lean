import HalfMesh.Foundations.KeyedStore

/-! The Kubernetes objects the control plane reads, with the fields it reads, and the informer
cache (`kubecache.Indexer`) that holds them under `namespace/name`. Services and Endpoints are
namespaced kinds, so the cache key never is the bare name of a cluster-scoped object. -/
namespace HalfMesh.Kube
open HalfMesh.Foundations
set_option autoImplicit false
set_option maxHeartbeats 250000
set_option maxRecDepth 120000

/-- `v1.Service`: its namespace, name and annotations. -/
structure Service where
  ns : String
  name : String
  annotations : GoMap String String

structure EndpointAddress where
  ip : String
  deriving DecidableEq, Repr

/-- `v1.EndpointSubset`; `addresses` are the ready ones, the others are in a field of their own. -/
structure EndpointSubset where
  addresses : List EndpointAddress
  deriving DecidableEq, Repr

structure Endpoints where
  ns : String
  name : String
  subsets : List EndpointSubset
  deriving DecidableEq, Repr

def Service.key (s : Service) : String := s.ns ++ "/" ++ s.name

def Endpoints.key (e : Endpoints) : String := e.ns ++ "/" ++ e.name

abbrev ServiceIndexer := KeyedStore Service.key

abbrev EndpointsIndexer := KeyedStore Endpoints.key

/-- What `epIndexer.GetByKey` answers: an error, or the object and whether there is one. A nil
`interface{}` is returned exactly when the key is missing. -/
abbrev GetByKey := String → Except String (Option Endpoints)

/-- The lookup of an informer's own cache returns no error. -/
def getByKey (epIndexer : EndpointsIndexer) : GetByKey := fun key => .ok (epIndexer.items.lookup key)

end HalfMesh.Kube
