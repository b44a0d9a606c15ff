import HalfMesh.Foundations.Transition
import HalfMesh.Model.Informer
import HalfMesh.Model.Snapshot

/-! `Start`, the update worker and the two informers as one transition system. The parties
interleave at every access to shared state: a store change, a load of `ready`, a channel operation,
`List`, one `GetByKey`, the use of `snapshotVersion`, `SetSnapshot`. The fields `services`, `svcAt`
and `reads` of a run, `published` and `failed` only record what happened. -/
namespace HalfMesh
open HalfMesh.Foundations HalfMesh.Kube HalfMesh.Xds
set_option autoImplicit false
set_option maxHeartbeats 250000
set_option maxRecDepth 120000

/-! ## Runs of `updateCache` -/

/-- One `GetByKey`: its key, what it found, and the length of the Endpoints log at that moment. -/
structure Read where
  key : String
  value : Option Endpoints
  epAt : ℕ

/-- A run past its `List`; `svcAt` is the length of the Service log at that moment. -/
structure Run where
  services : List Service
  svcAt : ℕ
  reads : List Read
  todo : List Service
  meshServices : MeshServices

inductive RunPC
  | listing
  | collecting (run : Run)
  | publishing (run : Run) (snap : Passed)

def RunPC.run? : RunPC → Option Run
  | listing => none
  | collecting run => some run
  | publishing run _ => some run

structure Publication where
  run : Run
  passed : Passed

/-- What the runs write: the global counter and the snapshots passed to `SetSnapshot`. -/
structure Publisher where
  snapshotVersion : ℤ
  published : List Publication
  failed : Bool

def Publisher.fail (pub : Publisher) : Publisher := { pub with failed := true }

/-- `SetSnapshot` takes the snapshot, and may return an error all the same. -/
def Publisher.publish (pub : Publisher) (run : Run) (snap : Passed) (answer : Option String) : Publisher :=
  { pub with published := pub.published ++ [⟨run, snap⟩], failed := pub.failed || answer.isSome }

inductive RunEvent
  | list (ord : RangeOrder String Service)
  | iterate
  | build (ord : RangeOrders)
  | publish (answer : Option String)

inductive Progress
  | more (pc : RunPC)
  | finished (err : Option String)

/-- What a run sees of the watcher; an unassigned indexer is a nil interface. -/
structure Stores where
  svc : Informer Service.key
  ep : Informer Endpoints.key
  svcAssigned : Bool
  epAssigned : Bool

def Run.create (stores : Stores) (ord : RangeOrder String Service) : Run where
  services := stores.svc.indexer.list ord
  svcAt := stores.svc.log.length
  reads := []
  todo := stores.svc.indexer.list ord
  meshServices := ∅

/-- The `GetByKey` of one iteration, if it gets that far. -/
def readOf (lib : Library) (stores : Stores) (service : Service) : List Read :=
  if (meshConfig? lib.yamlUnmarshal service).isSome then
    [{ key := service.key, value := stores.ep.indexer.items.lookup service.key, epAt := stores.ep.log.length }]
  else []

def Run.advance (lib : Library) (stores : Stores) (run : Run) (service : Service) (todo : List Service)
    (mss : MeshServices) : Run :=
  { run with reads := run.reads ++ readOf lib stores service, todo := todo, meshServices := mss }

/-- One iteration of the service loop, with `GetByKey` on the live indexer. -/
def Run.iterate (lib : Library) (stores : Stores) (pub : Publisher) (run : Run) (service : Service)
    (todo : List Service) : Except Panic (Publisher × Progress) :=
  if (meshConfig? lib.yamlUnmarshal service).isSome ∧ stores.epAssigned = false then
    .error .nilDereference
  else
    match registerService lib.yamlUnmarshal (getByKey stores.ep.indexer) run.meshServices service with
    | .panic why => .error why
    | .err err => .ok (pub.fail, .finished (some err))
    | .ok mss => .ok (pub, .more (.collecting (run.advance lib stores service todo mss)))

def Run.build (lib : Library) (pub : Publisher) (run : Run) (ord : RangeOrders) : Publisher × Progress :=
  let resources := meshResources ord run.meshServices
  match buildSnapshot lib pub.snapshotVersion resources with
  | .error err => (pub.fail, .finished (some err))
  | .ok snap =>
    ({ pub with snapshotVersion := increment pub.snapshotVersion },
      .more (.publishing run { version := pub.snapshotVersion, resources := resources, snapshot := snap }))

def runStep (lib : Library) (stores : Stores) (pub : Publisher) :
    RunPC → RunEvent → Option (Except Panic (Publisher × Progress))
  | .listing, .list ord =>
    some (if stores.svcAssigned then .ok (pub, .more (.collecting (Run.create stores ord)))
      else .error .nilDereference)
  | .collecting run, .iterate =>
    match run.todo with
    | [] => none
    | service :: todo => some (run.iterate lib stores pub service todo)
  | .collecting run, .build ord => if run.todo = [] then some (.ok (run.build lib pub ord)) else none
  | .publishing run snap, .publish answer => some (.ok (pub.publish run snap answer, .finished answer))
  | _, _ => none

/-! ## The system -/

/-- The program counter of `Start`, `startKubeWatchers` included. -/
inductive StartPC
  | config
  | waitSvc
  | assignSvc
  | waitEp
  | assignEp
  | storeReady
  | updating (pc : RunPC)
  | launch
  | returned (err : Option String)

inductive WorkerPC
  | absent
  | select
  | updating (pc : RunPC)
  -- the function has returned and its deferred close is still to run
  | returning
  | exited
  -- a call of `updateCache` has panicked: the deferred close runs before the process ends
  | panicking (pc : RunPC) (why : Panic)
  | unwound (pc : RunPC) (why : Panic)

structure System extends Stores where
  start : StartPC
  worker : WorkerPC
  ready : Bool
  chan : UpdateChan
  cancelled : Bool
  pub : Publisher
  crash : Option Panic

inductive StartEvent
  | configure (err : Option String)
  | sync
  | timeout
  | assign
  | storeReady
  | run (e : RunEvent)
  | launch

inductive WorkerEvent
  | done
  | receive
  | run (e : RunEvent)
  | close
  -- the runtime ends the process, once the deferred call of the panicking goroutine has run
  | crash

inductive Action
  | svc (e : InformerEvent Service)
  | ep (e : InformerEvent Endpoints)
  | start (e : StartEvent)
  | worker (e : WorkerEvent)
  | cancel
  -- `panic(err)` in `runKubeWatcher`
  | panic

/-- The third-party functions and the two initial lists. -/
structure Env where
  lib : Library
  services : List Service
  endpoints : List Endpoints

def System.initial (env : Env) : System where
  svc := Informer.create Service.key env.services
  ep := Informer.create Endpoints.key env.endpoints
  svcAssigned := false
  epAssigned := false
  start := .config
  worker := .absent
  ready := false
  chan := { token := false, closed := false }
  cancelled := false
  pub := { snapshotVersion := 1, published := [], failed := false }
  crash := none

namespace System

def panics (s : System) (why : Panic) : System := { s with crash := some why }

/-- The watcher as a run would find it now. -/
def watcher (s : System) : KubeWatcher where
  svcIndexer := s.svc.indexer
  epIndexer := s.ep.indexer

def timedOut : String := "timed out waiting for caches to sync"

/-- Where the initial `updateCache` leaves `Start`. -/
def startAfter (s : System) : Except Panic (Publisher × Progress) → System
  | .error why => s.panics why
  | .ok (pub, .more pc) => { s with pub := pub, start := .updating pc }
  | .ok (pub, .finished none) => { s with pub := pub, start := .launch }
  | .ok (pub, .finished (some err)) => { s with pub := pub, start := .returned (some err) }

/-- Where a run leaves the worker: it prints an error and goes on. A panic does not end the process
yet, as `defer close(updateChan)` runs on this path too. -/
def workerAfter (s : System) (pc : RunPC) : Except Panic (Publisher × Progress) → System
  | .error why => { s with worker := .panicking pc why }
  | .ok (pub, .more pc) => { s with pub := pub, worker := .updating pc }
  | .ok (pub, .finished _) => { s with pub := pub, worker := .select }

def startStep (lib : Library) (s : System) : StartEvent → Option System
  | .configure err =>
    match s.start, err with
    | .config, some err => some { s with start := .returned (some err) }
    | .config, none => some { s with start := .waitSvc, svc := s.svc.launch }
    | _, _ => none
  | .sync =>
    match s.start with
    | .waitSvc => if s.svc.hasSynced then some { s with start := .assignSvc } else none
    | .waitEp => if s.ep.hasSynced then some { s with start := .assignEp } else none
    | _ => none
  | .timeout =>
    match s.start with
    | .waitSvc => if s.cancelled then some { s with start := .returned (some timedOut) } else none
    | .waitEp => if s.cancelled then some { s with start := .returned (some timedOut) } else none
    | _ => none
  | .assign =>
    match s.start with
    | .assignSvc => some { s with start := .waitEp, svcAssigned := true, ep := s.ep.launch }
    | .assignEp => some { s with start := .storeReady, epAssigned := true }
    | _ => none
  | .storeReady =>
    match s.start with
    | .storeReady => some { s with start := .updating .listing, ready := true }
    | _ => none
  | .run e =>
    match s.start with
    | .updating pc => (runStep lib s.toStores s.pub pc e).map s.startAfter
    | _ => none
  | .launch =>
    match s.start with
    | .launch => some { s with start := .returned none, worker := .select }
    | _ => none

def workerStep (lib : Library) (s : System) : WorkerEvent → Option System
  | .done =>
    match s.worker with
    | .select => if s.cancelled then some { s with worker := .returning } else none
    | _ => none
  | .receive =>
    match s.worker with
    | .select =>
      if s.chan.token then some { s with worker := .updating .listing, chan := { s.chan with token := false } }
      else none
    | _ => none
  | .run e =>
    match s.worker with
    | .updating pc => (runStep lib s.toStores s.pub pc e).map (s.workerAfter pc)
    | _ => none
  | .close =>
    match s.worker with
    | .returning => some { s with worker := .exited, chan := { s.chan with closed := true } }
    | .panicking pc why => some { s with worker := .unwound pc why, chan := { s.chan with closed := true } }
    | _ => none
  | .crash =>
    match s.worker with
    | .unwound _ why => some (s.panics why)
    | _ => none

def svcAfter (s : System) : Except Panic (Informer Service.key × UpdateChan) → System
  | .error why => s.panics why
  | .ok (i, ch) => { s with svc := i, chan := ch }

def epAfter (s : System) : Except Panic (Informer Endpoints.key × UpdateChan) → System
  | .error why => s.panics why
  | .ok (i, ch) => { s with ep := i, chan := ch }

/-- One step of the process; after a panic there is none. -/
def step (lib : Library) (s : System) (a : Action) : Option System :=
  if s.crash.isSome then none else
  match a with
  | .svc e => (s.svc.step s.ready s.cancelled s.chan e).map s.svcAfter
  | .ep e => (s.ep.step s.ready s.cancelled s.chan e).map s.epAfter
  | .start e => s.startStep lib e
  | .worker e => s.workerStep lib e
  | .cancel => some { s with cancelled := true }
  | .panic =>
    match s.start with
    | .returned (some _) => some (s.panics .explicit)
    | _ => none

end System

/-- The states that some interleaving reaches. -/
def Reachable (env : Env) (s : System) : Prop := Reach (System.step env.lib) anyStep (System.initial env) s

end HalfMesh
