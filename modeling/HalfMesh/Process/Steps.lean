import HalfMesh.Model.Watcher

/-! What one step of the system can do: every transition once, with its guard and its effect. The
invariants are proved by cases on these, and nothing after this file unfolds the step functions. -/
namespace HalfMesh
open HalfMesh.Foundations HalfMesh.Kube HalfMesh.Xds
set_option autoImplicit false
set_option maxHeartbeats 250000
set_option maxRecDepth 120000

inductive RunStep (lib : Library) (stores : Stores) (pub : Publisher) :
    RunPC → RunEvent → Except Panic (Publisher × Progress) → Prop
  | list {ord : RangeOrder String Service} : stores.svcAssigned = true →
      RunStep lib stores pub .listing (.list ord) (.ok (pub, .more (.collecting (Run.create stores ord))))
  | listNil {ord : RangeOrder String Service} : stores.svcAssigned = false →
      RunStep lib stores pub .listing (.list ord) (.error .nilDereference)
  | iterate {run : Run} {service : Service} {todo : List Service} {mss : MeshServices} :
      run.todo = service :: todo →
      registerService lib.yamlUnmarshal (getByKey stores.ep.indexer) run.meshServices service = .ok mss →
      RunStep lib stores pub (.collecting run) .iterate
        (.ok (pub, .more (.collecting (run.advance lib stores service todo mss))))
  | iterateFails {run : Run} {service : Service} {todo : List Service} {err : String} :
      run.todo = service :: todo →
      registerService lib.yamlUnmarshal (getByKey stores.ep.indexer) run.meshServices service = .err err →
      RunStep lib stores pub (.collecting run) .iterate (.ok (pub.fail, .finished (some err)))
  | iteratePanics {run : Run} {service : Service} {todo : List Service} {why : Panic} :
      run.todo = service :: todo →
      registerService lib.yamlUnmarshal (getByKey stores.ep.indexer) run.meshServices service = .panic why →
      RunStep lib stores pub (.collecting run) .iterate (.error why)
  | iterateNil {run : Run} {service : Service} {todo : List Service} :
      run.todo = service :: todo → stores.epAssigned = false →
      RunStep lib stores pub (.collecting run) .iterate (.error .nilDereference)
  | build {run : Run} {ord : RangeOrders} {snap : Snapshot} : run.todo = [] →
      buildSnapshot lib pub.snapshotVersion (meshResources ord run.meshServices) = .ok snap →
      RunStep lib stores pub (.collecting run) (.build ord)
        (.ok ({ pub with snapshotVersion := increment pub.snapshotVersion },
          .more (.publishing run {
            version := pub.snapshotVersion
            resources := meshResources ord run.meshServices
            snapshot := snap })))
  | buildFails {run : Run} {ord : RangeOrders} {err : String} : run.todo = [] →
      buildSnapshot lib pub.snapshotVersion (meshResources ord run.meshServices) = .error err →
      RunStep lib stores pub (.collecting run) (.build ord) (.ok (pub.fail, .finished (some err)))
  | publish {run : Run} {snap : Passed} {answer : Option String} :
      RunStep lib stores pub (.publishing run snap) (.publish answer)
        (.ok (pub.publish run snap answer, .finished answer))

theorem runStep_cases {lib : Library} {stores : Stores} {pub : Publisher} {pc : RunPC} {e : RunEvent}
    {out : Except Panic (Publisher × Progress)} (h : runStep lib stores pub pc e = some out) :
    RunStep lib stores pub pc e out := by
  unfold runStep at h
  split at h
  · next ord =>
    cases h
    cases ha : stores.svcAssigned with
    | true => exact .list ha
    | false => exact .listNil ha
  · next run =>
    split at h
    · cases h
    · next service todo htodo =>
      cases h
      unfold Run.iterate
      split
      · next hnil => exact .iterateNil htodo hnil.2
      · split
        · next why hr => exact .iteratePanics htodo hr
        · next err hr => exact .iterateFails htodo hr
        · next mss hr => exact .iterate htodo hr
  · next run ord =>
    obtain ⟨htodo, hout⟩ := Option.ite_none_right_eq_some.mp h
    cases hout
    cases hb : buildSnapshot lib pub.snapshotVersion (meshResources ord run.meshServices) with
    | error err =>
      simp only [Run.build, hb]
      exact .buildFails htodo hb
    | ok snap =>
      simp only [Run.build, hb]
      exact .build htodo hb
  · next run snap answer =>
    cases h
    exact .publish
  · cases h

namespace System

inductive Step (lib : Library) (s : System) : Action → System → Prop
  | svc {e : InformerEvent Service} {out : Except Panic (Informer Service.key × UpdateChan)} :
      s.svc.Step s.ready s.cancelled s.chan e out → Step lib s (.svc e) (s.svcAfter out)
  | ep {e : InformerEvent Endpoints} {out : Except Panic (Informer Endpoints.key × UpdateChan)} :
      s.ep.Step s.ready s.cancelled s.chan e out → Step lib s (.ep e) (s.epAfter out)
  | configFails {err : String} : s.start = .config →
      Step lib s (.start (.configure (some err))) { s with start := .returned (some err) }
  | config : s.start = .config →
      Step lib s (.start (.configure none)) { s with start := .waitSvc, svc := s.svc.launch }
  | svcSynced : s.start = .waitSvc → s.svc.pending = [] →
      Step lib s (.start .sync) { s with start := .assignSvc }
  | epSynced : s.start = .waitEp → s.ep.pending = [] →
      Step lib s (.start .sync) { s with start := .assignEp }
  | timeout : s.start = .waitSvc ∨ s.start = .waitEp → s.cancelled = true →
      Step lib s (.start .timeout) { s with start := .returned (some timedOut) }
  | assignSvc : s.start = .assignSvc →
      Step lib s (.start .assign) { s with start := .waitEp, svcAssigned := true, ep := s.ep.launch }
  | assignEp : s.start = .assignEp →
      Step lib s (.start .assign) { s with start := .storeReady, epAssigned := true }
  | storeReady : s.start = .storeReady →
      Step lib s (.start .storeReady) { s with start := .updating .listing, ready := true }
  | startRun {pc : RunPC} {e : RunEvent} {out : Except Panic (Publisher × Progress)} :
      s.start = .updating pc → RunStep lib s.toStores s.pub pc e out →
      Step lib s (.start (.run e)) (s.startAfter out)
  | launch : s.start = .launch →
      Step lib s (.start .launch) { s with start := .returned none, worker := .select }
  | done : s.worker = .select → s.cancelled = true →
      Step lib s (.worker .done) { s with worker := .returning }
  | receive : s.worker = .select → s.chan.token = true →
      Step lib s (.worker .receive) { s with worker := .updating .listing, chan := { s.chan with token := false } }
  | workerRun {pc : RunPC} {e : RunEvent} {out : Except Panic (Publisher × Progress)} :
      s.worker = .updating pc → RunStep lib s.toStores s.pub pc e out →
      Step lib s (.worker (.run e)) (s.workerAfter pc out)
  | close : s.worker = .returning →
      Step lib s (.worker .close) { s with worker := .exited, chan := { s.chan with closed := true } }
  | closePanicking {pc : RunPC} {why : Panic} : s.worker = .panicking pc why →
      Step lib s (.worker .close) { s with worker := .unwound pc why, chan := { s.chan with closed := true } }
  | crash {pc : RunPC} {why : Panic} : s.worker = .unwound pc why → Step lib s (.worker .crash) (s.panics why)
  | cancel : Step lib s .cancel { s with cancelled := true }
  | panic {err : String} : s.start = .returned (some err) → Step lib s .panic (s.panics .explicit)

variable {lib : Library} {s t : System}

theorem startStep_cases {e : StartEvent} (h : s.startStep lib e = some t) : Step lib s (.start e) t := by
  cases e with
  | configure err =>
    simp only [startStep] at h
    split at h
    · next err hs => cases h; exact .configFails hs
    · next hs => cases h; exact .config hs
    · cases h
  | sync =>
    simp only [startStep, Informer.hasSynced, List.isEmpty_iff] at h
    split at h
    · next hs =>
      obtain ⟨hp, ht⟩ := Option.ite_none_right_eq_some.mp h
      cases ht
      exact .svcSynced hs hp
    · next hs =>
      obtain ⟨hp, ht⟩ := Option.ite_none_right_eq_some.mp h
      cases ht
      exact .epSynced hs hp
    · cases h
  | timeout =>
    simp only [startStep] at h
    split at h
    · next hs =>
      obtain ⟨hc, ht⟩ := Option.ite_none_right_eq_some.mp h
      cases ht
      exact .timeout (.inl hs) hc
    · next hs =>
      obtain ⟨hc, ht⟩ := Option.ite_none_right_eq_some.mp h
      cases ht
      exact .timeout (.inr hs) hc
    · cases h
  | assign =>
    simp only [startStep] at h
    split at h
    · next hs => cases h; exact .assignSvc hs
    · next hs => cases h; exact .assignEp hs
    · cases h
  | storeReady =>
    simp only [startStep] at h
    split at h
    · next hs => cases h; exact .storeReady hs
    · cases h
  | run e =>
    simp only [startStep] at h
    split at h
    · next pc hs =>
      obtain ⟨out, hout, rfl⟩ := Option.map_eq_some_iff.mp h
      exact .startRun hs (runStep_cases hout)
    · cases h
  | launch =>
    simp only [startStep] at h
    split at h
    · next hs => cases h; exact .launch hs
    · cases h

theorem workerStep_cases {e : WorkerEvent} (h : s.workerStep lib e = some t) : Step lib s (.worker e) t := by
  cases e with
  | done =>
    simp only [workerStep] at h
    split at h
    · next hs =>
      obtain ⟨hc, ht⟩ := Option.ite_none_right_eq_some.mp h
      cases ht
      exact .done hs hc
    · cases h
  | receive =>
    simp only [workerStep] at h
    split at h
    · next hs =>
      obtain ⟨hk, ht⟩ := Option.ite_none_right_eq_some.mp h
      cases ht
      exact .receive hs hk
    · cases h
  | run e =>
    simp only [workerStep] at h
    split at h
    · next pc hs =>
      obtain ⟨out, hout, rfl⟩ := Option.map_eq_some_iff.mp h
      exact .workerRun hs (runStep_cases hout)
    · cases h
  | close =>
    simp only [workerStep] at h
    split at h
    · next hs => cases h; exact .close hs
    · next pc why hs => cases h; exact .closePanicking hs
    · cases h
  | crash =>
    simp only [workerStep] at h
    split at h
    · next pc why hs => cases h; exact .crash hs
    · cases h

theorem step_cases {a : Action} (h : s.step lib a = some t) : s.crash = none ∧ Step lib s a t := by
  unfold step at h
  split at h
  · cases h
  · next hcrash =>
    refine ⟨Option.not_isSome_iff_eq_none.mp hcrash, ?_⟩
    cases a with
    | svc e =>
      obtain ⟨out, hout, rfl⟩ := Option.map_eq_some_iff.mp h
      exact .svc (Informer.step_cases hout)
    | ep e =>
      obtain ⟨out, hout, rfl⟩ := Option.map_eq_some_iff.mp h
      exact .ep (Informer.step_cases hout)
    | start e => exact startStep_cases h
    | worker e => exact workerStep_cases h
    | cancel =>
      cases h
      exact .cancel
    | panic =>
      simp only at h
      split at h
      · next err hs => cases h; exact .panic hs
      · cases h

end System
end HalfMesh
