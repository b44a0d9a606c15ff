import HalfMesh.Process.Startup

/-! The runs of `updateCache` inside the system. At most one is in progress (`active`), so a step
of the system either leaves the runs alone, begins one, or is one step of the one in progress
(`runs_of_step`). From this view come the invariants about what the runs have read and published:
every value a run holds is the one the indexer had when the run read it (`Recorded`), and the
mesh services it has built follow from these values alone (`Collected`). -/
namespace HalfMesh
open HalfMesh.Foundations HalfMesh.Kube HalfMesh.Xds
set_option autoImplicit false
set_option maxHeartbeats 250000
set_option maxRecDepth 120000

/-! ## The run in progress -/

def StartPC.run? : StartPC → Option RunPC
  | updating pc => some pc
  | _ => none

/-- A run that has panicked is still there while the worker unwinds. -/
def WorkerPC.run? : WorkerPC → Option RunPC
  | updating pc => some pc
  | panicking pc _ => some pc
  | unwound pc _ => some pc
  | _ => none

def System.inProgress (s : System) : List RunPC := s.start.run?.toList ++ s.worker.run?.toList

def Progress.active : Progress → List RunPC
  | more pc => [pc]
  | finished _ => []

/-- The stores move on: logs grow, and an indexer keeps agreeing with its log. -/
structure Later (stores stores' : Stores) : Prop where
  svc_log : stores.svc.log <+: stores'.svc.log
  ep_log : stores.ep.log <+: stores'.ep.log
  svc_sound : ∀ initial, stores.svc.Sound initial → stores'.svc.Sound initial
  ep_sound : ∀ initial, stores.ep.Sound initial → stores'.ep.Sound initial

theorem Later.refl (stores : Stores) : Later stores stores :=
  ⟨List.prefix_refl _, List.prefix_refl _, fun _ h => h, fun _ h => h⟩

/-- Some party still has to make the worker run: there is a token, or a handler that may send one. -/
def System.Pending (s : System) : Prop := s.chan.token = true ∨ s.svc.InFlight ∨ s.ep.InFlight

/-- Between the two states nothing changed unnoticed: there is a notification now, or the indexers
are the same and no notification got lost. -/
def Told (s t : System) : Prop :=
  t.Pending ∨ (t.svc.indexer = s.svc.indexer ∧ t.ep.indexer = s.ep.indexer ∧ (s.Pending → t.Pending))

/-- What a step of the system is to the runs. -/
inductive RunsStep (lib : Library) (s t : System) : Prop
  | other (stores : Later s.toStores t.toStores) (pub : t.pub = s.pub) (runs : t.inProgress = s.inProgress)
      (told : s.ready = true → s.start.starting = false → Told s t)
  | begins (stores : t.toStores = s.toStores) (pub : t.pub = s.pub) (before : s.inProgress = [])
      (after : t.inProgress = [.listing])
  | runs {pc : RunPC} {e : RunEvent} {progress : Progress} (before : s.inProgress = [pc])
      (step : RunStep lib s.toStores s.pub pc e (.ok (t.pub, progress)))
      (stores : t.toStores = s.toStores) (chan : t.chan = s.chan) (after : t.inProgress = progress.active)

section
variable {env : Env} {lib : Library} {s t : System}

theorem later_launchSvc (stores : Stores) : Later stores { stores with svc := stores.svc.launch } :=
  ⟨List.prefix_refl _, List.prefix_refl _, fun _ h => ⟨h.logged, h.listed⟩, fun _ h => h⟩

theorem later_launchEp (stores : Stores) :
    Later stores { stores with svcAssigned := true, ep := stores.ep.launch } :=
  ⟨List.prefix_refl _, List.prefix_refl _, fun _ h => h, fun _ h => ⟨h.logged, h.listed⟩⟩

theorem told_of_eq (hst : t.toStores = s.toStores) (hk : t.chan.token = s.chan.token) : Told s t := by
  refine .inr ⟨by rw [hst], by rw [hst], fun h => ?_⟩
  rw [System.Pending, hk, hst]
  exact h

theorem told_of_starting {P : Prop} (hs : s.start.starting = true) :
    s.ready = true → s.start.starting = false → P := by
  intro _ hlate
  rw [hs] at hlate
  cases hlate

theorem runs_of_svc {e : InformerEvent Service} {out : Except Panic (Informer Service.key × UpdateChan)}
    (h : s.svc.Step s.ready s.cancelled s.chan e out) : RunsStep lib s (s.svcAfter out) := by
  rcases out with why | ⟨i, ch⟩
  · exact .other (Later.refl _) rfl rfl fun _ _ => told_of_eq rfl rfl
  · have hl : Later s.toStores { s.toStores with svc := i } :=
      ⟨Informer.log_of_step h, List.prefix_refl _, fun _ hi => Informer.sound_step hi h, fun _ hi => hi⟩
    refine .other hl rfl rfl fun hr _ => ?_
    rcases Informer.notification_of_step h hr with hnew | ⟨hsame, hk, hno⟩
    · exact .inl (hnew.elim (fun hf => .inr (.inl hf)) .inl)
    · refine .inr ⟨hsame, rfl, fun hp => ?_⟩
      rcases hp with htok | hf | hf
      · exact .inl (hk.trans htok)
      · exact absurd hf hno
      · exact .inr (.inr hf)

theorem runs_of_ep {e : InformerEvent Endpoints} {out : Except Panic (Informer Endpoints.key × UpdateChan)}
    (h : s.ep.Step s.ready s.cancelled s.chan e out) : RunsStep lib s (s.epAfter out) := by
  rcases out with why | ⟨i, ch⟩
  · exact .other (Later.refl _) rfl rfl fun _ _ => told_of_eq rfl rfl
  · have hl : Later s.toStores { s.toStores with ep := i } :=
      ⟨List.prefix_refl _, Informer.log_of_step h, fun _ hi => hi, fun _ hi => Informer.sound_step hi h⟩
    refine .other hl rfl rfl fun hr _ => ?_
    rcases Informer.notification_of_step h hr with hnew | ⟨hsame, hk, hno⟩
    · exact .inl (hnew.elim (fun hf => .inr (.inr hf)) .inl)
    · refine .inr ⟨rfl, hsame, fun hp => ?_⟩
      rcases hp with htok | hf | hf
      · exact .inl (hk.trans htok)
      · exact .inr (.inl hf)
      · exact absurd hf hno

theorem inProgress_of_start (pc : Option RunPC) (h : s.start.run? = pc) (hw : s.worker = .absent) :
    s.inProgress = pc.toList := by
  rw [System.inProgress, h, hw]
  exact List.append_nil _

theorem inProgress_of_worker (pc : Option RunPC) (h : s.worker.run? = pc) (hs : s.start = .returned none) :
    s.inProgress = pc.toList := by
  rw [System.inProgress, h, hs]
  rfl

theorem runs_of_startAfter {pc : RunPC} {e : RunEvent} {out : Except Panic (Publisher × Progress)}
    (hc : Control s) (hs : s.start = .updating pc) (h : RunStep lib s.toStores s.pub pc e out) :
    RunsStep lib s (s.startAfter out) := by
  have hw := hc.absent_of_start (by rw [hs]; exact nofun)
  have hbefore := inProgress_of_start (some pc) (by rw [hs]; rfl) hw
  rcases out with why | ⟨pub, pc' | _ | err⟩
  · exact .other (Later.refl _) rfl rfl fun _ _ => told_of_eq rfl rfl
  · exact .runs hbefore h rfl rfl (inProgress_of_start (some pc') rfl hw)
  · exact .runs hbefore h rfl rfl (inProgress_of_start none rfl hw)
  · exact .runs hbefore h rfl rfl (inProgress_of_start none rfl hw)

theorem runs_of_workerAfter {pc : RunPC} {e : RunEvent} {out : Except Panic (Publisher × Progress)}
    (hc : Control s) (hs : s.worker = .updating pc) (h : RunStep lib s.toStores s.pub pc e out) :
    RunsStep lib s (s.workerAfter pc out) := by
  have hstart := hc.worker (by rw [hs]; exact nofun)
  have hbefore := inProgress_of_worker (some pc) (by rw [hs]; rfl) hstart
  rcases out with why | ⟨pub, pc' | err⟩
  · have hafter := inProgress_of_worker (s := s.workerAfter pc (.error why)) (some pc) rfl hstart
    exact .other (Later.refl _) rfl (hafter.trans hbefore.symm) fun _ _ => told_of_eq rfl rfl
  · exact .runs hbefore h rfl rfl (inProgress_of_worker (some pc') rfl hstart)
  · exact .runs hbefore h rfl rfl (inProgress_of_worker none rfl hstart)

theorem runs_of_step {a : Action} (hc : Control s) (h : System.Step lib s a t) : RunsStep lib s t := by
  cases h with
  | svc hi => exact runs_of_svc hi
  | ep hi => exact runs_of_ep hi
  | startRun hs hr => exact runs_of_startAfter hc hs hr
  | workerRun hs hr => exact runs_of_workerAfter hc hs hr
  | storeReady hs =>
    have hw := hc.absent_of_start (by rw [hs]; exact nofun)
    exact .begins rfl rfl (inProgress_of_start none (by rw [hs]; rfl) hw)
      (inProgress_of_start (some .listing) rfl hw)
  | receive hs _ =>
    have hstart := hc.worker (by rw [hs]; exact nofun)
    exact .begins rfl rfl (inProgress_of_worker none (by rw [hs]; rfl) hstart)
      (inProgress_of_worker (some .listing) rfl hstart)
  | config hs =>
    exact .other (later_launchSvc _) rfl (by rw [System.inProgress, System.inProgress, hs]; rfl)
      (told_of_starting (by rw [hs]; rfl))
  | assignSvc hs =>
    exact .other (later_launchEp _) rfl (by rw [System.inProgress, System.inProgress, hs]; rfl)
      (told_of_starting (by rw [hs]; rfl))
  | assignEp hs =>
    have hl : Later s.toStores { s.toStores with epAssigned := true } :=
      ⟨List.prefix_refl _, List.prefix_refl _, fun _ h => h, fun _ h => h⟩
    exact .other hl rfl (by rw [System.inProgress, System.inProgress, hs]; rfl)
      (told_of_starting (by rw [hs]; rfl))
  | configFails hs | svcSynced hs _ | epSynced hs _ =>
    exact .other (Later.refl _) rfl (by rw [System.inProgress, System.inProgress, hs]; rfl)
      fun _ _ => told_of_eq rfl rfl
  | timeout hs _ =>
    rcases hs with hs | hs
    · exact .other (Later.refl _) rfl (by rw [System.inProgress, System.inProgress, hs]; rfl)
        fun _ _ => told_of_eq rfl rfl
    · exact .other (Later.refl _) rfl (by rw [System.inProgress, System.inProgress, hs]; rfl)
        fun _ _ => told_of_eq rfl rfl
  | launch hs =>
    have hw := hc.absent_of_start (by rw [hs]; exact nofun)
    exact .other (Later.refl _) rfl (by rw [System.inProgress, System.inProgress, hs, hw]; rfl)
      fun _ _ => told_of_eq rfl rfl
  | done hs _ | close hs | closePanicking hs =>
    exact .other (Later.refl _) rfl (by rw [System.inProgress, System.inProgress, hs]; rfl)
      fun _ _ => told_of_eq rfl rfl
  | cancel | crash _ | panic _ => exact .other (Later.refl _) rfl rfl fun _ _ => told_of_eq rfl rfl

theorem Control.inProgress_length (h : Control s) : s.inProgress.length ≤ 1 := by
  by_cases hw : s.worker = .absent
  · rw [inProgress_of_start _ rfl hw]
    exact Option.length_toList_le
  · rw [inProgress_of_worker _ rfl (h.worker hw)]
    exact Option.length_toList_le

/-- What holds of the stores, of what is published and of the run in progress is kept by a step if it
is kept while the stores move on, when a run begins, and by the steps of the run. -/
theorem RunsStep.keeps {I : Stores → Publisher → List RunPC → Prop} (hs : RunsStep lib s t)
    (h : I s.toStores s.pub s.inProgress)
    (hother : ∀ {stores'}, Later s.toStores stores' → I s.toStores s.pub s.inProgress →
      I stores' s.pub s.inProgress)
    (hbegins : I s.toStores s.pub [] → I s.toStores s.pub [.listing])
    (hruns : ∀ {pc e pub' progress}, s.inProgress = [pc] →
      RunStep lib s.toStores s.pub pc e (.ok (pub', progress)) → I s.toStores s.pub [pc] →
      I s.toStores pub' progress.active) :
    I t.toStores t.pub t.inProgress := by
  cases hs with
  | other hl hpub hsame _ =>
    rw [hpub, hsame]
    exact hother hl h
  | begins hst hpub hbefore hafter =>
    rw [hst, hpub, hafter]
    rw [hbefore] at h
    exact hbegins h
  | runs hbefore hstep hst _ hafter =>
    rw [hst, hafter]
    rw [hbefore] at h
    exact hruns hbefore hstep h

/-- The three ways in which a step of a run ends, for a property of runs that holds after `List` and
is kept by the iterations: the run goes on, it fails, or it publishes itself. -/
theorem run_cases (Q : Run → Prop) {stores : Stores} {pub pub' : Publisher} {pc : RunPC} {e : RunEvent}
    {progress : Progress} (h : RunStep lib stores pub pc e (.ok (pub', progress)))
    (hcreate : ∀ ord, Q (Run.create stores ord))
    (hadvance : ∀ run service todo mss, Q run → Q (run.advance lib stores service todo mss))
    (hpc : ∀ run, pc.run? = some run → Q run) :
    (∃ pc', progress = .more pc' ∧ pub'.published = pub.published ∧ ∀ run, pc'.run? = some run → Q run) ∨
    (∃ err, progress = .finished (some err) ∧ pub'.published = pub.published ∧ pub'.failed = true) ∨
    ∃ p answer, progress = .finished answer ∧ pub'.published = pub.published ++ [p] ∧ Q p.run := by
  cases h with
  | @list ord _ =>
    refine .inl ⟨_, rfl, rfl, fun run hrun => ?_⟩
    cases hrun
    exact hcreate ord
  | iterate _ _ =>
    refine .inl ⟨_, rfl, rfl, fun run hrun => ?_⟩
    cases hrun
    exact hadvance _ _ _ _ (hpc _ rfl)
  | build _ _ =>
    refine .inl ⟨_, rfl, rfl, fun run hrun => ?_⟩
    cases hrun
    exact hpc _ rfl
  | @iterateFails _ _ _ err _ _ => exact .inr (.inl ⟨err, rfl, rfl, rfl⟩)
  | @buildFails _ _ err _ _ => exact .inr (.inl ⟨err, rfl, rfl, rfl⟩)
  | @publish run snap answer => exact .inr (.inr ⟨⟨run, snap⟩, answer, rfl, rfl, hpc _ rfl⟩)

end

/-! ## What a run has read -/

def Run.Answers (run : Run) (lookup : GetByKey) : Prop := ∀ rd ∈ run.reads, lookup rd.key = .ok rd.value

/-- Each value the run holds is what the indexer held when the run read it. -/
structure Recorded (stores : Stores) (run : Run) : Prop where
  svcAt_le : run.svcAt ≤ stores.svc.log.length
  listed : ∃ ord, run.services = (KeyedStore.replay Service.key (stores.svc.log.take run.svcAt)).list ord
  epAt_le : ∀ rd ∈ run.reads, rd.epAt ≤ stores.ep.log.length
  looked_up : ∀ rd ∈ run.reads,
    rd.value = (KeyedStore.replay Endpoints.key (stores.ep.log.take rd.epAt)).items.lookup rd.key

/-- The iterations behind the run: the Services `before` the rest, their reads, and the mesh
services that any lookup with the same answers builds from them. -/
structure Collected (lib : Library) (run : Run) (before : List Service) : Prop where
  services : run.services = before ++ run.todo
  keys : (run.reads.map Read.key).Sublist (before.map Service.key)
  asked : ∀ service ∈ before, (meshConfig? lib.yamlUnmarshal service).isSome →
    ∃ rd ∈ run.reads, rd.key = service.key
  built : ∀ lookup, run.Answers lookup →
    Outcome.foldlM (registerService lib.yamlUnmarshal lookup) ∅ before = .ok run.meshServices

section
variable {lib : Library} {stores stores' : Stores} {run : Run}

theorem take_of_longer {α : Type} {l l' : List α} (h : l <+: l') {n : ℕ} (hn : n ≤ l.length) :
    l'.take n = l.take n := by
  obtain ⟨rest, rfl⟩ := h
  exact List.take_append_of_le_length hn

theorem mem_take_of_longer {α : Type} {l l' : List α} (h : l <+: l') {n : ℕ} {x : α} (hx : x ∈ l.take n) :
    x ∈ l'.take n := by
  obtain ⟨rest, rfl⟩ := h
  rw [List.take_append]
  exact List.mem_append_left _ hx

theorem Recorded.later (h : Recorded stores run) (hl : Later stores stores') : Recorded stores' run where
  svcAt_le := Nat.le_trans h.svcAt_le hl.svc_log.length_le
  listed := by
    rw [take_of_longer hl.svc_log h.svcAt_le]
    exact h.listed
  epAt_le rd hrd := Nat.le_trans (h.epAt_le rd hrd) hl.ep_log.length_le
  looked_up rd hrd := by
    rw [take_of_longer hl.ep_log (h.epAt_le rd hrd)]
    exact h.looked_up rd hrd

theorem recorded_create {initial : List Service} (hs : stores.svc.Sound initial)
    (ord : RangeOrder String Service) : Recorded stores (Run.create stores ord) where
  svcAt_le := Nat.le_refl _
  listed := by
    refine ⟨ord, ?_⟩
    have htake : stores.svc.log.take stores.svc.log.length = stores.svc.log := List.take_length
    simp only [Run.create]
    rw [htake, ← hs.logged]
  epAt_le := nofun
  looked_up := nofun

theorem mem_readOf {service : Service} {rd : Read} : rd ∈ readOf lib stores service ↔
    (meshConfig? lib.yamlUnmarshal service).isSome ∧ rd =
      { key := service.key, value := stores.ep.indexer.items.lookup service.key, epAt := stores.ep.log.length } := by
  unfold readOf
  split
  · next h => simp [h]
  · next h => simp [h]

theorem recorded_advance {initial : List Endpoints} (he : stores.ep.Sound initial) (h : Recorded stores run)
    (service : Service) (todo : List Service) (mss : MeshServices) :
    Recorded stores (run.advance lib stores service todo mss) where
  svcAt_le := h.svcAt_le
  listed := h.listed
  epAt_le rd hrd := by
    rcases List.mem_append.mp hrd with hold | hnew
    · exact h.epAt_le rd hold
    · obtain ⟨_, rfl⟩ := mem_readOf.mp hnew
      exact Nat.le_refl _
  looked_up rd hrd := by
    rcases List.mem_append.mp hrd with hold | hnew
    · exact h.looked_up rd hold
    · obtain ⟨_, rfl⟩ := mem_readOf.mp hnew
      have htake : stores.ep.log.take stores.ep.log.length = stores.ep.log := List.take_length
      simp only
      rw [htake, ← he.logged]

theorem collected_create (ord : RangeOrder String Service) : Collected lib (Run.create stores ord) [] where
  services := rfl
  keys := List.Sublist.slnil
  asked := nofun
  built _ _ := rfl

/-- One more iteration on the live indexer is one more iteration for every lookup that agrees with
the reads, the new one included. -/
theorem collected_advance {before : List Service} (h : Collected lib run before) {service : Service}
    {todo : List Service} (htodo : run.todo = service :: todo) {mss : MeshServices}
    (hr : registerService lib.yamlUnmarshal (getByKey stores.ep.indexer) run.meshServices service = .ok mss) :
    Collected lib (run.advance lib stores service todo mss) (before ++ [service]) where
  services := by
    have hs := h.services
    rw [htodo] at hs
    change run.services = before ++ [service] ++ todo
    rw [hs, List.append_assoc]
    rfl
  keys := by
    change ((run.reads ++ readOf lib stores service).map Read.key).Sublist _
    rw [List.map_append, List.map_append]
    refine h.keys.append ?_
    unfold readOf
    split
    · exact List.Sublist.refl _
    · exact List.nil_sublist _
  asked svc hsvc hcfg := by
    rcases List.mem_append.mp hsvc with hold | hnew
    · obtain ⟨rd, hrd, hkey⟩ := h.asked svc hold hcfg
      exact ⟨rd, List.mem_append_left _ hrd, hkey⟩
    · obtain rfl := List.mem_singleton.mp hnew
      exact ⟨_, List.mem_append_right _ (mem_readOf.mpr ⟨hcfg, rfl⟩), rfl⟩
  built lookup hans := by
    have hbefore := h.built lookup fun rd hrd => hans rd (List.mem_append_left _ hrd)
    refine Outcome.foldlM_snoc hbefore ?_
    change _ = Outcome.ok mss
    rw [← hr]
    cases hcfg : meshConfig? lib.yamlUnmarshal service with
    | none => rw [registerService_of_none hcfg, registerService_of_none hcfg]
    | some cfg =>
      have hread := hans _ (List.mem_append_right _ (mem_readOf.mpr ⟨by rw [hcfg]; rfl, rfl⟩))
      exact registerService_congr hread run.meshServices

end

/-! ## What is published -/

structure Publication.Sound (lib : Library) (stores : Stores) (p : Publication) : Prop where
  recorded : Recorded stores p.run
  complete : p.run.todo = []
  collected : Collected lib p.run p.run.services
  resources : ∃ ord, p.passed.resources = meshResources ord p.run.meshServices
  snapshot : buildSnapshot lib p.passed.version p.passed.resources = .ok p.passed.snapshot

def RunPC.Sound (lib : Library) (stores : Stores) : RunPC → Prop
  | listing => True
  | collecting run => Recorded stores run ∧ ∃ before, Collected lib run before
  | publishing run snap => Publication.Sound lib stores ⟨run, snap⟩

structure RunsSound (env : Env) (stores : Stores) (pub : Publisher) (runs : List RunPC) : Prop where
  svc : stores.svc.Sound env.services
  ep : stores.ep.Sound env.endpoints
  active : ∀ pc ∈ runs, pc.Sound env.lib stores
  published : ∀ p ∈ pub.published, p.Sound env.lib stores

section
variable {env : Env} {lib : Library} {stores stores' : Stores} {pub pub' : Publisher} {s t : System}

theorem Publication.Sound.later {p : Publication} (h : p.Sound lib stores) (hl : Later stores stores') :
    p.Sound lib stores' := ⟨h.recorded.later hl, h.complete, h.collected, h.resources, h.snapshot⟩

theorem RunPC.Sound.later {pc : RunPC} (h : pc.Sound lib stores) (hl : Later stores stores') :
    pc.Sound lib stores' := by
  cases pc with
  | listing => trivial
  | collecting run => exact ⟨h.1.later hl, h.2⟩
  | publishing run snap => exact Publication.Sound.later h hl

theorem sound_build {run : Run} (h : RunPC.Sound lib stores (.collecting run)) (htodo : run.todo = [])
    {version : ℤ} {ord : RangeOrders} {snap : Snapshot}
    (hb : buildSnapshot lib version (meshResources ord run.meshServices) = .ok snap) :
    RunPC.Sound lib stores (.publishing run
      { version := version, resources := meshResources ord run.meshServices, snapshot := snap }) := by
  obtain ⟨hrec, before, hcol⟩ := h
  have hall : run.services = before := by
    have hs := hcol.services
    rw [htodo, List.append_nil] at hs
    exact hs
  exact ⟨hrec, htodo, hall ▸ hcol, ⟨ord, rfl⟩, hb⟩

theorem sound_runStep {services : List Service} {endpoints : List Endpoints} {pc : RunPC} {e : RunEvent}
    {progress : Progress} (h : RunStep lib stores pub pc e (.ok (pub', progress)))
    (hsvc : stores.svc.Sound services) (hep : stores.ep.Sound endpoints) (hpc : pc.Sound lib stores)
    (hpub : ∀ p ∈ pub.published, p.Sound lib stores) :
    (∀ p ∈ pub'.published, p.Sound lib stores) ∧ ∀ pc' ∈ progress.active, pc'.Sound lib stores := by
  cases h with
  | list _ =>
    refine ⟨hpub, fun pc' hpc' => ?_⟩
    obtain rfl := List.mem_singleton.mp hpc'
    exact ⟨recorded_create hsvc _, [], collected_create _⟩
  | iterate htodo hr =>
    obtain ⟨hrec, before, hcol⟩ := hpc
    refine ⟨hpub, fun pc' hpc' => ?_⟩
    obtain rfl := List.mem_singleton.mp hpc'
    exact ⟨recorded_advance hep hrec _ _ _, _, collected_advance hcol htodo hr⟩
  | iterateFails _ _ => exact ⟨hpub, nofun⟩
  | build htodo hb =>
    refine ⟨hpub, fun pc' hpc' => ?_⟩
    obtain rfl := List.mem_singleton.mp hpc'
    exact sound_build hpc htodo hb
  | buildFails _ _ => exact ⟨hpub, nofun⟩
  | publish =>
    refine ⟨fun p hp => ?_, nofun⟩
    rcases List.mem_append.mp hp with hold | hnew
    · exact hpub p hold
    · obtain rfl := List.mem_singleton.mp hnew
      exact hpc

theorem runsSound_initial : RunsSound env (System.initial env).toStores (System.initial env).pub [] :=
  ⟨Informer.sound_create _, Informer.sound_create _, nofun, nofun⟩

theorem runsSound_step (h : RunsSound env s.toStores s.pub s.inProgress) (hs : RunsStep env.lib s t) :
    RunsSound env t.toStores t.pub t.inProgress := by
  refine hs.keeps h ?_ ?_ ?_
  · intro stores' hl h
    exact ⟨hl.svc_sound _ h.svc, hl.ep_sound _ h.ep, fun pc hpc => (h.active pc hpc).later hl,
      fun p hp => (h.published p hp).later hl⟩
  · intro h
    refine ⟨h.svc, h.ep, fun pc hpc => ?_, h.published⟩
    obtain rfl := List.mem_singleton.mp hpc
    trivial
  · intro pc e pub' progress _ hstep h
    have hpc := h.active pc (List.mem_singleton_self pc)
    obtain ⟨hpub', hactive'⟩ := sound_runStep hstep h.svc h.ep hpc h.published
    exact ⟨h.svc, h.ep, hactive', hpub'⟩

theorem Reachable.runsStep {a : Action} (h : Reachable env s) (hs : s.step env.lib a = some t) :
    RunsStep env.lib s t := runs_of_step h.control (System.step_cases hs).2

theorem Reachable.runsSound (h : Reachable env s) : RunsSound env s.toStores s.pub s.inProgress :=
  Reach.invariant (fun s : System => RunsSound env s.toStores s.pub s.inProgress) runsSound_initial
    (fun _ _ _ hr hi _ hs => runsSound_step hi (Reachable.runsStep hr hs)) h

end
end HalfMesh
