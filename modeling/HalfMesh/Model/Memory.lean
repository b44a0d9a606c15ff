import HalfMesh.Foundations.Heap
import HalfMesh.Foundations.Outcome
import HalfMesh.Model.MeshServices

/-! `MeshServices` as it lies in memory: a map of pointers to mesh services, each with a map of
pointers to its providers. `Register` follows a pointer and assigns to the object it finds there.
No two mesh names share an object, so the map of values that the rest of the development works on
is what this memory stands for (`Memory.Denotes`), and what holds of the one holds of the other. -/
namespace HalfMesh
open HalfMesh.Foundations HalfMesh.Kube HalfMesh.Xds
set_option autoImplicit false
set_option maxHeartbeats 250000
set_option maxRecDepth 120000

/-- `meshService`, whose `providers` is a `map[string]*meshServiceProvider`. -/
structure MeshServiceObject where
  name : String
  providers : GoMap String (Ptr MeshServiceProvider)

/-- A `map[string]*meshService` and the objects that are reached from it. -/
structure Memory where
  mss : GoMap String (Ptr MeshServiceObject)
  meshServices : Heap MeshServiceObject
  providers : Heap MeshServiceProvider

namespace Memory

def empty : Memory := { mss := ∅, meshServices := ∅, providers := ∅ }

/-- `mss[name] = &meshService{name: name, providers: make(...)}`. -/
def create (mem : Memory) (name : String) : Memory :=
  { mem with
    mss := mem.mss.insert name mem.meshServices.fresh
    meshServices := mem.meshServices.alloc { name := name, providers := ∅ } }

/-- `mss[name].providers[clusterName] = &provider`. A missing key reads as a nil pointer. -/
def assign (mem : Memory) (name clusterName : String) (provider : MeshServiceProvider) : Outcome Memory :=
  match mem.mss.lookup name with
  | none => .panic .nilDereference
  | some p =>
    match mem.meshServices.load p with
    | none => .panic .nilDereference
    | some ms => .ok { mem with
        meshServices := mem.meshServices.store p
          { ms with providers := ms.providers.insert clusterName mem.providers.fresh }
        providers := mem.providers.alloc provider }

def register (mem : Memory) (svc : Service) (cfg : MeshServiceConfig) (ips : List String) : Outcome Memory :=
  let mem := if (mem.mss.lookup cfg.provides).isSome then mem else mem.create cfg.provides
  let clusterName := svc.ns ++ "/" ++ svc.name
  mem.assign cfg.provides clusterName {
    cluster := { name := clusterName, weight := cfg.weight }
    endpoints := getEndpointsForIPs cfg ips }

def call (mem : Memory) (call : RegisterCall) : Outcome Memory := mem.register call.svc call.cfg call.ips

def registerAll (calls : List RegisterCall) : Outcome Memory := Outcome.foldlM call empty calls

/-- The object that the pointer under a mesh name leads to. -/
def meshService (mem : Memory) (m : String) : Option MeshServiceObject :=
  (mem.mss.lookup m).bind mem.meshServices.load

/-- The provider that the pointers under a mesh name and a cluster name lead to. -/
def provider (mem : Memory) (m c : String) : Option MeshServiceProvider :=
  (mem.meshService m).bind fun ms => (ms.providers.lookup c).bind mem.providers.load

end Memory

/-! ## What a memory stands for -/

structure MeshServiceObject.Denotes (heap : Heap MeshServiceProvider) (obj : MeshServiceObject) (ms : MeshService) :
    Prop where
  name : obj.name = ms.name
  providers : PointsTo Eq heap obj.providers ms.providers

structure Memory.Denotes (mem : Memory) (mss : MeshServices) : Prop where
  objects : PointsTo (MeshServiceObject.Denotes mem.providers) mem.meshServices mem.mss mss
  unshared : Unshared mem.mss

section
variable {mem mem' : Memory} {mss : MeshServices}

theorem denotes_empty : Memory.empty.Denotes ∅ := ⟨pointsTo_empty, unshared_empty⟩

theorem MeshServiceObject.Denotes.alloc {heap : Heap MeshServiceProvider} {obj : MeshServiceObject} {ms : MeshService}
    (h : obj.Denotes heap ms) (provider : MeshServiceProvider) : obj.Denotes (heap.alloc provider) ms :=
  ⟨h.name, h.providers.alloc provider⟩

theorem denotes_create (h : mem.Denotes mss) (name : String) :
    (mem.create name).Denotes (mss.insert name { name := name, providers := ∅ }) where
  objects := h.objects.insert ⟨rfl, pointsTo_empty⟩ name
  unshared := h.objects.unshared_insert h.unshared name

/-- The assignment finds its object, and is a `mutate` of the map of values. -/
theorem denotes_assign (h : mem.Denotes mss) {name : String} (hname : (mss.lookup name).isSome)
    (clusterName : String) (provider : MeshServiceProvider) : ∃ mem',
      mem.assign name clusterName provider = .ok mem' ∧ mem'.Denotes (mutate mss name fun ms =>
        { ms with providers := ms.providers.insert clusterName provider }) := by
  obtain ⟨ms, hms⟩ := Option.isSome_iff_exists.mp hname
  obtain ⟨p, obj, hp, hobj, hden⟩ := h.objects.of_value hms
  have hnew : MeshServiceObject.Denotes (mem.providers.alloc provider)
      { obj with providers := obj.providers.insert clusterName mem.providers.fresh }
      { ms with providers := ms.providers.insert clusterName provider } :=
    ⟨hden.name, hden.providers.insert rfl clusterName⟩
  -- the other objects point into the same heap of providers
  have hothers : PointsTo (MeshServiceObject.Denotes (mem.providers.alloc provider)) mem.meshServices mem.mss mss :=
    h.objects.mono fun _ _ hd => hd.alloc provider
  refine ⟨{ mem with
    meshServices := mem.meshServices.store p
      { obj with providers := obj.providers.insert clusterName mem.providers.fresh }
    providers := mem.providers.alloc provider }, ?_, ?_, h.unshared⟩
  · simp only [Memory.assign, hp, hobj]
  · simp only [mutate, hms]
    exact hothers.store h.unshared hp hnew

/-- `Register` on the memory is `register` on the map of values, and never dereferences nil. -/
theorem denotes_register (h : mem.Denotes mss) (svc : Service) (cfg : MeshServiceConfig) (ips : List String) :
    ∃ mem', mem.register svc cfg ips = .ok mem' ∧ mem'.Denotes (mss.register svc cfg ips) := by
  unfold Memory.register MeshServices.register
  rw [h.objects.isSome_eq]
  by_cases hthere : (mss.lookup cfg.provides).isSome
  · rw [if_pos hthere, if_pos hthere]
    exact denotes_assign h hthere _ _
  · rw [if_neg hthere, if_neg hthere]
    refine denotes_assign (denotes_create h cfg.provides) ?_ _ _
    rw [AList.lookup_insert]
    rfl

theorem denotes_foldlM (calls : List RegisterCall) (h : mem.Denotes mss) :
    ∃ mem', Outcome.foldlM Memory.call mem calls = .ok mem' ∧ mem'.Denotes (calls.foldl MeshServices.call mss) := by
  induction calls generalizing mem mss with
  | nil => exact ⟨mem, rfl, h⟩
  | cons call calls ih =>
    obtain ⟨mem₁, hcall, h₁⟩ := denotes_register h call.svc call.cfg call.ips
    obtain ⟨mem₂, hcalls, h₂⟩ := ih h₁
    refine ⟨mem₂, ?_, h₂⟩
    rw [Outcome.foldlM, Memory.call, hcall, Outcome.bind_ok, hcalls]

/-- Any sequence of calls returns, and leaves a memory that stands for the map of values. -/
theorem denotes_registerAll (calls : List RegisterCall) :
    ∃ mem, Memory.registerAll calls = .ok mem ∧ mem.Denotes (MeshServices.registerAll calls) :=
  denotes_foldlM calls denotes_empty

/-! ## Reading through the pointers -/

theorem Memory.Denotes.meshService (h : mem.Denotes mss) {m : String} {obj : MeshServiceObject}
    (hobj : mem.meshService m = some obj) : ∃ ms, mss.lookup m = some ms ∧ obj.Denotes mem.providers ms := by
  obtain ⟨p, hp, hload⟩ := Option.bind_eq_some_iff.mp hobj
  obtain ⟨obj', ms, hload', hms, hden⟩ := h.objects.leads m p hp
  obtain rfl := Option.some.inj (hload.symm.trans hload')
  exact ⟨ms, hms, hden⟩

theorem Memory.Denotes.provider (h : mem.Denotes mss) (m c : String) : mem.provider m c = mss.provider m c := by
  unfold Memory.provider MeshServices.provider
  cases hms : mss.lookup m with
  | none =>
    cases hobj : mem.meshService m with
    | none => rfl
    | some obj =>
      obtain ⟨ms, hms', _⟩ := h.meshService hobj
      rw [hms] at hms'
      cases hms'
  | some ms =>
    obtain ⟨p, obj, hp, hload, hden⟩ := h.objects.of_value hms
    have hobj : mem.meshService m = some obj := by rw [Memory.meshService, hp, Option.bind_some, hload]
    rw [hobj, Option.bind_some, Option.bind_some]
    cases hq : obj.providers.lookup c with
    | none => rw [hden.providers.missing c hq, Option.bind_none]
    | some q =>
      obtain ⟨y, x, hy, hx, rfl⟩ := hden.providers.leads c q hq
      rw [hx, Option.bind_some, hy]

end

/-! ## The representation invariant -/

/-- What a memory looks like after the calls of a list. -/
structure RepresentationInvariant (calls : List RegisterCall) (mem : Memory) : Prop where
  provided : ∀ m c, (mem.provider m c).isSome ↔ ∃ call ∈ calls, call.cfg.provides = m ∧ call.svc.key = c
  /-- A pair of names holds what its last call stored there, the weight in both places. -/
  last : ∀ before call after, calls = before ++ call :: after →
    (∀ later ∈ after, ¬ (later.cfg.provides = call.cfg.provides ∧ later.svc.key = call.svc.key)) →
    ∃ provider, mem.provider call.cfg.provides call.svc.key = some provider ∧
      provider.cluster.name = call.svc.key ∧ provider.cluster.weight = call.cfg.weight ∧
      provider.endpoints.loadBalancingWeight = call.cfg.weight ∧
      provider.endpoints.lbEndpoints.map (fun e => (e.address.address, e.address.portValue)) =
        call.ips.map fun ip => (ip, call.cfg.port)
  named : ∀ m ms, mem.meshService m = some ms → ms.name = m
  nonempty : ∀ m ms, mem.meshService m = some ms → ∃ c, (ms.providers.lookup c).isSome
  /-- No pointer is nil or leads nowhere. -/
  live : (∀ m p, mem.mss.lookup m = some p → (mem.meshServices.load p).isSome) ∧
    ∀ m ms c p, mem.meshService m = some ms → ms.providers.lookup c = some p → (mem.providers.load p).isSome

section
variable {mem : Memory} {calls : List RegisterCall}

theorem hits_iff {m c : String} {call : RegisterCall} :
    call.hits m c = true ↔ call.cfg.provides = m ∧ call.svc.key = c := by
  rw [RegisterCall.hits, decide_eq_true_iff]
  exact and_congr eq_comm eq_comm

theorem provider_of_registerAll (h : mem.Denotes (MeshServices.registerAll calls)) (m c : String) :
    mem.provider m c = (calls.filter (RegisterCall.hits m c)).getLast?.map RegisterCall.provider := by
  rw [h.provider, provider_registerAll]

theorem getLast?_filter_of_last {α : Type} (p : α → Bool) (before after : List α) {x : α} (hx : p x = true)
    (hafter : ∀ y ∈ after, p y = false) : ((before ++ x :: after).filter p).getLast? = some x := by
  have hnil : after.filter p = [] := by
    rw [List.filter_eq_nil_iff]
    intro y hy
    simp [hafter y hy]
  rw [List.filter_append, List.filter_cons, if_pos hx, hnil, List.getLast?_concat]

theorem representationInvariant_of_denotes (h : mem.Denotes (MeshServices.registerAll calls)) :
    RepresentationInvariant calls mem where
  provided m c := by
    rw [provider_of_registerAll h, Option.isSome_map, List.getLast?_isSome, ne_eq, List.filter_eq_nil_iff]
    simp only [not_forall, not_not, hits_iff, exists_prop]
  last before call after hcalls hafter := by
    have hmiss : ∀ later ∈ after, later.hits call.cfg.provides call.svc.key = false := by
      intro later hl
      rw [Bool.eq_false_iff]
      exact fun hhit => hafter later hl (hits_iff.mp hhit)
    have hlast := getLast?_filter_of_last (RegisterCall.hits call.cfg.provides call.svc.key) before after
      (hits_iff.mpr ⟨rfl, rfl⟩) hmiss
    refine ⟨call.provider, ?_, rfl, rfl, rfl, ?_⟩
    · rw [provider_of_registerAll h, hcalls, hlast, Option.map_some]
    · simp [RegisterCall.provider, newProvider, getEndpointsForIPs]
  named m obj hobj := by
    obtain ⟨ms, hms, hden⟩ := h.meshService hobj
    rw [hden.name]
    exact (wellFormed_registerAll calls m ms hms).1
  nonempty m obj hobj := by
    obtain ⟨ms, hms, hden⟩ := h.meshService hobj
    obtain ⟨_, c, _, hc⟩ := wellFormed_registerAll calls m ms hms
    refine ⟨c, ?_⟩
    rw [hden.providers.isSome_eq, hc]
    rfl
  live := by
    refine ⟨fun m p hp => ?_, fun m obj c p hobj hp => ?_⟩
    · obtain ⟨obj, _, hobj, _, _⟩ := h.objects.leads m p hp
      rw [hobj]
      rfl
    · obtain ⟨ms, _, hden⟩ := h.meshService hobj
      obtain ⟨provider, _, hprovider, _, _⟩ := hden.providers.leads c p hp
      rw [hprovider]
      rfl

end

/-- Any sequence of `Register` calls on an empty `MeshServices` returns and leaves the last
registration of every pair of names, and one more call changes no other pair. -/
theorem register_represents (calls : List RegisterCall) :
    ∃ mem, Memory.registerAll calls = .ok mem ∧ RepresentationInvariant calls mem ∧
      ∀ call, ∃ mem', mem.call call = .ok mem' ∧ ∀ m c, ¬ (call.cfg.provides = m ∧ call.svc.key = c) →
        mem'.provider m c = mem.provider m c := by
  obtain ⟨mem, hmem, hden⟩ := denotes_registerAll calls
  refine ⟨mem, hmem, representationInvariant_of_denotes hden, fun call => ?_⟩
  obtain ⟨mem', hcall, hden'⟩ := denotes_register hden call.svc call.cfg call.ips
  refine ⟨mem', hcall, fun m c hother => ?_⟩
  rw [hden'.provider, hden.provider, provider_register]
  exact if_neg fun hsame => hother ⟨hsame.1.symm, hsame.2.symm⟩

end HalfMesh
