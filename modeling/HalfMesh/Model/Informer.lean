import HalfMesh.Foundations.Outcome
import HalfMesh.Model.Kube

/-! One informer with its handler, and the channel the handler sends on (`startKubeWatchers` and
`updateFunc` in `kube.go`). The goroutine of an informer takes one change after the other: it
applies the change to its indexer, then runs the handler, and only then takes the next one. The
order in which the objects of the initial list and later changes reach it is left open, and it may
go on delivering after the context is cancelled, until it stops. Every hour (`time.Hour`) the
informer also resyncs: it hands each object of the indexer to the handler once more, unchanged.
There is no clock here, so a resync may come at any moment. -/
namespace HalfMesh
open HalfMesh.Foundations HalfMesh.Kube
set_option autoImplicit false
set_option maxHeartbeats 250000
set_option maxRecDepth 120000

/-- `updateChan`, a channel of capacity 1. -/
structure UpdateChan where
  token : Bool
  closed : Bool

/-- `select { case updateChan <- struct{}{}: default: }`. A full channel drops the value, a closed
one is always ready to be sent on, and the send panics. -/
def UpdateChan.trySend (ch : UpdateChan) : Except Panic UpdateChan :=
  if ch.closed then .error .sendOnClosedChannel else .ok { ch with token := true }

inductive InformerPC
  | notStarted
  | idle
  -- the object is in the indexer and the handler is about to load `ready`
  | applied
  -- the handler has found `ready` set and is about to send
  | sending
  | stopped
  deriving DecidableEq, Repr

/-- `pending` is what is still to come of the initial list, `log` the changes applied so far, and
`resyncs` counts the objects handed to the handler without a change. -/
structure Informer {α : Type} (keyOf : α → String) where
  pc : InformerPC
  pending : List α
  indexer : KeyedStore keyOf
  log : List (Change α String)
  resyncs : ℕ

inductive InformerEvent (α : Type)
  | applyInitial
  | apply (c : Change α String)
  -- the object of a key of the indexer is delivered again
  | resync (k : String)
  | handler
  | send
  | stop

namespace Informer
variable {α : Type} {keyOf : α → String}

def create (keyOf : α → String) (initial : List α) : Informer keyOf where
  pc := .notStarted
  pending := initial
  indexer := ∅
  log := []
  resyncs := 0

/-- `go informer.Run(ctx.Done())`. -/
def launch (i : Informer keyOf) : Informer keyOf := { i with pc := .idle }

def hasSynced (i : Informer keyOf) : Bool := i.pending.isEmpty

def change (i : Informer keyOf) (c : Change α String) : Informer keyOf :=
  { i with pc := .applied, indexer := i.indexer.apply c, log := i.log ++ [c] }

/-- The indexer gets back the object it has, and the handler is called as for a change. -/
def resync (i : Informer keyOf) : Informer keyOf := { i with pc := .applied, resyncs := i.resyncs + 1 }

def step (ready cancelled : Bool) (ch : UpdateChan) (i : Informer keyOf) :
    InformerEvent α → Option (Except Panic (Informer keyOf × UpdateChan))
  | .applyInitial =>
    match i.pc, i.pending with
    | .idle, o :: rest => some (.ok ({ i.change (.set o) with pending := rest }, ch))
    | _, _ => none
  | .apply c => if i.pc = .idle then some (.ok (i.change c, ch)) else none
  | .resync k =>
    if i.pc = .idle ∧ (i.indexer.items.lookup k).isSome then some (.ok (i.resync, ch)) else none
  | .handler =>
    if i.pc = .applied then some (.ok ({ i with pc := if ready then .sending else .idle }, ch)) else none
  | .send => if i.pc = .sending then some (ch.trySend.map fun ch' => ({ i with pc := .idle }, ch')) else none
  | .stop => if i.pc = .idle ∧ cancelled then some (.ok ({ i with pc := .stopped }, ch)) else none

/-! ## What one step does -/

inductive Step (ready cancelled : Bool) (ch : UpdateChan) (i : Informer keyOf) :
    InformerEvent α → Except Panic (Informer keyOf × UpdateChan) → Prop
  | applyInitial {o : α} {rest : List α} : i.pc = .idle → i.pending = o :: rest →
      Step ready cancelled ch i .applyInitial (.ok ({ i.change (.set o) with pending := rest }, ch))
  | apply {c : Change α String} : i.pc = .idle → Step ready cancelled ch i (.apply c) (.ok (i.change c, ch))
  | resync {k : String} : i.pc = .idle → (i.indexer.items.lookup k).isSome →
      Step ready cancelled ch i (.resync k) (.ok (i.resync, ch))
  | skip : i.pc = .applied → ready = false →
      Step ready cancelled ch i .handler (.ok ({ i with pc := .idle }, ch))
  | handler : i.pc = .applied → ready = true →
      Step ready cancelled ch i .handler (.ok ({ i with pc := .sending }, ch))
  | send : i.pc = .sending → ch.closed = false →
      Step ready cancelled ch i .send (.ok ({ i with pc := .idle }, { ch with token := true }))
  | sendClosed : i.pc = .sending → ch.closed = true →
      Step ready cancelled ch i .send (.error .sendOnClosedChannel)
  | stop : i.pc = .idle → cancelled = true →
      Step ready cancelled ch i .stop (.ok ({ i with pc := .stopped }, ch))

variable {ready cancelled : Bool} {ch ch' : UpdateChan} {i i' : Informer keyOf} {e : InformerEvent α}

theorem step_cases {out : Except Panic (Informer keyOf × UpdateChan)}
    (h : i.step ready cancelled ch e = some out) : Step ready cancelled ch i e out := by
  cases e with
  | applyInitial =>
    simp only [step] at h
    split at h
    · next o rest hpc hpending =>
      cases h
      exact .applyInitial hpc hpending
    · cases h
  | apply c =>
    obtain ⟨hpc, hout⟩ := Option.ite_none_right_eq_some.mp h
    cases hout
    exact .apply hpc
  | resync k =>
    obtain ⟨⟨hpc, hin⟩, hout⟩ := Option.ite_none_right_eq_some.mp h
    cases hout
    exact .resync hpc hin
  | handler =>
    obtain ⟨hpc, hout⟩ := Option.ite_none_right_eq_some.mp h
    cases hout
    cases ready with
    | true => exact .handler hpc rfl
    | false => exact .skip hpc rfl
  | send =>
    obtain ⟨hpc, hout⟩ := Option.ite_none_right_eq_some.mp h
    cases hc : ch.closed with
    | true =>
      have ht : ch.trySend = .error .sendOnClosedChannel := by simp [UpdateChan.trySend, hc]
      rw [ht] at hout
      cases hout
      exact .sendClosed hpc hc
    | false =>
      have ht : ch.trySend = .ok { ch with token := true } := by simp [UpdateChan.trySend, hc]
      rw [ht] at hout
      cases hout
      exact .send hpc hc
  | stop =>
    obtain ⟨⟨hpc, hcancel⟩, hout⟩ := Option.ite_none_right_eq_some.mp h
    cases hout
    exact .stop hpc hcancel

/-- The indexer holds what its log says, and what has gone from the initial list is in the log. -/
structure Sound (initial : List α) (i : Informer keyOf) : Prop where
  logged : i.indexer = KeyedStore.replay keyOf i.log
  listed : ∀ o ∈ initial, o ∈ i.pending ∨ Change.set o ∈ i.log

theorem sound_create (initial : List α) : (create keyOf initial).Sound initial :=
  ⟨rfl, fun _ ho => .inl ho⟩

/-- A change or a resync whose handler has not made its send yet. -/
def InFlight (i : Informer keyOf) : Prop := i.pc = .applied ∨ i.pc = .sending

theorem log_of_step (h : Step ready cancelled ch i e (.ok (i', ch'))) : i.log <+: i'.log := by
  cases h with
  | applyInitial _ _ => exact List.prefix_append _ _
  | apply _ => exact List.prefix_append _ _
  | resync _ _ => exact List.prefix_refl _
  | skip _ _ => exact List.prefix_refl _
  | handler _ _ => exact List.prefix_refl _
  | send _ _ => exact List.prefix_refl _
  | stop _ _ => exact List.prefix_refl _

theorem sound_change {initial : List α} (h : i.Sound initial) (c : Change α String) :
    (i.change c).Sound initial := by
  refine ⟨?_, fun o ho => ?_⟩
  · have hlog := h.logged
    simp only [change]
    rw [hlog, KeyedStore.replay_snoc]
  · rcases h.listed o ho with hp | hl
    · exact .inl hp
    · exact .inr (List.mem_append_left _ hl)

theorem sound_step {initial : List α} (h : i.Sound initial)
    (hs : Step ready cancelled ch i e (.ok (i', ch'))) : i'.Sound initial := by
  cases hs with
  | @applyInitial o rest _ hp =>
    have hc := sound_change h (.set o)
    refine ⟨hc.logged, fun o' ho' => ?_⟩
    rcases hc.listed o' ho' with hin | hl
    · have hin' : o' ∈ o :: rest := hp ▸ hin
      rcases List.mem_cons.mp hin' with rfl | hrest
      · exact .inr (List.mem_append_right _ (List.mem_singleton_self _))
      · exact .inl hrest
    · exact .inr hl
  | apply _ => exact sound_change h _
  | resync _ _ => exact ⟨h.logged, h.listed⟩
  | skip _ _ => exact ⟨h.logged, h.listed⟩
  | handler _ _ => exact ⟨h.logged, h.listed⟩
  | send _ _ => exact ⟨h.logged, h.listed⟩
  | stop _ _ => exact ⟨h.logged, h.listed⟩

theorem pending_of_step (hs : Step ready cancelled ch i e (.ok (i', ch'))) (h : i.pending = []) :
    i'.pending = [] := by
  cases hs with
  | applyInitial _ hp =>
    rw [h] at hp
    cases hp
  | apply _ => exact h
  | resync _ _ => exact h
  | skip _ _ => exact h
  | handler _ _ => exact h
  | send _ _ => exact h
  | stop _ _ => exact h

/-- A step leaves a notification behind it, or it changes nothing that readers see and takes none
away. Only a handler that finds `ready` off drops its notification. -/
theorem notification_of_step (hs : Step ready cancelled ch i e (.ok (i', ch'))) (hr : ready = true) :
    (i'.InFlight ∨ ch'.token = true) ∨
      (i'.indexer = i.indexer ∧ ch'.token = ch.token ∧ ¬ i.InFlight) := by
  cases hs with
  | applyInitial _ _ => exact .inl (.inl (.inl rfl))
  | apply _ => exact .inl (.inl (.inl rfl))
  | resync _ _ => exact .inl (.inl (.inl rfl))
  | skip _ hoff =>
    rw [hr] at hoff
    cases hoff
  | handler _ _ => exact .inl (.inl (.inr rfl))
  | send _ _ => exact .inl (.inr rfl)
  | stop hpc _ =>
    refine .inr ⟨rfl, rfl, ?_⟩
    intro hf
    rw [InFlight, hpc] at hf
    rcases hf with hf | hf <;> cases hf

theorem chan_of_step (hs : Step ready cancelled ch i e (.ok (i', ch'))) :
    ch'.closed = ch.closed ∧ (ch.token = true → ch'.token = true) := by
  cases hs with
  | applyInitial _ _ => exact ⟨rfl, id⟩
  | apply _ => exact ⟨rfl, id⟩
  | resync _ _ => exact ⟨rfl, id⟩
  | skip _ _ => exact ⟨rfl, id⟩
  | handler _ _ => exact ⟨rfl, id⟩
  | send _ _ => exact ⟨rfl, fun _ => rfl⟩
  | stop _ _ => exact ⟨rfl, id⟩

end Informer
end HalfMesh
