import HalfMesh.Slides.Console
import HalfMesh.Slides.Clicks

/-! The programs that a window has run. Whatever is done in the windows, a playground has its program
killed before it runs another one. -/
namespace HalfMesh.Slides
open HalfMesh.Foundations
set_option autoImplicit false
set_option maxHeartbeats 250000
set_option maxRecDepth 120000

/-! ## Requests in order -/

/-- The requests of one playground. -/
def requestsOf (index : ℕ) (requests : List (ℕ × Request)) : List Request :=
  requests.filterMap fun x => if x.1 = index then some x.2 else none

theorem requestsOf_concat (i index : ℕ) (requests : List (ℕ × Request)) (r : Request) :
    requestsOf i (requests ++ [(index, r)]) =
      if index = i then requestsOf i requests ++ [r] else requestsOf i requests := by
  by_cases hi : index = i <;> simp [requestsOf, hi]

/-- A request that may come next: a program is killed if there is one, and run if there is none or the
last request was to kill it. -/
def MayAsk (l : List Request) : Request → Prop
  | .run _ => l = [] ∨ l.getLast? = some .kill
  | .kill => l ≠ []

def Orderly (requests : List (ℕ × Request)) : Prop :=
  ∀ before after index r, requests = before ++ (index, r) :: after → MayAsk (requestsOf index before) r

theorem orderly_nil : Orderly [] := by
  intro before after index r h
  simp at h

theorem orderly_concat {requests : List (ℕ × Request)} {index : ℕ} {r : Request} :
    Orderly (requests ++ [(index, r)]) ↔ Orderly requests ∧ MayAsk (requestsOf index requests) r := by
  constructor
  · intro h
    refine ⟨fun before after index' r' hr => ?_, h requests [] index r rfl⟩
    exact h before (after ++ [(index, r)]) index' r' (by simp [hr])
  · rintro ⟨h, hask⟩ before after index' r' hr
    rcases List.eq_nil_or_concat after with rfl | ⟨after', x, rfl⟩
    · obtain ⟨rfl, hx⟩ := List.append_inj' hr rfl
      simp only [List.cons.injEq, Prod.mk.injEq, and_true] at hx
      obtain ⟨rfl, rfl⟩ := hx
      exact hask
    · rw [List.concat_eq_append, ← List.cons_append, ← List.append_assoc] at hr
      exact h before after' index' r' (List.append_inj' hr rfl).1

/-- The playgrounds that run something are those that have asked for something, all in order. -/
structure InOrder (x : Play) : Prop where
  orderly : Orderly x.requests
  running : ∀ i, x.playgrounds[i]?.map Prod.fst = some true ↔ requestsOf i x.requests ≠ []

variable {x : Play}

theorem InOrder.kill (h : InOrder x) (index : ℕ) :
    InOrder (x.kill index) ∧ MayAsk (requestsOf index (x.kill index).requests) (.run true) := by
  unfold Play.kill
  split
  · next hrunning =>
    have hsome := (h.running index).mp hrunning
    refine ⟨⟨orderly_concat.mpr ⟨h.orderly, hsome⟩, fun i => ?_⟩, .inr ?_⟩
    · rw [h.running, requestsOf_concat]
      split_ifs with hi
      · subst hi
        simp [hsome]
      · rfl
    · simp [requestsOf_concat]
  · next hrunning =>
    rw [h.running, not_not] at hrunning
    exact ⟨h, .inl hrunning⟩

theorem InOrder.act (h : InOrder x) {c : Click} (hlt : c.index < x.playgrounds.length) : InOrder (x.act c) := by
  obtain ⟨hkill, hmay⟩ := h.kill c.index
  have hlen : (x.kill c.index).playgrounds.length = x.playgrounds.length := by
    unfold Play.kill
    split <;> rfl
  unfold Play.act
  dsimp only
  split
  · refine ⟨orderly_concat.mpr ⟨hkill.orderly, hmay⟩, fun i => ?_⟩
    dsimp only
    rw [requestsOf_concat, List.getElem?_modify]
    split_ifs with hi
    · subst hi
      rw [List.getElem?_eq_getElem (hlen ▸ hlt)]
      simp
    · simpa using hkill.running i
  · exact hkill
  · refine ⟨hkill.orderly, fun i => ?_⟩
    dsimp only
    rw [← hkill.running, List.getElem?_modify]
    cases (x.kill c.index).playgrounds[i]? with
    | none => simp
    | some pl => by_cases hi : c.index = i <;> simp [hi]

/-! ## Every window -/

section
variable {ι : Type} {p : Presentation} {w w' : World ι} {st : LocalStorage ι} {j : ι} {sw : SlidesWindow ι}
  {e : Event} {I : Play → Prop}

def AllPlays (I : Play → Prop) (w : World ι) : Prop := ∀ j sw, w.windows j = some (.slides sw) → I sw.play

theorem AllPlays.mono (h : AllPlays I w) (hslides : ∀ j sw, w'.windows j = some (.slides sw) → w.windows j = some (.slides sw)) :
    AllPlays I w' := fun j sw hwin => h j sw (hslides j sw hwin)

variable [DecidableEq ι]

theorem AllPlays.setSlides (h : AllPlays I w) {x : SlidesWindow ι × LocalStorage ι} (hx : I x.1.play) :
    AllPlays I (w.setSlides j x) := by
  intro i sw hwin
  rw [World.windows_setSlides] at hwin
  by_cases hi : i = j
  · subst hi
    rw [Function.update_self] at hwin
    obtain rfl := Window.slides.inj (Option.some.inj hwin)
    exact hx
  · rw [Function.update_of_ne hi] at hwin
    exact h i sw hwin

theorem AllPlays.closeWindow (h : AllPlays I w) (j : ι) : AllPlays I (w.closeWindow j) := by
  refine h.mono fun i sw hwin => ?_
  rw [World.windows_closeWindow] at hwin
  by_cases hi : i = j
  · subst hi
    simp at hwin
  · rwa [Function.update_of_ne hi] at hwin

theorem AllPlays.closeNotes (h : AllPlays I w) (notesWindow : NotesWindow ι) : AllPlays I (w.closeNotes notesWindow) := by
  unfold World.closeNotes
  split
  · exact (h.closeWindow _).closeWindow _
  · exact h.closeWindow _

theorem AllPlays.openNotes (h : AllPlays I w) (n : ι) (innerHTML : String) :
    AllPlays I (w.openWindow n (.notes innerHTML)) := by
  refine h.mono fun i sw hwin => ?_
  rw [World.windows_openWindow] at hwin
  by_cases hi : i = n
  · subst hi
    simp at hwin
  · rwa [Function.update_of_ne hi] at hwin

/-- A window's own click, or one it is told of, is a click at one of its playgrounds. -/
theorem play_updatePlay {y : SlidesWindow ι × LocalStorage ι} (h : I sw.play)
    (hact : ∀ x c, I x → c.index < x.playgrounds.length → I (x.act c)) (hy : sw.updatePlay st j e = some y) :
    I y.1.play := by
  unfold SlidesWindow.updatePlay at hy
  split at hy
  · split at hy
    · obtain ⟨hlt, hy⟩ := Option.ite_none_right_eq_some.mp hy
      obtain rfl := Option.some.inj hy
      rw [SlidesWindow.play_playgroundHandler]
      refine hact _ _ h ?_
      rwa [SlidesWindow.length_play]
    · cases hy
  · split at hy
    · obtain ⟨_, hy⟩ := Option.ite_none_right_eq_some.mp hy
      obtain rfl := Option.some.inj hy
      rw [SlidesWindow.play_modify_innerHTML]
      exact h
    · cases hy
  · obtain rfl := Option.some.inj hy
    exact h

theorem play_updateOtherWindow (h : I sw.play) (hact : ∀ x c, I x → c.index < x.playgrounds.length → I (x.act c)) :
    I (sw.updateOtherWindow st j e).1.play := by
  cases hremove : isRemoveStorageEvent e with
  | true =>
    rw [updateOtherWindow_remove hremove]
    exact h
  | false =>
    rcases updateOtherWindow_cases (j := j) hremove st.goal_eq rfl with ⟨_, hx⟩ | ⟨_, ⟨y, hplay, hx⟩ | ⟨_, hx⟩⟩
    · rw [hx]
      exact h
    · rw [hx]
      have hset : I (sw.setDeck st j (sw.deck.goTo st.goal).1).1.play := h
      exact play_updatePlay hset hact hplay
    · rw [hx]
      exact h

theorem play_load (p : Presentation) (st : LocalStorage ι) (j : ι) (slideNo : Option ℤ) (isParentWindow : Bool) :
    (p.load st j slideNo isParentWindow).1.play =
      { playgrounds := List.replicate p.playgrounds.length (false, false), requests := [] } := by
  simp [Presentation.load, SlidesWindow.play, SlidesWindow.setDeck, Function.comp_def]

theorem AllPlays.toggleNotesWindow (h : AllPlays I w) {n : ι} (hplay : I sw.play)
    (hs : w.toggleNotesWindow p j n sw = some w') : AllPlays I w' := by
  unfold World.toggleNotesWindow at hs
  split at hs
  · split at hs
    · obtain rfl := Option.some.inj hs
      refine (h.setSlides ?_).closeNotes _
      exact hplay
    · obtain ⟨_, hs⟩ := Option.ite_none_right_eq_some.mp hs
      obtain rfl := Option.some.inj hs
      refine (h.setSlides ?_).openNotes _ _
      exact hplay
  · obtain rfl := Option.some.inj hs
    exact h

theorem AllPlays.close (h : AllPlays I w) (hs : w.close j sw = some w') : AllPlays I w' := by
  obtain ⟨_, hs⟩ := Option.ite_none_right_eq_some.mp hs
  obtain rfl := Option.some.inj hs
  refine AllPlays.closeWindow ?_ j
  split
  · exact AllPlays.closeNotes (w := { w with storage := w.storage.clear j }) h _
  · exact h

theorem AllPlays.deliver (h : AllPlays I w) (hact : ∀ x c, I x → c.index < x.playgrounds.length → I (x.act c))
    (hs : w.deliver p j = some w') : AllPlays I w' := by
  obtain ⟨e, es, hevents, hcases⟩ := deliver_cases hs
  rcases hcases with ⟨innerHTML, hwin, rfl⟩ | ⟨sw, hwin, _, x, rfl, rfl⟩
  · refine h.mono fun i sw hi => ?_
    by_cases hij : i = j
    · subst hij
      simp at hi
    · dsimp only at hi
      rwa [Function.update_of_ne hij] at hi
  · have hset := AllPlays.setSlides (j := j) h (x := ((sw.updateOtherWindow (w.storage.read j) j e).1,
      (sw.updateOtherWindow (w.storage.read j) j e).2.1)) (play_updateOtherWindow (h j sw hwin) hact)
    split
    · exact hset.mono fun i sw' hi => (slides_updateNotes _ _ _ _ _).mp hi
    · exact hset

/-- What holds of the playgrounds when a window is loaded and is kept by every click holds in every
window, whatever is done. -/
theorem allPlays_step {a : World.Action ι} (h : AllPlays I w)
    (hload : I { playgrounds := List.replicate p.playgrounds.length (false, false), requests := [] })
    (hact : ∀ x c, I x → c.index < x.playgrounds.length → I (x.act c)) (hs : w.step p a = some w') : AllPlays I w' := by
  cases a with
  | load j slideNo =>
    obtain ⟨_, hs⟩ := Option.ite_none_right_eq_some.mp hs
    obtain rfl := Option.some.inj hs
    refine h.setSlides ?_
    rw [play_load]
    exact hload
  | input j a =>
    obtain ⟨sw, hslides, hs⟩ := Option.bind_eq_some_iff.mp hs
    obtain ⟨deck, hdeck, rfl⟩ := Option.map_eq_some_iff.mp hs
    exact h.setSlides (h j sw (slides_eq_some.mp hslides).1)
  | toggleNotesWindow j n =>
    obtain ⟨sw, hslides, hs⟩ := Option.bind_eq_some_iff.mp hs
    exact h.toggleNotesWindow (h j sw (slides_eq_some.mp hslides).1) hs
  | frameLoaded j f =>
    obtain ⟨sw, hslides, hs⟩ := Option.bind_eq_some_iff.mp hs
    have hplay := h j sw (slides_eq_some.mp hslides).1
    unfold World.frameLoaded at hs
    split at hs
    · obtain ⟨_, hs⟩ := Option.ite_none_right_eq_some.mp hs
      obtain rfl := Option.some.inj hs
      refine (h.setSlides ?_).setSlides ?_
      · exact hplay
      · rw [play_load]
        exact hload
    · cases hs
  | close j =>
    obtain ⟨sw, hslides, hs⟩ := Option.bind_eq_some_iff.mp hs
    exact h.close hs
  | click j action index shiftKey =>
    obtain ⟨sw, hslides, hs⟩ := Option.bind_eq_some_iff.mp hs
    obtain ⟨hlt, hs⟩ := Option.ite_none_right_eq_some.mp hs
    obtain rfl := Option.some.inj hs
    refine h.setSlides ?_
    rw [SlidesWindow.play_playgroundHandler]
    refine hact _ _ (h j sw (slides_eq_some.mp hslides).1) ?_
    rwa [SlidesWindow.length_play]
  | edit j index innerHTML =>
    obtain ⟨sw, hslides, hs⟩ := Option.bind_eq_some_iff.mp hs
    obtain ⟨_, hs⟩ := Option.ite_none_right_eq_some.mp hs
    obtain rfl := Option.some.inj hs
    refine h.setSlides ?_
    show I { sw with playgrounds := sw.playgrounds.modify index fun pl => { pl with innerHTML := innerHTML } }.play
    rw [SlidesWindow.play_modify_innerHTML]
    exact h j sw (slides_eq_some.mp hslides).1
  | resize j =>
    obtain ⟨sw, hslides, rfl⟩ := Option.map_eq_some_iff.mp hs
    exact h.setSlides (h j sw (slides_eq_some.mp hslides).1)
  | deliver j => exact h.deliver hact hs

theorem inOrder_of_reach (h : Reach (World.step p) anyStep World.start w) : AllPlays InOrder w := by
  refine Reach.invariant (AllPlays InOrder) (fun j sw hwin => by cases hwin) (fun s a t _ hi _ hs => ?_) h
  refine allPlays_step hi ⟨orderly_nil, fun i => ?_⟩ (fun x c hx hlt => hx.act hlt) hs
  simp [requestsOf, List.getElem?_replicate]

end

/-! ## On the wire -/

def watchRequests (_ : Page) (a : Page.Action) (_ : Page) (requests : List (ℕ × Request)) : List (ℕ × Request) :=
  match a with
  | .request index r => requests ++ [(index, r)]
  | .message _ => requests

/-- A page that has carried out some requests, among messages of the server in any order. -/
def Serves (s : Page) (requests : List (ℕ × Request)) : Prop :=
  Reach (observe Page.step watchRequests) anyStep (Page.start, []) (s, requests)

/-- The packets so far: the programs of a playground are killed before the next one is run, and those
killed have been run. -/
def KillsFirst (t : SocketTransport) : Prop :=
  ∀ before after, (∀ n race, t.sent = before ++ .run n race :: after →
      ∀ m i, t.outputs m = some i → t.outputs n = some i → m < n → .kill m ∈ before) ∧
    ∀ n, t.sent = before ++ .kill n :: after → ∃ race, .run n race ∈ before

/-- The programs of the transport are those it has sent to be run. -/
structure Wired (t : SocketTransport) : Prop where
  fresh : ∀ n i, t.outputs n = some i → n < t.id
  sent : ∀ n race, .run n race ∈ t.sent → (t.outputs n).isSome
  ran : ∀ n i, t.outputs n = some i → ∃ race, .run n race ∈ t.sent
  killsFirst : KillsFirst t

theorem split_concat {α : Type} {l before after : List α} {x y : α} (h : l ++ [x] = before ++ y :: after) :
    (l = before ∧ x = y) ∨ ∃ after', l = before ++ y :: after' := by
  rcases List.eq_nil_or_concat after with rfl | ⟨after', z, rfl⟩
  · obtain ⟨hl, hx⟩ := List.append_inj' h rfl
    exact .inl ⟨hl, List.singleton_inj.mp hx⟩
  · rw [List.concat_eq_append, ← List.cons_append, ← List.append_assoc] at h
    exact .inr ⟨after', (List.append_inj' h rfl).1⟩

variable {t : SocketTransport}

theorem outputs_run_self (t : SocketTransport) (index : ℕ) (race : Bool) : (t.run index race).outputs t.id = some index :=
  Function.update_self ..

theorem outputs_run_of_ne (t : SocketTransport) (index : ℕ) (race : Bool) {n : ℕ} (h : n ≠ t.id) :
    (t.run index race).outputs n = t.outputs n := Function.update_of_ne h ..

theorem mem_sent_run {index : ℕ} {race : Bool} {packet : Packet} :
    packet ∈ (t.run index race).sent ↔ packet ∈ t.sent ∨ packet = .run t.id race := by
  simp [SocketTransport.run]

theorem mem_sent_kill {thisID : ℕ} {packet : Packet} :
    packet ∈ (t.kill thisID).sent ↔ packet ∈ t.sent ∨ packet = .kill thisID := by
  simp [SocketTransport.kill]

theorem Wired.run (h : Wired t) {index : ℕ} {race : Bool} (hkilled : ∀ n, t.outputs n = some index → .kill n ∈ t.sent) :
    Wired (t.run index race) where
  fresh n i hn := by
    show n < t.id + 1
    by_cases hid : n = t.id
    · omega
    · rw [outputs_run_of_ne _ _ _ hid] at hn
      have hlt := h.fresh n i hn
      omega
  sent n race' hn := by
    by_cases hid : n = t.id
    · rw [hid, outputs_run_self]
      rfl
    · rw [outputs_run_of_ne _ _ _ hid]
      rcases mem_sent_run.mp hn with hran | hnew
      · exact h.sent n race' hran
      · exact absurd (Packet.run.inj hnew).1 hid
  ran n i hn := by
    by_cases hid : n = t.id
    · exact ⟨race, mem_sent_run.mpr (.inr (by rw [hid]))⟩
    · rw [outputs_run_of_ne _ _ _ hid] at hn
      obtain ⟨race', hran⟩ := h.ran n i hn
      exact ⟨race', mem_sent_run.mpr (.inl hran)⟩
  killsFirst before after := by
    refine ⟨fun n race' hsent m i hm hn hlt => ?_, fun n hsent => ?_⟩
    · rcases split_concat hsent with ⟨rfl, hx⟩ | ⟨after', hbefore⟩
      · obtain ⟨rfl, rfl⟩ := Packet.run.inj hx
        rw [outputs_run_self] at hn
        rw [outputs_run_of_ne _ _ _ hlt.ne] at hm
        exact hkilled m (hm.trans hn.symm)
      · obtain ⟨i', hi'⟩ := Option.isSome_iff_exists.mp (h.sent n race' (by simp [hbefore]))
        have hold := h.fresh n i' hi'
        rw [outputs_run_of_ne _ _ _ hold.ne] at hn
        rw [outputs_run_of_ne _ _ _ (hlt.trans hold).ne] at hm
        exact (h.killsFirst before after').1 n race' hbefore m i hm hn hlt
    · rcases split_concat hsent with ⟨_, hx⟩ | ⟨after', hbefore⟩
      · cases hx
      · exact (h.killsFirst before after').2 n hbefore

theorem Wired.kill (h : Wired t) {thisID i : ℕ} (hthis : t.outputs thisID = some i) : Wired (t.kill thisID) where
  fresh := h.fresh
  sent n race hn := by
    rcases mem_sent_kill.mp hn with hran | hnew
    · exact h.sent n race hran
    · cases hnew
  ran n i hn := by
    obtain ⟨race, hran⟩ := h.ran n i hn
    exact ⟨race, mem_sent_kill.mpr (.inl hran)⟩
  killsFirst before after := by
    refine ⟨fun n race hsent => ?_, fun n hsent => ?_⟩
    · rcases split_concat hsent with ⟨_, hx⟩ | ⟨after', hbefore⟩
      · cases hx
      · exact (h.killsFirst before after').1 n race hbefore
    · rcases split_concat hsent with ⟨rfl, hx⟩ | ⟨after', hbefore⟩
      · obtain rfl := Packet.kill.inj hx
        exact h.ran thisID i hthis
      · exact (h.killsFirst before after').2 n hbefore

/-- What runs in each playground after some requests: the program run there last. -/
structure Served (s : Page) (requests : List (ℕ × Request)) : Prop where
  wired : Wired s.transport
  running : ∀ i, s.running i = none ↔ requestsOf i requests = []
  own : ∀ n i, s.running i = some n → s.transport.outputs n = some i
  latest : ∀ n i, s.transport.outputs n = some i → s.running i = some n ∨ .kill n ∈ s.transport.sent
  killed : ∀ n i, s.running i = some n → (requestsOf i requests).getLast? = some .kill → .kill n ∈ s.transport.sent

theorem wired_start : Wired SocketTransport.start where
  fresh n i h := by cases h
  sent n race h := by cases h
  ran n i h := by cases h
  killsFirst before after := by simp [SocketTransport.start]

theorem served_start : Served Page.start [] where
  wired := wired_start
  running i := by simp [Page.start, requestsOf]
  own n i h := by cases h
  latest n i h := by cases h
  killed n i h := by cases h

variable {s s' : Page} {requests : List (ℕ × Request)}

/-- Before a program may be run in a playground, those run there have been killed. -/
theorem Served.all_killed (h : Served s requests) {index : ℕ} {race : Bool}
    (hmay : MayAsk (requestsOf index requests) (.run race)) (n : ℕ) (hn : s.transport.outputs n = some index) :
    .kill n ∈ s.transport.sent := by
  rcases h.latest n index hn with hrunning | hkill
  · rcases hmay with hnone | hlast
    · rw [(h.running index).mpr hnone] at hrunning
      cases hrunning
    · exact h.killed n index hrunning hlast
  · exact hkill

theorem Served.run (h : Served s requests) {index : ℕ} {race : Bool} (hmay : MayAsk (requestsOf index requests) (.run race))
    (hs : s.request index (.run race) = some s') : Served s' (requests ++ [(index, .run race)]) := by
  have hkilled := h.all_killed hmay
  obtain rfl := Option.some.inj hs
  refine ⟨h.wired.run hkilled, fun i => ?_, fun n i hn => ?_, fun n i hn => ?_, fun n i hn hlast => ?_⟩
  all_goals dsimp only at *
  · rw [requestsOf_concat]
    by_cases hi : i = index
    · subst hi
      simp
    · rw [Function.update_of_ne hi, if_neg (Ne.symm hi)]
      exact h.running i
  · by_cases hi : i = index
    · subst hi
      rw [Function.update_self] at hn
      rw [← Option.some.inj hn, outputs_run_self]
    · rw [Function.update_of_ne hi] at hn
      have houtput := h.own n i hn
      rwa [outputs_run_of_ne _ _ _ (h.wired.fresh n i houtput).ne]
  · by_cases hid : n = s.transport.id
    · rw [hid, outputs_run_self] at hn
      rw [hid, ← Option.some.inj hn, Function.update_self]
      exact .inl rfl
    · rw [outputs_run_of_ne _ _ _ hid] at hn
      by_cases hi : i = index
      · subst hi
        exact .inr (mem_sent_run.mpr (.inl (hkilled n hn)))
      · rw [Function.update_of_ne hi]
        exact (h.latest n i hn).imp_right fun hkill => mem_sent_run.mpr (.inl hkill)
  · rw [requestsOf_concat] at hlast
    by_cases hi : i = index
    · simp [hi] at hlast
    · rw [if_neg (Ne.symm hi)] at hlast
      rw [Function.update_of_ne hi] at hn
      exact mem_sent_run.mpr (.inl (h.killed n i hn hlast))

theorem Served.kill (h : Served s requests) {index thisID : ℕ} (hrunning : s.running index = some thisID) :
    Served { s with transport := s.transport.kill thisID } (requests ++ [(index, .kill)]) := by
  refine ⟨h.wired.kill (h.own thisID index hrunning), fun i => ?_, h.own, fun n i hn => ?_, fun n i hn hlast => ?_⟩
  · rw [requestsOf_concat]
    by_cases hi : index = i
    · subst hi
      simp [hrunning]
    · rw [if_neg hi]
      exact h.running i
  · exact (h.latest n i hn).imp_right fun hkill => mem_sent_kill.mpr (.inl hkill)
  · by_cases hi : index = i
    · subst hi
      obtain rfl := Option.some.inj (hrunning.symm.trans hn)
      exact mem_sent_kill.mpr (.inr rfl)
    · rw [requestsOf_concat, if_neg hi] at hlast
      exact mem_sent_kill.mpr (.inl (h.killed n i hn hlast))

theorem transport_onmessage (s : Page) (m : Message) :
    (s.onmessage m).transport.outputs = s.transport.outputs ∧ (s.onmessage m).transport.id = s.transport.id ∧
      (s.onmessage m).transport.sent = s.transport.sent ∧ (s.onmessage m).running = s.running := by
  unfold Page.onmessage SocketTransport.onmessage
  cases s.transport.outputs m.id with
  | none => exact ⟨rfl, rfl, rfl, rfl⟩
  | some output =>
    rw [Option.map_some]
    split_ifs <;> exact ⟨rfl, rfl, rfl, rfl⟩

theorem Served.message (h : Served s requests) (m : Message) : Served (s.onmessage m) requests := by
  obtain ⟨houtputs, hid, hsent, hrunning⟩ := transport_onmessage s m
  refine ⟨⟨?_, ?_, ?_, ?_⟩, ?_, ?_, ?_, ?_⟩
  · rw [houtputs, hid]
    exact h.wired.fresh
  · rw [houtputs, hsent]
    exact h.wired.sent
  · rw [houtputs, hsent]
    exact h.wired.ran
  · unfold KillsFirst
    rw [houtputs, hsent]
    exact h.wired.killsFirst
  · rw [hrunning]
    exact h.running
  · rw [houtputs, hrunning]
    exact h.own
  · rw [houtputs, hsent, hrunning]
    exact h.latest
  · rw [hsent, hrunning]
    exact h.killed

/-- Requests in order are served so, whatever the server says in between. -/
theorem served_of_serves (h : Serves s requests) : Orderly requests → Served s requests := by
  refine Reach.invariant (fun x => Orderly x.2 → Served x.1 x.2) (fun _ => served_start) (fun x a y _ hi _ hs => ?_) h
  obtain ⟨hstep, hrequests⟩ := observe_eq_some.mp hs
  rw [hrequests]
  intro hord
  cases a with
  | request index r =>
    obtain ⟨hbefore, hmay⟩ := orderly_concat.mp hord
    cases r with
    | run race =>
      exact (hi hbefore).run hmay hstep
    | kill =>
      obtain ⟨thisID, hrunning, hy⟩ := Option.map_eq_some_iff.mp hstep
      exact hy ▸ (hi hbefore).kill hrunning
  | message m =>
    obtain hy := Option.some.inj hstep
    exact hy ▸ (hi hord).message m

/-- `Kill` is asked only of a program that is there. -/
theorem exists_serves (h : Orderly requests) : ∃ s, Serves s requests := by
  induction requests using List.reverseRecOn with
  | nil => exact ⟨Page.start, .refl⟩
  | append_singleton requests x ih =>
    obtain ⟨index, r⟩ := x
    obtain ⟨hbefore, hmay⟩ := orderly_concat.mp h
    obtain ⟨s, hs⟩ := ih hbefore
    have hserved := served_of_serves hs hbefore
    have hnext : ∃ t, s.request index r = some t := by
      cases r with
      | run race => exact ⟨_, rfl⟩
      | kill =>
        obtain ⟨thisID, hrunning⟩ := Option.ne_none_iff_exists'.mp (mt (hserved.running index).mp hmay)
        exact ⟨_, Option.map_eq_some_iff.mpr ⟨thisID, hrunning, rfl⟩⟩
    obtain ⟨t, ht⟩ := hnext
    exact ⟨t, .tail (.request index r) hs trivial (observe_eq_some.mpr ⟨ht, rfl⟩)⟩

/-- Whatever is opened, closed, clicked, edited and delivered in the windows: what a window asks of its
transport can be asked of it, and in the packets that it sends, whatever the server says meanwhile,
every program is run before it is killed, and killed before another one is run in its playground. -/
theorem kills_first {ι : Type} [DecidableEq ι] (p : Presentation) (w : World ι)
    (h : Reach (World.step p) anyStep World.start w) : ∀ j sw, w.windows j = some (.slides sw) →
      (∃ s, Serves s sw.requests) ∧ ∀ s, Serves s sw.requests → KillsFirst s.transport := by
  intro j sw hwin
  have hord : Orderly sw.requests := (inOrder_of_reach h j sw hwin).orderly
  exact ⟨exists_serves hord, fun s hs => (served_of_serves hs hord).wired.killsFirst⟩

/-- A program is run and killed in a window, and run again from the frame of its notes. -/
def demoProgramActions : List (World.Action ℕ) :=
  [.load 0 none, .toggleNotesWindow 0 1, .frameLoaded 0 2, .click 0 .onRun 1 true, .click 0 .onKill 1 false, .deliver 2,
    .deliver 2, .click 2 .onRun 1 false, .deliver 0, .deliver 0]

theorem demoProgramActions_enabled :
    (runActions (World.step demoPresentation) World.start demoProgramActions).isSome := by decide

def demoPrograms : World ℕ :=
  (runActions (World.step demoPresentation) World.start demoProgramActions).get demoProgramActions_enabled

theorem demoPrograms_reached : Reach (World.step demoPresentation) anyStep World.start demoPrograms :=
  Reach.of_runActions (Option.some_get _).symm

theorem kills_first_demo :
    (demoPrograms.slides 0).map SlidesWindow.requests = some [(1, .run true), (1, .kill), (1, .kill), (1, .run false)] ∧
      ∀ j sw, demoPrograms.windows j = some (.slides sw) →
        (∃ s, Serves s sw.requests) ∧ ∀ s, Serves s sw.requests → KillsFirst s.transport :=
  ⟨by decide, kills_first demoPresentation demoPrograms demoPrograms_reached⟩

end HalfMesh.Slides
