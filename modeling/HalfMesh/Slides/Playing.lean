import HalfMesh.Slides.Delivery

/-! The playgrounds of two windows. A click in one window goes to the other as the item `play-action`,
which the other takes away when it has done the same: how the two stand between clicks, and what
sending, reading and handling a message make of it. -/
namespace HalfMesh.Slides
open HalfMesh.Foundations
set_option autoImplicit false
set_option maxHeartbeats 250000
set_option maxRecDepth 120000

/-! ## Clicks -/

structure Click where
  action : PlayAction
  index : ℕ
  shiftKey : Bool
  deriving DecidableEq

/-- Which playgrounds run and which show their output, and what they asked of the transport. -/
structure Play where
  playgrounds : List (Bool × Bool)
  requests : List (ℕ × Request)
  deriving DecidableEq

namespace Play

def kill (x : Play) (index : ℕ) : Play :=
  if (x.playgrounds[index]?.map Prod.fst) = some true then { x with requests := x.requests ++ [(index, .kill)] } else x

/-- What a click comes to in one window. -/
def act (x : Play) (c : Click) : Play :=
  let x := x.kill c.index
  match c.action with
  | .onRun =>
    { playgrounds := x.playgrounds.modify c.index fun _ => (true, true)
      requests := x.requests ++ [(c.index, .run c.shiftKey)] }
  | .onKill => x
  | .onClose => { x with playgrounds := x.playgrounds.modify c.index fun pl => (pl.1, false) }

def carry (x : Play) (clicks : List Click) : Play := clicks.foldl act x

theorem carry_concat (x : Play) (clicks : List Click) (c : Click) : x.carry (clicks ++ [c]) = (x.carry clicks).act c :=
  List.foldl_concat ..

theorem length_act (x : Play) (c : Click) : (x.act c).playgrounds.length = x.playgrounds.length := by
  have hkill : (x.kill c.index).playgrounds = x.playgrounds := by
    unfold kill
    split <;> rfl
  unfold act
  dsimp only
  split <;> simp [hkill]

theorem length_carry (x : Play) (clicks : List Click) : (x.carry clicks).playgrounds.length = x.playgrounds.length := by
  induction clicks using List.reverseRecOn with
  | nil => rfl
  | append_singleton clicks c ih => rw [carry_concat, length_act, ih]

end Play

theorem map_modify {α β : Type} (l : List α) (index : ℕ) {k : α → β} {f : α → α} {g : β → β}
    (hfg : ∀ a, k (f a) = g (k a)) : (l.modify index f).map k = (l.map k).modify index g := by
  refine List.ext_getElem? fun i => ?_
  simp only [List.getElem?_map, List.getElem?_modify]
  cases l[i]? with
  | none => rfl
  | some a =>
    by_cases hi : index = i
    · simp [hi, hfg]
    · simp [hi]

section
variable {ι : Type} {p : Presentation} {w w' : World ι} {st st' : LocalStorage ι} {j : ι} {sw sw' : SlidesWindow ι}
  {e : Event} {es : List Event}

namespace SlidesWindow

def play (sw : SlidesWindow ι) : Play where
  playgrounds := sw.playgrounds.map fun pl => (pl.running, pl.displayed)
  requests := sw.requests

theorem length_play (sw : SlidesWindow ι) : sw.play.playgrounds.length = sw.playgrounds.length := List.length_map ..

theorem play_kill (sw : SlidesWindow ι) (index : ℕ) : (sw.kill index).play = sw.play.kill index := by
  unfold kill Play.kill play
  simp only [List.getElem?_map, Option.map_map]
  cases sw.playgrounds[index]? with
  | none => simp
  | some pl => cases hrun : pl.running <;> simp [hrun]

theorem play_modify_innerHTML (sw : SlidesWindow ι) (index : ℕ) (innerHTML : String) :
    { sw with playgrounds := sw.playgrounds.modify index fun pl => { pl with innerHTML := innerHTML } }.play = sw.play := by
  have hsame := map_modify (k := fun pl : Playground => (pl.running, pl.displayed)) sw.playgrounds index
    (f := fun pl => { pl with innerHTML := innerHTML }) (g := id) fun _ => rfl
  rw [List.modify_id] at hsame
  exact congrArg₂ Play.mk hsame rfl

/-- What the document says of the playgrounds. -/
def code (sw : SlidesWindow ι) : List String := sw.playgrounds.map Playground.innerHTML

theorem playgrounds_kill (sw : SlidesWindow ι) (index : ℕ) : (sw.kill index).playgrounds = sw.playgrounds := by
  unfold kill
  split
  · split <;> rfl
  · rfl

variable [DecidableEq ι]

/-- Running and closing a playground leaves its code alone. -/
theorem code_playgroundHandler (sw : SlidesWindow ι) (st : LocalStorage ι) (j : ι) (action : PlayAction) (index : ℕ)
    (shiftKey : Bool) : (sw.playgroundHandler st j action index shiftKey).1.code = sw.code := by
  have hsame : ∀ f : Playground → Playground, (∀ pl, (f pl).innerHTML = pl.innerHTML) →
      ((sw.kill index).playgrounds.modify index f).map Playground.innerHTML = sw.code := by
    intro f hf
    rw [map_modify _ _ (g := id) hf, List.modify_id, playgrounds_kill]
    rfl
  cases action with
  | onRun => exact hsame _ fun _ => rfl
  | onKill => exact congrArg (List.map Playground.innerHTML) (playgrounds_kill sw index)
  | onClose => exact hsame _ fun _ => rfl

/-- A handler does to its window what the click comes to, with the shift key that is pressed or stored. -/
theorem play_playgroundHandler (sw : SlidesWindow ι) (st : LocalStorage ι) (j : ι) (action : PlayAction) (index : ℕ)
    (shiftKey : Bool) : (sw.playgroundHandler st j action index shiftKey).1.play =
      sw.play.act { action := action, index := index, shiftKey := shiftKey || (st.items .playShiftKey).isSome } := by
  have hkill := play_kill sw index
  unfold Play.act
  cases action with
  | onRun =>
    dsimp only
    rw [← hkill]
    exact congrArg₂ Play.mk (map_modify _ _ fun _ => rfl) rfl
  | onKill => exact hkill
  | onClose =>
    dsimp only
    rw [← hkill]
    exact congrArg₂ Play.mk (map_modify _ _ fun _ => rfl) rfl

theorem storage_playgroundHandler (sw : SlidesWindow ι) (st : LocalStorage ι) (j : ι) (action : PlayAction) (index : ℕ)
    (shiftKey : Bool) :
    (sw.playgroundHandler st j action index shiftKey).2 = updatePlayStorage st j action index shiftKey := by
  cases action <;> rfl

end SlidesWindow

/-! ## What is under way -/

def isActionEvent : Event → Bool
  | .item .playAction (some _) => true
  | _ => false

def isCodeEvent : Event → Bool
  | .item .playCode (some _) => true
  | _ => false

def actionEvents (st : LocalStorage ι) (j : ι) : List Event := (st.events j).filter isActionEvent

def codeEvents (st : LocalStorage ι) (j : ι) : List Event := (st.events j).filter isCodeEvent

theorem exists_of_isActionEvent (h : isActionEvent e = true) : ∃ action, e = .item .playAction (some action) := by
  unfold isActionEvent at h
  split at h
  · exact ⟨_, rfl⟩
  · cases h

theorem not_action_of_remove (h : isRemoveStorageEvent e = true) : isActionEvent e = false := by
  cases e with
  | clear => rfl
  | item k o => cases k <;> cases o <;> first | rfl | cases h

/-- How two windows stand with their playgrounds after some clicks: both have carried them out, or one
has and the other has been told of the last one. -/
inductive Phase (x₀ : Play) (pair : Bool → ι) (st : LocalStorage ι) (x : Bool → Play) (clicks : List Click) : Prop
  | idle (haction : st.items .playAction = none) (hshift : st.items .playShiftKey = none)
      (hread : ∀ s, actionEvents st (pair s) = [])
      (hcodes : ∀ s, codeEvents st (pair s) ≠ [] → st.items .playIndex = some x₀.playgrounds.length)
      (hx : ∀ s, x s = x₀.carry clicks)
  | sent (s : Bool) (c : Click) (done : List Click) (hclicks : clicks = done ++ [c])
      (haction : st.items .playAction = some c.action) (hindex : st.items .playIndex = some c.index)
      (hlt : c.index < x₀.playgrounds.length)
      (hshift : st.items .playShiftKey = if c.action = .onRun ∧ c.shiftKey = true then some () else none)
      (hsent : actionEvents st (pair s) = []) (hone : ∃ e, actionEvents st (pair !s) = [e])
      (hcodes : ∀ s, codeEvents st (pair s) = [])
      (hx : x s = x₀.carry clicks) (hy : x (!s) = x₀.carry done)

variable {x₀ : Play} {pair : Bool → ι} {x : Bool → Play} {clicks : List Click}

/-- The message of a click by the window `s` has been read, and not been handled yet. -/
structure MessageRead (x₀ : Play) (pair : Bool → ι) (st : LocalStorage ι) (x : Bool → Play) (clicks : List Click) (s : Bool)
    (c : Click) : Prop where
  action : st.items .playAction = some c.action
  index : st.items .playIndex = some c.index
  lt : c.index < x₀.playgrounds.length
  shiftKey : st.items .playShiftKey = if c.action = .onRun ∧ c.shiftKey = true then some () else none
  actions : ∀ s, actionEvents st (pair s) = []
  codes : ∀ s, codeEvents st (pair s) = []
  sender : x s = x₀.carry clicks
  receiver : ∃ done, clicks = done ++ [c] ∧ x (!s) = x₀.carry done

theorem eq_of_ne_not {s s' : Bool} (h : s' ≠ !s) : s' = s := by
  cases s <;> cases s' <;> simp_all

theorem pair_ne (hpair : pair true ≠ pair false) (s : Bool) : pair (!s) ≠ pair s := by
  cases s
  · exact hpair
  · exact hpair.symm

theorem Phase.length (h : Phase x₀ pair st x clicks) (s : Bool) :
    (x s).playgrounds.length = x₀.playgrounds.length := by
  cases h with
  | idle haction hshift hread hcodes hx => rw [hx, Play.length_carry]
  | sent s' c done hclicks haction hindex hlt hshift hsent hone hcodes hx hy =>
    by_cases hs : s = s'
    · rw [hs, hx, Play.length_carry]
    · rw [Bool.eq_not_of_ne hs, hy, Play.length_carry]

/-- Code comes without a playground to put it in. -/
theorem Phase.code (h : Phase x₀ pair st x clicks) {s : Bool} (hevents : st.events (pair s) = e :: es)
    (he : isCodeEvent e = true) : st.items .playIndex = some x₀.playgrounds.length := by
  have hhead : codeEvents st (pair s) ≠ [] := by
    rw [codeEvents, hevents, List.filter_cons_of_pos he]
    exact List.cons_ne_nil _ _
  cases h with
  | idle haction hshift hread hcodes hx => exact hcodes s hhead
  | sent s' c done hclicks haction hindex hlt hshift hsent hone hcodes hx hy => exact absurd (hcodes s) hhead

/-- What has nothing to do with the playgrounds leaves the two windows as they stand. -/
theorem Phase.congr (h : Phase x₀ pair st x clicks) (hitems : ∀ k, k ≠ .destSlide → st'.items k = st.items k)
    (hactions : ∀ s, actionEvents st' (pair s) = actionEvents st (pair s))
    (hcodes : ∀ s, codeEvents st' (pair s) ≠ [] → codeEvents st (pair s) ≠ []) : Phase x₀ pair st' x clicks := by
  cases h with
  | idle haction hshift hread hcode hx =>
    refine .idle ?_ ?_ (fun s => (hactions s).trans (hread s)) (fun s hs => ?_) hx
    · exact (hitems _ (by decide)).trans haction
    · exact (hitems _ (by decide)).trans hshift
    · exact (hitems _ (by decide)).trans (hcode s (hcodes s hs))
  | sent s c done hclicks haction hindex hlt hshift hsent hone hcode hx hy =>
    refine .sent s c done hclicks ?_ ?_ hlt ?_ ((hactions s).trans hsent) ?_ (fun s => ?_) hx hy
    · exact (hitems _ (by decide)).trans haction
    · exact (hitems _ (by decide)).trans hindex
    · exact (hitems _ (by decide)).trans hshift
    · rw [hactions]
      exact hone
    · by_contra hne
      exact hcodes s hne (hcode s)

/-- Writing that sends no message, while nothing is under way. -/
theorem Phase.write (h : Phase x₀ pair st x clicks) (hread : ∀ s, st.events (pair s) = [])
    (haction : st'.items .playAction = st.items .playAction)
    (hshift : st'.items .playShiftKey = st.items .playShiftKey)
    (hindex : st'.items .playIndex = some x₀.playgrounds.length)
    (hactions : ∀ s, actionEvents st' (pair s) = actionEvents st (pair s)) : Phase x₀ pair st' x clicks := by
  cases h with
  | idle haction' hshift' hread' hcodes hx =>
    exact .idle (haction.trans haction') (hshift.trans hshift') (fun s => (hactions s).trans (hread' s)) (fun _ _ => hindex) hx
  | sent s c done hclicks haction' hindex' hlt hshift' hsent hone hcodes hx hy =>
    obtain ⟨e, he⟩ := hone
    rw [actionEvents, hread] at he
    cases he

theorem Phase.touch (h : Phase x₀ pair st x clicks) (ht : st.Touches .destSlide st') : Phase x₀ pair st' x clicks := by
  refine h.congr (fun k hk => ht.items k hk) (fun s => ht.filter_events (fun _ => rfl) _) (fun s hs => ?_)
  unfold codeEvents at *
  rwa [ht.filter_events (fun _ => rfl)] at hs

variable [DecidableEq ι]

/-! ## Sending and receiving -/

theorem touches_updatePlayShiftKey (st : LocalStorage ι) (j : ι) (shiftKey : Bool) :
    st.Touches .playShiftKey (updatePlayShiftKey st j shiftKey) := by
  unfold updatePlayShiftKey
  split
  · exact Storage.touches_removeItem ..
  · split
    · exact Storage.touches_setItem ..
    · exact .refl ..

theorem touches_updatePlayAction (st : LocalStorage ι) (j : ι) (action : PlayAction) :
    st.Touches .playAction (updatePlayAction st j action) := by
  unfold updatePlayAction
  split
  · exact Storage.touches_removeItem ..
  · exact Storage.touches_setItem ..

/-- The shift key is left to `onRun`. -/
theorem touches_updatePlayStorage (st : LocalStorage ι) (j : ι) (action : PlayAction) (index : ℕ) (shiftKey : Bool) :
    (updatePlayAction (st.setItem j .playIndex index) j action).Touches .playShiftKey
      (updatePlayStorage st j action index shiftKey) := by
  unfold updatePlayStorage
  dsimp only
  split
  · exact touches_updatePlayShiftKey ..
  · exact .refl ..

theorem codeEvents_updatePlayStorage (st : LocalStorage ι) (j : ι) (action : PlayAction) (index : ℕ) (shiftKey : Bool)
    (i : ι) : codeEvents (updatePlayStorage st j action index shiftKey) i = codeEvents st i := by
  have hindex := Storage.touches_setItem st j Key.playIndex index
  have haction := touches_updatePlayAction (st.setItem j .playIndex index) j action
  have hshift := touches_updatePlayStorage st j action index shiftKey
  unfold codeEvents
  rw [hshift.filter_events (fun _ => rfl), haction.filter_events (fun _ => rfl),
    hindex.filter_events (fun _ => rfl)]

theorem items_updatePlayAction (st : LocalStorage ι) (j : ι) (action : PlayAction) (index : ℕ) (shiftKey : Bool) :
    (updatePlayStorage st j action index shiftKey).items .playIndex = some index ∧
      (updatePlayStorage st j action index shiftKey).items .playAction =
        if st.items .playAction = some action then none else some action := by
  have haction := touches_updatePlayAction (st.setItem j .playIndex index) j action
  have hshift := touches_updatePlayStorage st j action index shiftKey
  refine ⟨?_, ?_⟩
  · rw [hshift.items _ (by decide), haction.items _ (by decide), Storage.items_setItem, Function.update_self]
  · have hsame : (st.setItem j .playIndex index).items .playAction = st.items .playAction := by
      rw [Storage.items_setItem, Function.update_of_ne (by decide)]
    rw [hshift.items _ (by decide)]
    unfold updatePlayAction
    rw [hsame]
    split
    · rw [Storage.items_removeItem, Function.update_self]
    · rw [Storage.items_setItem, Function.update_self]

theorem items_updatePlayShiftKey (st : LocalStorage ι) (j : ι) (action : PlayAction) (index : ℕ) (shiftKey : Bool) :
    (updatePlayStorage st j action index shiftKey).items .playShiftKey =
      if action = .onRun then
        if st.items .playShiftKey = some () then none else if shiftKey = true then some () else st.items .playShiftKey
      else st.items .playShiftKey := by
  have hindex := Storage.touches_setItem st j Key.playIndex index
  have haction := touches_updatePlayAction (st.setItem j .playIndex index) j action
  have hsame := (haction.items .playShiftKey (by decide)).trans (hindex.items .playShiftKey (by decide))
  unfold updatePlayStorage
  dsimp only
  split
  · unfold updatePlayShiftKey
    rw [hsame]
    split
    · rw [Storage.items_removeItem, Function.update_self]
    · split
      · rw [Storage.items_setItem, Function.update_self]
      · exact hsame
  · exact hsame

/-- A message sent is one event for everyone else. -/
theorem actionEvents_sent (hnone : st.items .playAction = none) (action : PlayAction) (index : ℕ) (shiftKey : Bool)
    {i : ι} (hi : i ≠ j) (hmem : i ∈ st.listeners) :
    actionEvents (updatePlayStorage st j action index shiftKey) i =
      actionEvents st i ++ [.item .playAction (some action)] := by
  have hindex := Storage.touches_setItem st j Key.playIndex index
  have hshift := touches_updatePlayStorage st j action index shiftKey
  have hsame : (st.setItem j .playIndex index).items .playAction = none := (hindex.items _ (by decide)).trans hnone
  have hmem' : i ∈ (st.setItem j .playIndex index).listeners := (Storage.writes_setItem st j Key.playIndex index).listeners ▸ hmem
  unfold actionEvents
  rw [hshift.filter_events (fun _ => rfl)]
  unfold updatePlayAction
  rw [hsame, if_neg (by simp), Storage.events_setItem, if_pos ⟨by simp [hsame], hi, hmem'⟩, List.filter_append,
    hindex.filter_events (fun _ => rfl)]
  rfl

/-- A message received is none for anyone. -/
theorem actionEvents_received (action : PlayAction) (hsome : st.items .playAction = some action) (index : ℕ)
    (shiftKey : Bool) (i : ι) :
    actionEvents (updatePlayStorage st j action index shiftKey) i = actionEvents st i := by
  have hindex := Storage.touches_setItem st j Key.playIndex index
  have hshift := touches_updatePlayStorage st j action index shiftKey
  have hsame : (st.setItem j .playIndex index).items .playAction = some action := (hindex.items _ (by decide)).trans hsome
  unfold actionEvents
  rw [hshift.filter_events (fun _ => rfl)]
  unfold updatePlayAction
  rw [hsame, if_pos rfl, Storage.events_removeItem]
  split
  · rw [List.filter_append, hindex.filter_events (fun _ => rfl)]
    exact List.append_nil _
  · exact hindex.filter_events (fun _ => rfl) i

/-- A click while nothing is under way is sent to the other window. -/
theorem Phase.send (h : Phase x₀ pair st x clicks) (hpair : pair true ≠ pair false)
    (hmem : ∀ s, pair s ∈ st.listeners) (hread : ∀ s, st.events (pair s) = []) (s : Bool) (c : Click)
    (hlt : c.index < x₀.playgrounds.length) :
    Phase x₀ pair (updatePlayStorage st (pair s) c.action c.index c.shiftKey)
      (Function.update x s ((x s).act { c with shiftKey := c.shiftKey || (st.items .playShiftKey).isSome })) (clicks ++ [c]) := by
  cases h with
  | sent s' c' done hclicks haction hindex hlt' hshift hsent hone hcodes hx hy =>
    obtain ⟨e, he⟩ := hone
    rw [actionEvents, hread] at he
    cases he
  | idle haction hshift hacts hcodes hx =>
    have hitems := items_updatePlayAction st (pair s) c.action c.index c.shiftKey
    refine .sent s c clicks rfl ?_ hitems.1 hlt ?_ ?_ ⟨.item .playAction (some c.action), ?_⟩ (fun s' => ?_) ?_ ?_
    · rw [hitems.2, haction]
      rfl
    · rw [items_updatePlayShiftKey, hshift]
      by_cases hrun : c.action = .onRun <;> simp [hrun]
    · rw [actionEvents, (writes_updatePlayStorage ..).own, hread]
      rfl
    · rw [actionEvents_sent haction _ _ _ (pair_ne hpair s) (hmem _), hacts]
      rfl
    · rw [codeEvents_updatePlayStorage, codeEvents, hread]
      rfl
    · rw [Function.update_self, hx, hshift, Option.isSome_none, Bool.or_false, Play.carry_concat]
    · rw [Function.update_of_ne (by simp), hx]

/-- The window that the message was sent to receives it. -/
theorem MessageRead.receive {s : Bool} {c : Click} (h : MessageRead x₀ pair st x clicks s c) :
    Phase x₀ pair (updatePlayStorage st (pair !s) c.action c.index false)
      (Function.update x (!s) ((x (!s)).act { c with shiftKey := false || (st.items .playShiftKey).isSome })) clicks := by
  have hitems := items_updatePlayAction st (pair !s) c.action c.index false
  have hshift := h.shiftKey
  refine .idle ?_ ?_ (fun s' => ?_) (fun s' hs' => ?_) (fun s' => ?_)
  · rw [hitems.2, if_pos h.action]
  · rw [items_updatePlayShiftKey, hshift]
    by_cases hrun : c.action = .onRun <;> cases hkey : c.shiftKey <;> simp [hrun]
  · rw [actionEvents_received c.action h.action, h.actions]
  · rw [codeEvents_updatePlayStorage, h.codes] at hs'
    exact absurd rfl hs'
  · obtain ⟨done, hclicks, hdone⟩ := h.receiver
    by_cases hs' : s' = !s
    · subst hs'
      rw [Function.update_self, hdone, hclicks, Play.carry_concat, hshift]
      obtain ⟨action, index, shiftKey⟩ := c
      cases action with
      | onRun => cases shiftKey <;> rfl
      | onKill => rfl
      | onClose => rfl
    · rw [Function.update_of_ne hs', eq_of_ne_not hs', h.sender]

/-! ## Reading an event -/

theorem actionEvents_read (hevents : st.events j = e :: es) (he : isActionEvent e = false) (i : ι) :
    actionEvents (st.read j) i = actionEvents st i := by
  unfold actionEvents
  rw [Storage.events_read]
  by_cases hi : i = j
  · subst hi
    rw [Function.update_self, hevents, List.tail_cons, List.filter_cons_of_neg (by simp [he])]
  · rw [Function.update_of_ne hi]

theorem codeEvents_read (st : LocalStorage ι) (j i : ι) : codeEvents (st.read j) i ≠ [] → codeEvents st i ≠ [] := by
  unfold codeEvents
  rw [Storage.events_read]
  by_cases hi : i = j
  · subst hi
    rw [Function.update_self]
    intro hne hnil
    exact hne (List.filter_eq_nil_iff.mpr fun e he => List.filter_eq_nil_iff.mp hnil e (List.mem_of_mem_tail he))
  · rw [Function.update_of_ne hi]
    exact id

/-- An event that is no message, and a move of the slides after it. -/
theorem Phase.pass (h : Phase x₀ pair st x clicks) (hevents : st.events j = e :: es) (he : isActionEvent e = false)
    (ht : (st.read j).Touches .destSlide st') : Phase x₀ pair st' x clicks := by
  refine h.congr (fun k hk => ht.items k hk) (fun s => ?_) (fun s hs => ?_)
  · rw [← actionEvents_read hevents he]
    exact ht.filter_events (fun _ => rfl) _
  · refine codeEvents_read st j _ ?_
    unfold codeEvents at *
    rwa [ht.filter_events (fun _ => rfl)] at hs

/-- A message is read by the window that it was sent to, and it is the only one. -/
theorem Phase.message (h : Phase x₀ pair st x clicks) (hpair : pair true ≠ pair false) {r : Bool}
    (hevents : st.events (pair r) = e :: es) (he : isActionEvent e = true)
    (ht : (st.read (pair r)).Touches .destSlide st') : ∃ s c, r = !s ∧ MessageRead x₀ pair st' x clicks s c := by
  have hhead : actionEvents st (pair r) = e :: es.filter isActionEvent := by
    rw [actionEvents, hevents, List.filter_cons_of_pos he]
  cases h with
  | idle haction hshift hread hcodes hx =>
    rw [hread] at hhead
    cases hhead
  | sent s c done hclicks haction hindex hlt hshift hsent hone hcodes hx hy =>
    have hr : r = !s := by
      by_contra hne
      rw [eq_of_ne_not hne, hsent] at hhead
      cases hhead
    subst hr
    refine ⟨s, c, rfl, ⟨?_, ?_, hlt, ?_, fun s' => ?_, fun s' => ?_, hx, done, hclicks, hy⟩⟩
    · exact (ht.items _ (by decide)).trans haction
    · exact (ht.items _ (by decide)).trans hindex
    · exact (ht.items _ (by decide)).trans hshift
    · unfold actionEvents
      rw [ht.filter_events (fun _ => rfl), Storage.events_read]
      by_cases hs : s' = !s
      · obtain ⟨e', he'⟩ := hone
        rw [hhead] at he'
        rw [hs, Function.update_self, hevents, List.tail_cons]
        exact (List.cons.inj he').2
      · rw [eq_of_ne_not hs, Function.update_of_ne (pair_ne hpair s).symm]
        exact hsent
    · by_contra hne
      refine codeEvents_read st (pair !s) _ ?_ (hcodes s')
      unfold codeEvents at *
      rwa [ht.filter_events (fun _ => rfl)] at hne

end

end HalfMesh.Slides
