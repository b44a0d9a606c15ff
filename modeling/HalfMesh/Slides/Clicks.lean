import HalfMesh.Slides.Playing

/-! Two windows and the clicks on their playgrounds. As long as no window is opened or closed and
nobody clicks, types or resizes before the windows have read their events, each click is carried out
once in each window, in the order of the clicks. -/
namespace HalfMesh.Slides
open HalfMesh.Foundations
set_option autoImplicit false
set_option maxHeartbeats 250000
set_option maxRecDepth 120000

section
variable {ι : Type} {p : Presentation} {w w' : World ι} {st st' : LocalStorage ι} {j : ι} {sw sw' : SlidesWindow ι}
  {e : Event} {es : List Event} {x₀ : Play} {pair : Bool → ι} {x : Bool → Play} {clicks : List Click}

/-! ## Two windows -/

/-- The two windows are the only ones with the slides. -/
structure Paired (p : Presentation) (x₀ : Play) (pair : Bool → ι) (w : World ι) (clicks : List Click) : Prop where
  synced : Synced p w
  only : ∀ j sw, w.windows j = some (.slides sw) → ∃ s, j = pair s
  phase : ∃ sws : Bool → SlidesWindow ι, (∀ s, w.windows (pair s) = some (.slides (sws s))) ∧
    Phase x₀ pair w.storage (fun s => (sws s).play) clicks

/-- Windows with the notes may change as they like. -/
theorem Paired.of_notes (h : Paired p x₀ pair w clicks) (hsynced : Synced p w')
    (hslides : ∀ j sw, w'.windows j = some (.slides sw) ↔ w.windows j = some (.slides sw))
    (hphase : ∀ x, Phase x₀ pair w.storage x clicks → Phase x₀ pair w'.storage x clicks) : Paired p x₀ pair w' clicks where
  synced := hsynced
  only j sw hj := h.only j sw ((hslides j sw).mp hj)
  phase := by
    obtain ⟨sws, hwin, hp⟩ := h.phase
    exact ⟨sws, fun s => (hslides _ _).mpr (hwin s), hphase _ hp⟩

theorem Paired.slides (h : Paired p x₀ pair w clicks) (hslides : w.slides j = some sw) :
    ∃ s, j = pair s ∧ w.windows (pair s) = some (.slides sw) := by
  obtain ⟨hwin, _⟩ := slides_eq_some.mp hslides
  obtain ⟨s, rfl⟩ := h.only j sw hwin
  exact ⟨s, rfl, hwin⟩

/-- The two windows as they are before a playground is used. -/
structure AtRest (pair : Bool → ι) (w : World ι) (x₀ : Play) : Prop where
  windows : ∀ s, ∃ sw, w.windows (pair s) = some (.slides sw) ∧ sw.play = x₀
  only : ∀ j sw, w.windows j = some (.slides sw) → ∃ s, j = pair s
  action : w.storage.items .playAction = none
  shiftKey : w.storage.items .playShiftKey = none
  read : ∀ s, w.storage.events (pair s) = []

theorem AtRest.paired {w₀ : World ι} (h : AtRest pair w₀ x₀) (hsynced : Synced p w₀) : Paired p x₀ pair w₀ [] where
  synced := hsynced
  only := h.only
  phase := by
    choose sws hwin hplay using h.windows
    refine ⟨sws, hwin, .idle h.action h.shiftKey (fun s => ?_) (fun s hs => ?_) hplay⟩
    · rw [actionEvents, h.read]
      rfl
    · rw [codeEvents, h.read] at hs
      exact absurd rfl hs

variable [DecidableEq ι]

/-- A step of one of the two. -/
theorem Paired.setSlides (h : Paired p x₀ pair w clicks) (hpair : pair true ≠ pair false)
    {sws : Bool → SlidesWindow ι} (hwin : ∀ s, w.windows (pair s) = some (.slides (sws s))) {s : Bool}
    {y : SlidesWindow ι × LocalStorage ι} {clicks' : List Click} (hsynced : Synced p (w.setSlides (pair s) y))
    (hphase : Phase x₀ pair y.2 (Function.update (fun s => (sws s).play) s y.1.play) clicks') :
    Paired p x₀ pair (w.setSlides (pair s) y) clicks' where
  synced := hsynced
  only j sw hj := by
    by_cases hs : j = pair s
    · exact ⟨s, hs⟩
    · rw [World.windows_setSlides, Function.update_of_ne hs] at hj
      exact h.only j sw hj
  phase := by
    refine ⟨Function.update sws s y.1, fun s' => ?_, ?_⟩
    · rw [World.windows_setSlides]
      by_cases hs : s' = s
      · rw [hs, Function.update_self, Function.update_self]
      · have hne : pair s' ≠ pair s := by
          have hother : s' = !s := by
            cases s <;> cases s' <;> simp_all
          rw [hother]
          exact pair_ne hpair s
        rw [Function.update_of_ne hne, Function.update_of_ne hs]
        exact hwin s'
    · have hplays : (fun s' => (Function.update sws s y.1 s').play) =
          Function.update (fun s => (sws s).play) s y.1.play := by
        funext s'
        by_cases hs : s' = s
        · rw [hs, Function.update_self, Function.update_self]
        · rw [Function.update_of_ne hs, Function.update_of_ne hs]
      rw [hplays]
      exact hphase

theorem slides_updateNotes (w : World ι) (p : Presentation) (notesWindow : Option (NotesWindow ι)) (j : ι)
    (sw : SlidesWindow ι) : (w.updateNotes p notesWindow).windows j = some (.slides sw) ↔
      w.windows j = some (.slides sw) := by
  unfold World.updateNotes
  split
  · next notesWindow =>
    split
    · next innerHTML hwin =>
      by_cases hj : j = notesWindow.id
      · subst hj
        simp [hwin]
      · dsimp only
        rw [Function.update_of_ne hj]
    · rfl
  · rfl

theorem Paired.updateNotes (h : Paired p x₀ pair w clicks) (notesWindow : Option (NotesWindow ι)) :
    Paired p x₀ pair (w.updateNotes p notesWindow) clicks :=
  h.of_notes (h.synced.updateNotes _) (slides_updateNotes w p notesWindow) fun x hx => by
    rw [storage_updateNotes]
    exact hx

theorem touches_setDeck (sw : SlidesWindow ι) (st : LocalStorage ι) (j : ι) (d : Deck) :
    st.Touches .destSlide (sw.setDeck st j d).2 := Storage.touches_setItems ..

/-- `updatePlay` with an event that is no message, when there is no playground to put code in. -/
theorem updatePlay_pass (haction : isActionEvent e = false) (hremove : isRemoveStorageEvent e = false)
    (hcode : isCodeEvent e = true → st.items .playIndex = some sw.playgrounds.length)
    {y : SlidesWindow ι × LocalStorage ι} (hy : sw.updatePlay st j e = some y) : isCodeEvent e = false ∧ (sw, st) = y := by
  cases e with
  | clear => exact ⟨rfl, Option.some.inj hy⟩
  | item k o =>
    cases k with
    | playAction =>
      cases o with
      | some action => cases haction
      | none => cases hremove
    | playCode =>
      cases o with
      | some html =>
        rw [SlidesWindow.updatePlay, hcode rfl] at hy
        simp at hy
      | none => cases hremove
    | destSlide => exact ⟨rfl, Option.some.inj hy⟩
    | playIndex => exact ⟨rfl, Option.some.inj hy⟩
    | playShiftKey => exact ⟨rfl, Option.some.inj hy⟩

/-- `updatePlay` with the message that has been sent. -/
theorem updatePlay_message {c : Click} (haction : isActionEvent e = true) (hmessage : st.items .playAction = some c.action)
    (hindex : st.items .playIndex = some c.index) (hlt : c.index < sw.playgrounds.length) :
    sw.updatePlay st j e = some (sw.playgroundHandler st j c.action c.index false) := by
  obtain ⟨action, rfl⟩ := exists_of_isActionEvent haction
  simp only [SlidesWindow.updatePlay, hmessage, hindex, if_pos hlt]

/-- The slides do not touch the playgrounds, and the playgrounds see the event afterwards. -/
theorem updateOtherWindow_play (h : Stands p sw) (hdest : ∀ no : ℤ, st.items .destSlide = some no → OfDeck p no)
    (hremove : isRemoveStorageEvent e = false) : ∃ x : SlidesWindow ι × LocalStorage ι,
      x.1.playgrounds = sw.playgrounds ∧ x.1.requests = sw.requests ∧ x.1.errors = sw.errors ∧ st.Touches .destSlide x.2 ∧
        ((∃ y, x.1.updatePlay x.2 j e = some y ∧ sw.updateOtherWindow st j e = (y.1, y.2, true)) ∨
          (x.1.updatePlay x.2 j e = none ∧
            sw.updateOtherWindow st j e = ({ x.1 with errors := x.1.errors + 1 }, x.2, false))) := by
  refine ⟨sw.setDeck st j (sw.deck.goTo st.goal).1, rfl, rfl, rfl, touches_setDeck .., ?_⟩
  rcases updateOtherWindow_cases (j := j) hremove st.goal_eq rfl with ⟨hhang, _⟩ | ⟨_, hcases⟩
  · rw [(h.goTo (j := j) hdest st.goal_eq).1] at hhang
    cases hhang
  · exact hcases

/-- What one of the two makes of an event: it receives the message of a click, or it leaves its
playgrounds alone, and code ends in a `TypeError`. -/
theorem Paired.reads (h : Paired p x₀ pair w clicks) (hpair : pair true ≠ pair false) {s : Bool}
    {sws : Bool → SlidesWindow ι} (hwin : ∀ s, w.windows (pair s) = some (.slides (sws s)))
    (hphase : Phase x₀ pair w.storage (fun s => (sws s).play) clicks) (hevents : w.storage.events (pair s) = e :: es)
    (hremove : isRemoveStorageEvent e = false) :
    ∃ x : SlidesWindow ι × LocalStorage ι, x.1.playgrounds = (sws s).playgrounds ∧ x.1.requests = (sws s).requests ∧
      x.1.errors = (sws s).errors ∧ (w.storage.read (pair s)).Touches .destSlide x.2 ∧
      ((∃ s' c, s = !s' ∧ isActionEvent e = true ∧ MessageRead x₀ pair x.2 (fun s => (sws s).play) clicks s' c ∧
          (sws s).updateOtherWindow (w.storage.read (pair s)) (pair s) e =
            ((x.1.playgroundHandler x.2 (pair s) c.action c.index false).1,
              (x.1.playgroundHandler x.2 (pair s) c.action c.index false).2, true)) ∨
        (isActionEvent e = false ∧
          ((isCodeEvent e = false ∧
              (sws s).updateOtherWindow (w.storage.read (pair s)) (pair s) e = (x.1, x.2, true)) ∨
            (sws s).updateOtherWindow (w.storage.read (pair s)) (pair s) e =
              ({ x.1 with errors := x.1.errors + 1 }, x.2, false)))) := by
  have hfollows : Follows p w.storage (pair s) (sws s) := h.synced.windows _ _ (hwin s)
  obtain ⟨x, hpl, hreq, herr, htouches, hcases⟩ := @updateOtherWindow_play _ p (w.storage.read (pair s)) (pair s) (sws s)
    e _ hfollows.toStands h.synced.destSlide hremove
  have hlen : x.1.playgrounds.length = x₀.playgrounds.length := by
    rw [hpl, ← SlidesWindow.length_play]
    exact hphase.length s
  refine ⟨x, hpl, hreq, herr, htouches, ?_⟩
  cases haction : isActionEvent e with
  | true =>
    obtain ⟨s', c, rfl, hmessage⟩ := hphase.message hpair hevents haction htouches
    have hhandler := updatePlay_message (j := pair !s') haction hmessage.action hmessage.index (hlen ▸ hmessage.lt)
    refine .inl ⟨s', c, rfl, rfl, hmessage, ?_⟩
    rcases hcases with ⟨y, hy, hx⟩ | ⟨hnone, _⟩
    · obtain rfl := Option.some.inj (hhandler.symm.trans hy)
      exact hx
    · rw [hhandler] at hnone
      cases hnone
  | false =>
    refine .inr ⟨rfl, ?_⟩
    have hcode : isCodeEvent e = true → x.2.items .playIndex = some x.1.playgrounds.length := fun he => by
      rw [hlen, htouches.items _ (by decide)]
      exact hphase.code hevents he
    rcases hcases with ⟨y, hy, hx⟩ | ⟨_, hx⟩
    · obtain ⟨hnocode, rfl⟩ := updatePlay_pass haction hremove hcode hy
      exact .inl ⟨hnocode, hx⟩
    · exact .inr hx

/-- The first event of one of the two. -/
theorem Paired.handle (h : Paired p x₀ pair w clicks) (hpair : pair true ≠ pair false) {s : Bool}
    (hwin : w.windows (pair s) = some (.slides sw)) (hevents : w.storage.events (pair s) = e :: es)
    {y : SlidesWindow ι × LocalStorage ι × Bool} (hy : sw.updateOtherWindow (w.storage.read (pair s)) (pair s) e = y) :
    Paired p x₀ pair (w.setSlides (pair s) (y.1, y.2.1)) clicks := by
  obtain ⟨sws, hwins, hphase⟩ := h.phase
  obtain rfl : sws s = sw := Window.slides.inj (Option.some.inj ((hwins s).symm.trans hwin))
  have hkeep : ∀ {z : SlidesWindow ι} {st : LocalStorage ι}, z.play = (sws s).play →
      Phase x₀ pair st (fun s => (sws s).play) clicks →
      Phase x₀ pair st (Function.update (fun s => (sws s).play) s z.play) clicks := by
    intro z st hz hst
    rwa [hz, Function.update_eq_self]
  refine h.setSlides hpair hwins (h.synced.handled hwin hevents hy) ?_
  subst hy
  cases hremove : isRemoveStorageEvent e with
  | true =>
    rw [updateOtherWindow_remove hremove]
    exact hkeep rfl (hphase.pass hevents (not_action_of_remove hremove) (.refl ..))
  | false =>
    obtain ⟨x, hpl, hreq, _, htouches, ⟨s', c, rfl, _, hmessage, hx⟩ | ⟨haction, hx⟩⟩ :=
      h.reads hpair hwins hphase hevents hremove
    · have hplay : x.1.play = (sws !s').play := by rw [SlidesWindow.play, hpl, hreq, SlidesWindow.play]
      have hreceive := hmessage.receive
      rw [hx]
      dsimp only at hreceive ⊢
      rw [SlidesWindow.play_playgroundHandler, SlidesWindow.storage_playgroundHandler, hplay]
      exact hreceive
    · have hplay : x.1.play = (sws s).play := by rw [SlidesWindow.play, hpl, hreq, SlidesWindow.play]
      have hpass := hphase.pass hevents haction htouches
      rcases hx with ⟨_, hx⟩ | hx <;> rw [hx] <;> exact hkeep hplay hpass

/-- The code stays as it is, and an event of some code is an error. -/
theorem Paired.code (h : Paired p x₀ pair w clicks) (hpair : pair true ≠ pair false) {s : Bool}
    (hwin : w.windows (pair s) = some (.slides sw)) (hevents : w.storage.events (pair s) = e :: es)
    {y : SlidesWindow ι × LocalStorage ι × Bool} (hy : sw.updateOtherWindow (w.storage.read (pair s)) (pair s) e = y) :
    y.1.code = sw.code ∧
      (isRemoveStorageEvent e = false → isCodeEvent e = true → y.1.errors = sw.errors + 1) := by
  obtain ⟨sws, hwins, hphase⟩ := h.phase
  obtain rfl : sws s = sw := Window.slides.inj (Option.some.inj ((hwins s).symm.trans hwin))
  subst hy
  cases hremove : isRemoveStorageEvent e with
  | true =>
    rw [updateOtherWindow_remove hremove]
    exact ⟨rfl, fun hno => nomatch hno⟩
  | false =>
    obtain ⟨x, hpl, _, herr, _, ⟨s', c, rfl, haction, _, hx⟩ | ⟨_, hx⟩⟩ := h.reads hpair hwins hphase hevents hremove
    · rw [hx]
      refine ⟨(SlidesWindow.code_playgroundHandler ..).trans (congrArg (List.map Playground.innerHTML) hpl), fun _ hcode => ?_⟩
      obtain ⟨action, rfl⟩ := exists_of_isActionEvent haction
      cases hcode
    · rcases hx with ⟨hnocode, hx⟩ | hx
      · rw [hx]
        refine ⟨congrArg (List.map Playground.innerHTML) hpl, fun _ hcode => ?_⟩
        rw [hnocode] at hcode
        cases hcode
      · rw [hx]
        exact ⟨congrArg (List.map Playground.innerHTML) hpl, fun _ _ => congrArg (· + 1) herr⟩

theorem paired_deliver (h : Paired p x₀ pair w clicks) (hpair : pair true ≠ pair false)
    (hs : w.deliver p j = some w') : Paired p x₀ pair w' clicks := by
  have hsynced := synced_deliver h.synced hs
  obtain ⟨e, es, hevents, hcases⟩ := deliver_cases hs
  rcases hcases with ⟨innerHTML, hwin, rfl⟩ | ⟨sw, hwin, hrun, y, hy, rfl⟩
  · obtain ⟨sws, hwins, hphase⟩ := h.phase
    have hne : ∀ s, pair s ≠ j := by
      rintro s rfl
      rw [hwins s] at hwin
      cases hwin
    refine h.of_notes hsynced (fun i sw => ?_) (fun x hx => ?_)
    · by_cases hi : i = j
      · subst hi
        simp [hwin]
      · dsimp only
        rw [Function.update_of_ne hi]
    · refine hx.congr (fun _ _ => rfl) (fun s => ?_) (fun s => codeEvents_read _ _ _)
      rw [actionEvents, actionEvents, Storage.events_read, Function.update_of_ne (hne s)]
  · obtain ⟨s, rfl⟩ := h.only j sw hwin
    have hpaired := h.handle hpair hwin hevents hy
    split
    · exact hpaired.updateNotes _
    · exact hpaired

/-! ## Taking turns -/

/-- No window, notes or frame is opened or closed, and nobody clicks, types or resizes in a playground
before both windows have read their events. -/
def TakesTurns (pair : Bool → ι) (w : World ι) : World.Action ι → Prop
  | .input .. | .deliver .. => True
  | .click .. | .edit .. | .resize .. => ∀ s, w.storage.events (pair s) = []
  | .load .. | .toggleNotesWindow .. | .frameLoaded .. | .close .. => False

instance (pair : Bool → ι) (w : World ι) : ∀ a, Decidable (TakesTurns pair w a)
  | .input .. | .deliver .. => inferInstanceAs (Decidable True)
  | .click .. | .edit .. | .resize .. => inferInstanceAs (Decidable (∀ s, w.storage.events (pair s) = []))
  | .load .. | .toggleNotesWindow .. | .frameLoaded .. | .close .. => inferInstanceAs (Decidable False)

/-- The clicks of a run. -/
def watchClicks (_ : World ι) (a : World.Action ι) (_ : World ι) (clicks : List Click) : List Click :=
  match a with
  | .click _ action index shiftKey => clicks ++ [{ action := action, index := index, shiftKey := shiftKey }]
  | _ => clicks

/-- A step of one of the two that leaves its playgrounds as they stand. -/
theorem Paired.keep (h : Paired p x₀ pair w clicks) (hpair : pair true ≠ pair false) {s : Bool}
    (hwin : w.windows (pair s) = some (.slides sw)) {y : SlidesWindow ι × LocalStorage ι}
    (hsynced : Synced p (w.setSlides (pair s) y)) (hplay : y.1.play = sw.play)
    (hphase : ∀ x, Phase x₀ pair w.storage x clicks → Phase x₀ pair y.2 x clicks) :
    Paired p x₀ pair (w.setSlides (pair s) y) clicks := by
  obtain ⟨sws, hwins, hp⟩ := h.phase
  obtain rfl : sws s = sw := Window.slides.inj (Option.some.inj ((hwins s).symm.trans hwin))
  refine h.setSlides hpair hwins hsynced ?_
  rw [hplay, Function.update_eq_self]
  exact hphase _ hp

theorem paired_click (h : Paired p x₀ pair w clicks) (hpair : pair true ≠ pair false) {s : Bool}
    (hwin : w.windows (pair s) = some (.slides sw)) (hread : ∀ s, w.storage.events (pair s) = []) (c : Click)
    (hlt : c.index < sw.playgrounds.length) :
    Paired p x₀ pair (w.setSlides (pair s) (sw.playgroundHandler w.storage (pair s) c.action c.index c.shiftKey))
      (clicks ++ [c]) := by
  obtain ⟨sws, hwins, hphase⟩ := h.phase
  obtain rfl : sws s = sw := Window.slides.inj (Option.some.inj ((hwins s).symm.trans hwin))
  have hmem : ∀ s, pair s ∈ w.storage.listeners := fun s => (h.synced.listeners _).mpr (by rw [hwins s]; rfl)
  have hlt' : c.index < x₀.playgrounds.length := by
    rw [← hphase.length s, SlidesWindow.length_play]
    exact hlt
  refine h.setSlides hpair hwins (h.synced.aside hwin (aside_playgroundHandler ..)) ?_
  rw [SlidesWindow.play_playgroundHandler, SlidesWindow.storage_playgroundHandler]
  exact hphase.send hpair hmem hread s c hlt'

theorem paired_step {a : World.Action ι} (h : Paired p x₀ pair w clicks) (hpair : pair true ≠ pair false)
    (hok : TakesTurns pair w a) (hs : w.step p a = some w') : Paired p x₀ pair w' (watchClicks w a w' clicks) := by
  have hlength : ∀ {s sw}, w.windows (pair s) = some (.slides sw) → sw.playgrounds.length = x₀.playgrounds.length := by
    intro s sw hwin
    obtain ⟨sws, hwins, hphase⟩ := h.phase
    obtain rfl : sws s = sw := Window.slides.inj (Option.some.inj ((hwins s).symm.trans hwin))
    rw [← SlidesWindow.length_play]
    exact hphase.length s
  have hopens : OpensInDeck p w a := by
    cases a <;> first | exact trivial | exact hok.elim
  have hsynced := synced_step h.synced hopens hs
  cases a with
  | input j a =>
    obtain ⟨sw, hslides, hs⟩ := Option.bind_eq_some_iff.mp hs
    obtain ⟨deck, hdeck, rfl⟩ := Option.map_eq_some_iff.mp hs
    obtain ⟨s, rfl, hwin⟩ := h.slides hslides
    exact h.keep hpair hwin hsynced rfl fun x hx => hx.touch (touches_setDeck ..)
  | click j action index shiftKey =>
    obtain ⟨sw, hslides, hs⟩ := Option.bind_eq_some_iff.mp hs
    obtain ⟨hlt, hs⟩ := Option.ite_none_right_eq_some.mp hs
    obtain rfl := Option.some.inj hs
    obtain ⟨s, rfl, hwin⟩ := h.slides hslides
    exact paired_click h hpair hwin hok { action := action, index := index, shiftKey := shiftKey } hlt
  | edit j index innerHTML =>
    obtain ⟨sw, hslides, hs⟩ := Option.bind_eq_some_iff.mp hs
    obtain ⟨hlt, hs⟩ := Option.ite_none_right_eq_some.mp hs
    obtain rfl := Option.some.inj hs
    obtain ⟨s, rfl, hwin⟩ := h.slides hslides
    have hindex := Storage.touches_setItem w.storage (pair s) Key.playIndex sw.playgrounds.length
    have hcode := Storage.touches_setItem (w.storage.setItem (pair s) Key.playIndex sw.playgrounds.length) (pair s)
      Key.playCode innerHTML
    refine h.keep hpair hwin hsynced (SlidesWindow.play_modify_innerHTML ..) fun x hx => ?_
    refine hx.write hok ?_ ?_ ?_ fun s' => ?_
    · exact (hcode.items _ (by decide)).trans (hindex.items _ (by decide))
    · exact (hcode.items _ (by decide)).trans (hindex.items _ (by decide))
    · refine (hcode.items _ (by decide)).trans ?_
      rw [Storage.items_setItem, Function.update_self, hlength hwin]
    · exact (hcode.filter_events (fun _ => rfl) _).trans (hindex.filter_events (fun _ => rfl) _)
  | resize j =>
    obtain ⟨sw, hslides, rfl⟩ := Option.map_eq_some_iff.mp hs
    obtain ⟨s, rfl, hwin⟩ := h.slides hslides
    have hindex := Storage.touches_setItem w.storage (pair s) Key.playIndex sw.playgrounds.length
    refine h.keep hpair hwin hsynced rfl fun x hx => ?_
    refine hx.write hok (hindex.items _ (by decide)) (hindex.items _ (by decide)) ?_
      fun s' => hindex.filter_events (fun _ => rfl) _
    rw [SlidesWindow.resizeHandler, Storage.items_setItem, Function.update_self, hlength hwin]
  | deliver j => exact paired_deliver h hpair hs
  | load j slideNo => exact hok.elim
  | toggleNotesWindow j n => exact hok.elim
  | frameLoaded j f => exact hok.elim
  | close j => exact hok.elim

/-! ## Runs -/

/-- The states that two windows reach from one at rest, with the clicks so far. -/
def PlayRun (p : Presentation) (pair : Bool → ι) (w₀ w : World ι) (clicks : List Click) : Prop :=
  Reach (observe (World.step p) watchClicks) (fun x a => TakesTurns pair x.1 a) (w₀, []) (w, clicks)

theorem playRun_of_reach {w₀ : World ι} {x : World ι × List Click}
    (h : Reach (observe (World.step p) watchClicks) (fun x a => TakesTurns pair x.1 a) (w₀, []) x) :
    PlayRun p pair w₀ x.1 x.2 := h

theorem paired_of_run {w₀ : World ι} (hpair : pair true ≠ pair false)
    (h₀ : Reach (World.step p) (OpensInDeck p) World.start w₀) (hrest : AtRest pair w₀ x₀)
    (h : PlayRun p pair w₀ w clicks) : Paired p x₀ pair w clicks :=
  Reach.invariant (fun x : World ι × List Click => Paired p x₀ pair x.1 x.2) (hrest.paired (synced_of_reach h₀))
    (fun x a y _ hi hok hs => by
      obtain ⟨hstep, hclicks⟩ := observe_eq_some.mp hs
      rw [hclicks]
      exact paired_step hi hpair hok hstep) h

/-- Each click is carried out once in each of the two windows, in the order of the clicks: a window has
carried out all of them, or all but the last, which it has still to read of. -/
theorem clicks_once (p : Presentation) (pair : Bool → ι) (x₀ : Play) (w₀ w : World ι) (clicks : List Click)
    (hpair : pair true ≠ pair false) (h₀ : Reach (World.step p) (OpensInDeck p) World.start w₀)
    (hrest : AtRest pair w₀ x₀) (h : PlayRun p pair w₀ w clicks) (s : Bool) :
    ∃ sw, w.windows (pair s) = some (.slides sw) ∧ (sw.play = x₀.carry clicks ∨
      (w.storage.events (pair s) ≠ [] ∧ ∃ c, clicks = clicks.dropLast ++ [c] ∧ sw.play = x₀.carry clicks.dropLast)) := by
  obtain ⟨sws, hwins, hphase⟩ := (paired_of_run hpair h₀ hrest h).phase
  refine ⟨sws s, hwins s, ?_⟩
  cases hphase with
  | idle haction hshift hread hcodes hx => exact .inl (hx s)
  | sent s' c done hclicks haction hindex hlt hshift hsent hone hcodes hx hy =>
    by_cases hs : s = s'
    · exact .inl (hs ▸ hx)
    · obtain rfl := Bool.eq_not_of_ne hs
      obtain ⟨e, he⟩ := hone
      refine .inr ⟨fun hread => ?_, c, ?_, ?_⟩
      · rw [actionEvents, hread] at he
        cases he
      · rw [hclicks, List.dropLast_concat]
      · rw [hclicks, List.dropLast_concat]
        exact hy

/-- Code that is typed in one window stays there: handling an event changes the code of no window, and
the event of some code ends in a `TypeError`. -/
theorem edits_stay (p : Presentation) (pair : Bool → ι) (x₀ : Play) (w₀ w w' : World ι) (clicks : List Click) (j : ι)
    (hpair : pair true ≠ pair false) (h₀ : Reach (World.step p) (OpensInDeck p) World.start w₀)
    (hrest : AtRest pair w₀ x₀) (h : PlayRun p pair w₀ w clicks) (hs : w.step p (.deliver j) = some w') :
    (∀ i sw sw', w.windows i = some (.slides sw) → w'.windows i = some (.slides sw') → sw'.code = sw.code) ∧
      ∀ html es sw sw', w.storage.events j = .item .playCode (some html) :: es → html ≠ "" →
        w.windows j = some (.slides sw) → w'.windows j = some (.slides sw') → sw'.errors = sw.errors + 1 := by
  have hpaired := paired_of_run hpair h₀ hrest h
  obtain ⟨e, es, hevents, hcases⟩ := deliver_cases hs
  rcases hcases with ⟨innerHTML, hwin, rfl⟩ | ⟨sw, hwin, _, y, hy, hw⟩
  · refine ⟨fun i sw sw' hi hi' => ?_, fun _ _ sw _ _ _ hj _ => ?_⟩
    · by_cases hij : i = j
      · subst hij
        rw [hwin] at hi
        cases hi
      · dsimp only at hi'
        rw [Function.update_of_ne hij, hi] at hi'
        obtain rfl := Window.slides.inj (Option.some.inj hi')
        rfl
    · rw [hwin] at hj
      cases hj
  · have hslides : ∀ i sw', w'.windows i = some (.slides sw') ↔
        (w.setSlides j (y.1, y.2.1)).windows i = some (.slides sw') := by
      intro i sw'
      rw [hw]
      split
      · exact slides_updateNotes ..
      · rfl
    obtain ⟨s, rfl⟩ := hpaired.only j sw hwin
    obtain ⟨hcode, herror⟩ := hpaired.code hpair hwin hevents hy
    refine ⟨fun i sw₁ sw' hi hi' => ?_, fun html es' sw₁ sw' he hhtml hj hj' => ?_⟩
    · rw [hslides, World.windows_setSlides] at hi'
      by_cases hij : i = pair s
      · subst hij
        rw [Function.update_self] at hi'
        obtain rfl := Window.slides.inj (Option.some.inj hi')
        obtain rfl := Window.slides.inj (Option.some.inj (hwin.symm.trans hi))
        exact hcode
      · rw [Function.update_of_ne hij, hi] at hi'
        obtain rfl := Window.slides.inj (Option.some.inj hi')
        rfl
    · rw [hslides, World.windows_setSlides, Function.update_self] at hj'
      obtain rfl := Window.slides.inj (Option.some.inj hj')
      obtain rfl := Window.slides.inj (Option.some.inj (hwin.symm.trans hj))
      obtain ⟨rfl, _⟩ := List.cons.inj (hevents.symm.trans he)
      exact herror (decide_eq_false hhtml) rfl

end

/-- Two windows, both at the first slide. -/
def demoOpening : List (World.Action Bool) := [.load false none, .load true none]

theorem demoOpening_enabled : (runActions (guarded (World.step demoPresentation) (OpensInDeck demoPresentation))
    World.start demoOpening).isSome := by decide

def demoRest : World Bool := (runActions (guarded (World.step demoPresentation) (OpensInDeck demoPresentation))
  World.start demoOpening).get demoOpening_enabled

theorem demoRest_reached : Reach (World.step demoPresentation) (OpensInDeck demoPresentation) World.start demoRest :=
  Reach.of_guarded (Option.some_get _).symm

def demoPlay : Play where
  playgrounds := [(false, false), (false, false)]
  requests := []

theorem demoRest_atRest : AtRest id demoRest demoPlay where
  windows s := by cases s <;> exact ⟨_, rfl, rfl⟩
  only j _ _ := ⟨j, rfl⟩
  action := rfl
  shiftKey := rfl
  read s := by cases s <;> rfl

/-- A run with the shift key in one window while the slides move, code typed in the other, and a click
that has not been read of. -/
def demoTurns : List (World.Action Bool) :=
  [.click false .onRun 1 true, .input true .clickNext, .deliver true, .deliver true, .deliver true, .deliver false,
    .deliver false, .deliver false, .edit true 0 "package demo", .deliver false, .deliver false, .click true .onKill 1 false,
    .deliver false]

theorem demoTurns_enabled : (runActions (guarded (observe (World.step demoPresentation) watchClicks)
    fun x a => TakesTurns id x.1 a) (demoRest, []) demoTurns).isSome := by decide

def demoPlayed : World Bool × List Click := (runActions (guarded (observe (World.step demoPresentation) watchClicks)
  fun x a => TakesTurns id x.1 a) (demoRest, []) demoTurns).get demoTurns_enabled

theorem demoPlayed_run : PlayRun demoPresentation id demoRest demoPlayed.1 demoPlayed.2 :=
  playRun_of_reach (Reach.of_guarded (Option.some_get _).symm)

theorem clicks_once_demo : ∃ sw, demoPlayed.1.windows false = some (.slides sw) ∧
    (sw.play = demoPlay.carry demoPlayed.2 ∨ (demoPlayed.1.storage.events false ≠ [] ∧
      ∃ c, demoPlayed.2 = demoPlayed.2.dropLast ++ [c] ∧ sw.play = demoPlay.carry demoPlayed.2.dropLast)) :=
  clicks_once demoPresentation id demoPlay demoRest demoPlayed.1 demoPlayed.2 (by decide) demoRest_reached demoRest_atRest
    demoPlayed_run false

theorem demoPlayed_deliver : (demoPlayed.1.step demoPresentation (.deliver false)).isSome := by decide

def demoRead : World Bool := (demoPlayed.1.step demoPresentation (.deliver false)).get demoPlayed_deliver

theorem edits_stay_demo :
    (∀ i sw sw', demoPlayed.1.windows i = some (.slides sw) → demoRead.windows i = some (.slides sw') →
      sw'.code = sw.code) ∧
    ∀ html es sw sw', demoPlayed.1.storage.events false = .item .playCode (some html) :: es → html ≠ "" →
      demoPlayed.1.windows false = some (.slides sw) → demoRead.windows false = some (.slides sw') →
        sw'.errors = sw.errors + 1 :=
  edits_stay demoPresentation id demoPlay demoRest demoPlayed.1 demoRead demoPlayed.2 false (by decide) demoRest_reached
    demoRest_atRest demoPlayed_run (Option.some_get _).symm

end HalfMesh.Slides
