import HalfMesh.Foundations.Progress
import HalfMesh.Slides.Moving

/-! The windows keep up with each other. Whatever windows are opened and closed and whatever is done in
them, as long as no window is opened at a slide that the deck does not have: no window hangs, each
shows what it should, and one that has read its events shows the stored slide, or the notes of it. -/
namespace HalfMesh.Slides
open HalfMesh.Foundations
set_option autoImplicit false
set_option maxHeartbeats 250000
set_option maxRecDepth 120000

section
variable {ι : Type} {p : Presentation} {w w' : World ι} {st st' : LocalStorage ι} {i j : ι}
  {sw sw' : SlidesWindow ι} {win : Window ι} {e : Event}

/-! ## A window -/

def OfDeck (p : Presentation) (no : ℤ) : Prop := 0 ≤ no ∧ no < p.slideEls.length

instance (p : Presentation) (no : ℤ) : Decidable (OfDeck p no) := inferInstanceAs (Decidable (_ ∧ _))

/-- The window shows a slide of the deck as it should. -/
structure Stands (p : Presentation) (sw : SlidesWindow ι) : Prop where
  sound : Sound p.slideEls.length sw.deck
  flushed : sw.deck.stored = []
  running : sw.hung = false
  notesWindow : ∀ notesWindow, sw.notesWindow = some notesWindow → OfDeck p (notesWindow.slidesUrl - 1)

/-- It is the stored slide if there is one, or the window will hear of it. -/
structure Follows (p : Presentation) (st : LocalStorage ι) (j : ι) (sw : SlidesWindow ι) : Prop extends Stands p sw where
  current : st.UpToDate (fun e => isRemoveStorageEvent e = false) j .destSlide
    (fun o => ∀ no : ℤ, o = some no → sw.deck.curSlide = no)

/-- The notes shown are those of the stored slide, or an event will come. -/
def ShowsNotes (p : Presentation) (st : LocalStorage ι) (j : ι) (innerHTML : String) : Prop :=
  st.UpToDate (fun _ => True) j .destSlide (fun o => innerHTML = p.updateNotes o)

def WindowOk (p : Presentation) (st : LocalStorage ι) (j : ι) : Window ι → Prop
  | .slides sw => Follows p st j sw
  | .notes innerHTML => ShowsNotes p st j innerHTML

/-- A window keeps up with what the others write. -/
theorem WindowOk.writes (h : WindowOk p st j win) (hw : st.Writes i st') (hj : j ≠ i) (hmem : j ∈ st.listeners) :
    WindowOk p st' j win := by
  cases win with
  | slides sw =>
    exact { h with current := h.current.writes hw hj hmem (fun _ => rfl) (.inl fun _ hno => nomatch hno) }
  | notes innerHTML =>
    have hnotes : ShowsNotes p st j innerHTML := h
    exact hnotes.writes hw hj hmem (fun _ => trivial) (.inr ⟨trivial, trivial⟩)

/-- Nothing but the stored slide and its own events matters to a window. -/
theorem WindowOk.congr (h : WindowOk p st j win) (hitem : st'.items .destSlide = st.items .destSlide)
    (hevents : st'.events j = st.events j) : WindowOk p st' j win := by
  cases win with
  | slides sw => exact { h with current := by rw [Storage.UpToDate, hitem, hevents]; exact h.current }
  | notes innerHTML =>
    rw [WindowOk, ShowsNotes, Storage.UpToDate, hitem, hevents]
    exact h

/-- A handler that has to do with the playgrounds only. -/
structure Aside (j : ι) (x x' : SlidesWindow ι × LocalStorage ι) : Prop where
  writes : x.2.Writes j x'.2
  destSlide : x'.2.items .destSlide = x.2.items .destSlide
  deck : x'.1.deck = x.1.deck
  hung : x'.1.hung = x.1.hung
  notesWindow : x'.1.notesWindow = x.1.notesWindow

theorem Follows.aside {x : SlidesWindow ι × LocalStorage ι} (h : Follows p st j sw) (ha : Aside j (sw, st) x) :
    Follows p x.2 j x.1 where
  sound := ha.deck ▸ h.sound
  flushed := ha.deck ▸ h.flushed
  running := ha.hung.trans h.running
  current := by
    rw [Storage.UpToDate, ha.destSlide, ha.writes.own, ha.deck]
    exact h.current
  notesWindow notesWindow hnotes := h.notesWindow notesWindow (ha.notesWindow ▸ hnotes)

theorem Follows.count_error (h : Follows p st j sw) : Follows p st j { sw with errors := sw.errors + 1 } :=
  ⟨⟨h.sound, h.flushed, h.running, h.notesWindow⟩, h.current⟩

theorem kill_aside (sw : SlidesWindow ι) (index : ℕ) :
    (sw.kill index).deck = sw.deck ∧ (sw.kill index).hung = sw.hung ∧ (sw.kill index).notesWindow = sw.notesWindow := by
  unfold SlidesWindow.kill
  split
  · split <;> exact ⟨rfl, rfl, rfl⟩
  · exact ⟨rfl, rfl, rfl⟩

theorem slides_eq_some : w.slides j = some sw ↔ w.windows j = some (.slides sw) ∧ sw.hung = false := by
  unfold World.slides
  split
  · next win hwin =>
    rw [hwin, Option.ite_none_left_eq_some, Bool.not_eq_true]
    constructor
    · rintro ⟨hrun, hsw⟩
      exact ⟨congrArg (fun x => some (Window.slides x)) (Option.some.inj hsw), Option.some.inj hsw ▸ hrun⟩
    · rintro ⟨hsw, hrun⟩
      obtain rfl := Window.slides.inj (Option.some.inj hsw)
      exact ⟨hrun, rfl⟩
  · next hno => exact ⟨fun h => (nomatch h), fun h => absurd h.1 (hno sw)⟩

/-! ## All windows -/

structure Synced (p : Presentation) (w : World ι) : Prop where
  listeners : ∀ j, j ∈ w.storage.listeners ↔ (w.windows j).isSome
  destSlide : ∀ no : ℤ, w.storage.items .destSlide = some no → OfDeck p no
  windows : ∀ j win, w.windows j = some win → WindowOk p w.storage j win

theorem synced_start (p : Presentation) : Synced p (World.start : World ι) where
  listeners j := by simp [World.start]
  destSlide _ hno := nomatch hno
  windows _ _ hwin := nomatch hwin

variable [DecidableEq ι]

/-- A step in one window that leaves the others as they are, and is no harm to them. -/
theorem Synced.update (h : Synced p w) (j : ι) (hothers : ∀ i, i ≠ j → w'.windows i = w.windows i)
    (hlisteners : ∀ i, i ≠ j → (i ∈ w'.storage.listeners ↔ i ∈ w.storage.listeners))
    (hkeep : ∀ i win, i ≠ j → i ∈ w.storage.listeners → WindowOk p w.storage i win → WindowOk p w'.storage i win)
    (hdest : ∀ no : ℤ, w'.storage.items .destSlide = some no → OfDeck p no)
    (hopen : j ∈ w'.storage.listeners ↔ (w'.windows j).isSome)
    (hself : ∀ win, w'.windows j = some win → WindowOk p w'.storage j win) : Synced p w' where
  listeners i := by
    by_cases hi : i = j
    · subst hi
      exact hopen
    · rw [hlisteners i hi, hothers i hi]
      exact h.listeners i
  destSlide := hdest
  windows i win hwin := by
    by_cases hi : i = j
    · subst hi
      exact hself win hwin
    · rw [hothers i hi] at hwin
      have hmem : i ∈ w.storage.listeners := (h.listeners i).mpr (by rw [hwin]; rfl)
      exact hkeep i win hi hmem (h.windows i win hwin)

theorem Synced.closeWindow (h : Synced p w) (j : ι) : Synced p (w.closeWindow j) := by
  refine h.update j (fun i hi => Function.update_of_ne hi ..) (fun i hi => ?_) (fun i win hi _ hok => ?_) h.destSlide ?_ ?_
  · exact Finset.mem_erase.trans (and_iff_right hi)
  · exact hok.congr rfl (Function.update_of_ne hi ..)
  · simp
  · intro win hwin
    simp at hwin

theorem Synced.openWindow (h : Synced p w) (j : ι) (hok : WindowOk p (w.storage.listen j) j win) :
    Synced p (w.openWindow j win) := by
  refine h.update j (fun i hi => Function.update_of_ne hi ..) (fun i hi => ?_) (fun i win hi _ hok => ?_) h.destSlide ?_ ?_
  · exact Finset.mem_insert.trans (or_iff_right hi)
  · exact hok.congr rfl (Function.update_of_ne hi ..)
  · simp
  · intro win' hwin
    rw [World.windows_openWindow, Function.update_self] at hwin
    obtain rfl := Option.some.inj hwin
    exact hok

/-- A handler of one window, that has read an event or not. -/
theorem Synced.handle (h : Synced p w) (hj : (w.windows j).isSome) (hst : st = w.storage ∨ st = w.storage.read j)
    (hw : st.Writes j st') (hdest : ∀ no : ℤ, st'.items .destSlide = some no → OfDeck p no) (hok : WindowOk p st' j win) :
    Synced p { windows := Function.update w.windows j (some win), storage := st' } := by
  have hlisteners : st.listeners = w.storage.listeners := by
    rcases hst with rfl | rfl <;> rfl
  have hothers : ∀ i win, i ≠ j → WindowOk p w.storage i win → WindowOk p st i win := by
    intro i win hi hok
    rcases hst with rfl | rfl
    · exact hok
    · exact hok.congr rfl (Function.update_of_ne hi ..)
  refine h.update j (fun i hi => Function.update_of_ne hi ..) (fun i hi => ?_) (fun i win hi hmem hok => ?_) hdest ?_ ?_
  · rw [hw.listeners, hlisteners]
  · exact (hothers i win hi hok).writes hw hi (hlisteners ▸ hmem)
  · dsimp only
    rw [Function.update_self, hw.listeners, hlisteners, h.listeners]
    simpa using hj
  · intro win' hwin
    dsimp only at hwin
    rw [Function.update_self] at hwin
    exact Option.some.inj hwin ▸ hok

theorem Synced.setSlides (h : Synced p w) (hj : (w.windows j).isSome) (hw : w.storage.Writes j st')
    (hdest : ∀ no : ℤ, st'.items .destSlide = some no → OfDeck p no) (hok : Follows p st' j sw) :
    Synced p (w.setSlides j (sw, st')) := @Synced.handle _ _ _ _ _ _ (.slides sw) _ h hj (.inl rfl) hw hdest hok

/-! ## Playgrounds -/

theorem writes_updatePlayAction (st : LocalStorage ι) (j : ι) (action : PlayAction) :
    st.Writes j (updatePlayAction st j action) := by
  unfold updatePlayAction
  split
  · exact Storage.writes_removeItem ..
  · exact Storage.writes_setItem ..

theorem writes_updatePlayShiftKey (st : LocalStorage ι) (j : ι) (shiftKey : Bool) :
    st.Writes j (updatePlayShiftKey st j shiftKey) := by
  unfold updatePlayShiftKey
  split
  · exact Storage.writes_removeItem ..
  · split
    · exact Storage.writes_setItem ..
    · exact .refl ..

theorem writes_updatePlayStorage (st : LocalStorage ι) (j : ι) (action : PlayAction) (index : ℕ) (shiftKey : Bool) :
    st.Writes j (updatePlayStorage st j action index shiftKey) := by
  have hsent := (Storage.writes_setItem st j Key.playIndex index).trans (writes_updatePlayAction _ j action)
  unfold updatePlayStorage
  dsimp only
  split
  · exact hsent.trans (writes_updatePlayShiftKey ..)
  · exact hsent

/-- The playgrounds have keys of their own. -/
theorem destSlide_updatePlayStorage (st : LocalStorage ι) (j : ι) (action : PlayAction) (index : ℕ) (shiftKey : Bool) :
    (updatePlayStorage st j action index shiftKey).items .destSlide = st.items .destSlide := by
  unfold updatePlayStorage updatePlayAction updatePlayShiftKey
  dsimp only
  split_ifs <;> simp [Storage.items_setItem, Storage.items_removeItem]

theorem aside_playgroundHandler (sw : SlidesWindow ι) (st : LocalStorage ι) (j : ι) (action : PlayAction) (index : ℕ)
    (shiftKey : Bool) : Aside j (sw, st) (sw.playgroundHandler st j action index shiftKey) := by
  obtain ⟨hdeck, hhung, hnotes⟩ := kill_aside sw index
  cases action with
  | onRun =>
    exact ⟨writes_updatePlayStorage st j .onRun index shiftKey, destSlide_updatePlayStorage st j .onRun index shiftKey,
      hdeck, hhung, hnotes⟩
  | onKill =>
    exact ⟨writes_updatePlayStorage st j .onKill index false, destSlide_updatePlayStorage st j .onKill index false,
      hdeck, hhung, hnotes⟩
  | onClose =>
    exact ⟨writes_updatePlayStorage st j .onClose index false, destSlide_updatePlayStorage st j .onClose index false,
      hdeck, hhung, hnotes⟩

theorem aside_updatePlay {x : SlidesWindow ι × LocalStorage ι} (h : sw.updatePlay st j e = some x) :
    Aside j (sw, st) x := by
  have hself : ∀ sw' : SlidesWindow ι, sw'.deck = sw.deck → sw'.hung = sw.hung → sw'.notesWindow = sw.notesWindow →
      Aside j (sw, st) (sw', st) := fun sw' hdeck hhung hnotes => ⟨.refl .., rfl, hdeck, hhung, hnotes⟩
  unfold SlidesWindow.updatePlay at h
  split at h
  · split at h
    · obtain ⟨_, hx⟩ := Option.ite_none_right_eq_some.mp h
      obtain rfl := Option.some.inj hx
      exact aside_playgroundHandler ..
    · cases h
  · split at h
    · obtain ⟨_, hx⟩ := Option.ite_none_right_eq_some.mp h
      obtain rfl := Option.some.inj hx
      exact hself _ rfl rfl rfl
    · cases h
  · obtain rfl := Option.some.inj h
    exact hself _ rfl rfl rfl

theorem aside_inputHandler (sw : SlidesWindow ι) (st : LocalStorage ι) (j : ι) (index : ℕ) (innerHTML : String) :
    Aside j (sw, st) (sw.inputHandler st j index innerHTML) where
  writes := (Storage.writes_setItem ..).trans (Storage.writes_setItem ..)
  destSlide := by simp [SlidesWindow.inputHandler, Storage.items_setItem]
  deck := rfl
  hung := rfl
  notesWindow := rfl

theorem aside_resizeHandler (sw : SlidesWindow ι) (st : LocalStorage ι) (j : ι) :
    Aside j (sw, st) (sw.resizeHandler st j) where
  writes := Storage.writes_setItem ..
  destSlide := by simp [SlidesWindow.resizeHandler, Storage.items_setItem]
  deck := rfl
  hung := rfl
  notesWindow := rfl

theorem Synced.aside {x : SlidesWindow ι × LocalStorage ι} (h : Synced p w) (hwin : w.windows j = some (.slides sw))
    (ha : Aside j (sw, w.storage) x) : Synced p (w.setSlides j x) :=
  h.setSlides (by rw [hwin]; rfl) ha.writes (fun no hno => h.destSlide no (ha.destSlide ▸ hno))
    (Follows.aside (h.windows j _ hwin) ha)

/-! ## Slides -/

theorem destSlide_setDeck (sw : SlidesWindow ι) (st : LocalStorage ι) (j : ι) (deck : Deck) :
    (sw.setDeck st j deck).2.items .destSlide = deck.stored.getLast?.or (st.items .destSlide) := by
  unfold SlidesWindow.setDeck
  rw [Storage.items_setItems]
  cases deck.stored.getLast? with
  | some no => exact Function.update_self ..
  | none => rfl

theorem writes_setDeck (sw : SlidesWindow ι) (st : LocalStorage ι) (j : ι) (deck : Deck) :
    st.Writes j (sw.setDeck st j deck).2 := Storage.writes_setItems ..

theorem Sound.ofDeck {d : Deck} (h : Sound p.slideEls.length d) : OfDeck p d.curSlide := by
  have hrange := h.inRange
  rw [InRange, h.length] at hrange
  exact hrange

/-- What the slides store is the slide they show, which is one of the deck. -/
theorem ofDeck_setDeck {d : Deck} {c : ℤ} (hsound : Sound p.slideEls.length d) (hrecords : Records c d)
    (hdest : ∀ no : ℤ, st.items .destSlide = some no → OfDeck p no) (no : ℤ)
    (hno : (sw.setDeck st j d).2.items .destSlide = some no) : OfDeck p no := by
  rw [destSlide_setDeck] at hno
  rcases hrecords with ⟨hstored, _⟩ | hlast
  · rw [hstored] at hno
    exact hdest no hno
  · rw [hlast] at hno
    exact Option.some.inj hno ▸ hsound.ofDeck

theorem Follows.setDeck {d : Deck} (h : Follows p st j sw) (hsound : Sound p.slideEls.length d)
    (hrecords : Records sw.deck.curSlide d) : Follows p (sw.setDeck st j d).2 j (sw.setDeck st j d).1 where
  sound := ⟨hsound.shown, hsound.inRange, hsound.length, hsound.notesEnabled⟩
  flushed := rfl
  running := h.running
  current := by
    rcases hrecords with ⟨hstored, hcur⟩ | hlast
    · have hsame : (sw.setDeck st j d).2 = st := by
        unfold SlidesWindow.setDeck
        rw [hstored]
        rfl
      rw [hsame]
      have hcurrent := h.current
      rw [← hcur] at hcurrent
      exact hcurrent
    · refine .inl fun no hno => ?_
      rw [destSlide_setDeck, hlast] at hno
      exact Option.some.inj hno
  notesWindow := h.notesWindow

/-- Reading the stored slide brings the window to it, or to the first one if none is stored. -/
theorem Stands.goTo (h : Stands p sw) (hdest : ∀ no : ℤ, st.items .destSlide = some no → OfDeck p no) {dest : ℤ}
    (hgo : dest = (st.items .destSlide).getD (0 : ℤ)) : (sw.deck.goTo dest).2 = true ∧
      Follows p (sw.setDeck st j (sw.deck.goTo dest).1).2 j (sw.setDeck st j (sw.deck.goTo dest).1).1 := by
  have hcur := h.sound.ofDeck
  have hlen := h.sound.length
  have hto : OfDeck p dest := by
    cases hitem : st.items .destSlide with
    | some no =>
      rw [hitem] at hgo
      exact hgo ▸ hdest no hitem
    | none =>
      rw [hitem] at hgo
      simp only [Option.getD_none] at hgo
      unfold OfDeck at *
      omega
  have hreach : InReach dest sw.deck := by
    rw [InReach, hlen]
    unfold OfDeck at *
    omega
  obtain ⟨hends, hthere⟩ := goTo_ends hreach
  have hsound := h.sound.goTo dest
  refine ⟨hends, ⟨⟨hsound.shown, hsound.inRange, hsound.length, hsound.notesEnabled⟩, rfl, h.running, h.notesWindow⟩, ?_⟩
  refine .inl fun no hno => hthere.trans ?_
  rw [destSlide_setDeck] at hno
  rcases records_goTo h.sound h.flushed dest with ⟨hstored, _⟩ | hlast
  · rw [hstored, List.getLast?_nil, Option.none_or] at hno
    rw [hgo, hno]
    rfl
  · rw [hlast, hthere] at hno
    exact Option.some.inj hno

/-! ## What a step does -/

theorem updateOtherWindow_remove (h : isRemoveStorageEvent e = true) :
    sw.updateOtherWindow st j e = (sw, st, false) := if_pos h

/-- The window goes to the stored slide and hangs on the way, or turns to its playgrounds. -/
theorem updateOtherWindow_cases (h : isRemoveStorageEvent e = false) {dest : ℤ}
    (hgo : dest = (st.items .destSlide).getD (0 : ℤ)) {x : SlidesWindow ι × LocalStorage ι}
    (hx : x = sw.setDeck st j (sw.deck.goTo dest).1) :
    ((sw.deck.goTo dest).2 = false ∧ sw.updateOtherWindow st j e = ({ x.1 with hung := true }, x.2, false)) ∨
      ((sw.deck.goTo dest).2 = true ∧
        ((∃ y, x.1.updatePlay x.2 j e = some y ∧ sw.updateOtherWindow st j e = (y.1, y.2, true)) ∨
          (x.1.updatePlay x.2 j e = none ∧
            sw.updateOtherWindow st j e = ({ x.1 with errors := x.1.errors + 1 }, x.2, false)))) := by
  subst hgo hx
  unfold SlidesWindow.updateOtherWindow
  rw [h, if_neg Bool.false_ne_true]
  dsimp only
  by_cases hends : (sw.deck.goTo ((st.items .destSlide).getD (0 : ℤ))).2 = true
  · rw [if_pos hends]
    refine .inr ⟨hends, ?_⟩
    cases hplay : SlidesWindow.updatePlay (sw.setDeck st j (sw.deck.goTo ((st.items .destSlide).getD (0 : ℤ))).1).1
      (sw.setDeck st j (sw.deck.goTo ((st.items .destSlide).getD (0 : ℤ))).1).2 j e with
    | some y => exact .inl ⟨y, rfl, rfl⟩
    | none => exact .inr ⟨rfl, rfl⟩
  · rw [if_neg hends]
    exact .inl ⟨by simpa using hends, rfl⟩

/-- What the first event of a window does to it. -/
theorem deliver_cases (h : w.deliver p j = some w') : ∃ e es, w.storage.events j = e :: es ∧
    ((∃ innerHTML, w.windows j = some (.notes innerHTML) ∧ w' = {
        windows := Function.update w.windows j (some (.notes (p.updateNotes (w.storage.items .destSlide))))
        storage := w.storage.read j }) ∨
      ∃ sw, w.windows j = some (.slides sw) ∧ sw.hung = false ∧ ∃ x, sw.updateOtherWindow (w.storage.read j) j e = x ∧
        w' = if x.2.2 then (w.setSlides j (x.1, x.2.1)).updateNotes p sw.notesWindow else w.setSlides j (x.1, x.2.1)) := by
  unfold World.deliver at h
  split at h
  · cases h
  · next e es hevents =>
    refine ⟨e, es, hevents, ?_⟩
    split at h
    · next sw hwin =>
      obtain ⟨hrun, hw⟩ := Option.ite_none_left_eq_some.mp h
      rw [Option.some.injEq] at hw
      exact .inr ⟨sw, hwin, by simpa using hrun, _, rfl, hw.symm⟩
    · next innerHTML hwin => exact .inl ⟨innerHTML, hwin, (Option.some.inj h).symm⟩
    · cases h

theorem initNotes_eq (p : Presentation) (destSlide : Option ℤ) : p.initNotes destSlide = p.updateNotes destSlide := by
  unfold Presentation.initNotes Presentation.updateNotes
  cases hsection : p.sectionAt destSlide with
  | none => rfl
  | some notes =>
    cases notes with
    | some notes => rfl
    | none =>
      have hzero : destSlide ≠ some 0 := by
        rintro rfl
        cases hsection
      simp only [if_neg hzero]
      rfl

theorem Synced.updateNotes (h : Synced p w) (notesWindow : Option (NotesWindow ι)) :
    Synced p (w.updateNotes p notesWindow) := by
  unfold World.updateNotes
  split
  · next notesWindow =>
    split
    · next innerHTML hwin =>
      refine h.update notesWindow.id (fun i hi => Function.update_of_ne hi ..) (fun _ _ => Iff.rfl)
        (fun _ _ _ _ hok => hok) h.destSlide ?_ ?_
      · dsimp only
        rw [Function.update_self, h.listeners, hwin]
        rfl
      · intro win hnew
        dsimp only at hnew
        rw [Function.update_self] at hnew
        obtain rfl := Option.some.inj hnew
        exact .inl rfl
    · exact h
  · exact h

/-! ## Every step keeps the windows synced -/

/-- A window with the slides after its first event: it follows again, and has written no slide that
the deck does not have. -/
theorem updateOtherWindow_follows (h : Synced p w) (hwin : w.windows j = some (.slides sw))
    {es : List Event} (hevents : w.storage.events j = e :: es) {x : SlidesWindow ι × LocalStorage ι × Bool}
    (hx : sw.updateOtherWindow (w.storage.read j) j e = x) :
    (w.storage.read j).Writes j x.2.1 ∧ (∀ no : ℤ, x.2.1.items .destSlide = some no → OfDeck p no) ∧
      Follows p x.2.1 j x.1 := by
  have hfollows : Follows p w.storage j sw := h.windows j _ hwin
  subst hx
  cases hremove : isRemoveStorageEvent e with
  | true =>
    rw [updateOtherWindow_remove hremove]
    exact ⟨.refl .., h.destSlide, hfollows.toStands, hfollows.current.skip hevents (by simp [hremove])⟩
  | false =>
    obtain ⟨dest, hgo⟩ : ∃ dest : ℤ, dest = ((w.storage.read j).items .destSlide).getD (0 : ℤ) := ⟨_, rfl⟩
    obtain ⟨hends, hthere⟩ := @Stands.goTo _ p (w.storage.read j) j sw _ hfollows.toStands h.destSlide dest hgo
    have hwrites := writes_setDeck sw (w.storage.read j) j (sw.deck.goTo dest).1
    have hdest := @ofDeck_setDeck _ p (w.storage.read j) j sw _ _ _ (hfollows.sound.goTo dest)
      (records_goTo hfollows.sound hfollows.flushed dest) h.destSlide
    rcases updateOtherWindow_cases hremove hgo rfl with ⟨hhang, _⟩ | ⟨_, ⟨y, hplay, hx⟩ | ⟨_, hx⟩⟩
    · rw [hends] at hhang
      cases hhang
    · have haside := aside_updatePlay hplay
      rw [hx]
      exact ⟨hwrites.trans haside.writes, fun no hno => hdest no (haside.destSlide ▸ hno), hthere.aside haside⟩
    · rw [hx]
      exact ⟨hwrites, hdest, hthere.count_error⟩

theorem Synced.handled (h : Synced p w) (hwin : w.windows j = some (.slides sw)) {es : List Event}
    (hevents : w.storage.events j = e :: es) {x : SlidesWindow ι × LocalStorage ι × Bool}
    (hx : sw.updateOtherWindow (w.storage.read j) j e = x) : Synced p (w.setSlides j (x.1, x.2.1)) := by
  obtain ⟨hwrites, hdest, hfollows⟩ := updateOtherWindow_follows h hwin hevents hx
  exact @Synced.handle _ _ _ _ _ _ (.slides x.1) _ h (by rw [hwin]; rfl) (.inr rfl) hwrites hdest hfollows

theorem synced_deliver (h : Synced p w) (hs : w.deliver p j = some w') : Synced p w' := by
  obtain ⟨e, es, hevents, hcases⟩ := deliver_cases hs
  rcases hcases with ⟨innerHTML, hwin, rfl⟩ | ⟨sw, hwin, hrun, x, hx, rfl⟩
  · exact @Synced.handle _ _ _ _ _ _ (.notes _) _ h (by rw [hwin]; rfl) (.inr rfl) (.refl ..) h.destSlide (.inl rfl)
  · have hset := h.handled hwin hevents hx
    split
    · exact hset.updateNotes _
    · exact hset

theorem ofDeck_hash {d : Deck} (h : Sound p.slideEls.length d) : OfDeck p (d.hash - 1) := by
  have hcur := h.ofDeck
  rw [h.shown.hash, Int.add_sub_cancel]
  exact hcur

theorem notesEnabled_handleDomLoaded (slideEls : List Slide) (slideNo : Option ℤ) (localhost : Bool) :
    (Deck.handleDomLoaded slideEls slideNo localhost true).notesEnabled = true ∧
      (Deck.handleDomLoaded slideEls slideNo localhost true).stored.getLast? =
        some (Deck.handleDomLoaded slideEls slideNo localhost true).curSlide := by
  unfold Deck.handleDomLoaded Deck.storeSlide
  cases localhost <;> exact ⟨rfl, rfl⟩

theorem sound_handleDomLoaded {slideNo : Option ℤ} (h : OfDeck p (Deck.getCurSlideFromHash slideNo)) :
    Sound p.slideEls.length (Deck.handleDomLoaded p.slideEls slideNo p.localhost true) where
  shown := shown_handleDomLoaded ..
  length := by
    have hlen := congrArg List.length (page_handleDomLoaded p.slideEls slideNo p.localhost true)
    rwa [List.length_map, List.length_map] at hlen
  inRange := by
    have hlen := congrArg List.length (page_handleDomLoaded p.slideEls slideNo p.localhost true)
    rw [List.length_map, List.length_map] at hlen
    rw [InRange, curSlide_handleDomLoaded, hlen]
    exact h
  notesEnabled := (notesEnabled_handleDomLoaded ..).1

theorem Synced.load (h : Synced p w) {slideNo : Option ℤ} (hno : OfDeck p (Deck.getCurSlideFromHash slideNo))
    (isParentWindow : Bool) : Synced p (w.setSlides j (p.load w.storage j slideNo isParentWindow)) := by
  have hsound := sound_handleDomLoaded hno
  have hlast := (notesEnabled_handleDomLoaded p.slideEls slideNo p.localhost).2
  unfold Presentation.load
  dsimp only
  refine h.update j (fun i hi => Function.update_of_ne hi ..) (fun i hi => ?_) (fun i win hi hmem hok => ?_) ?_ ?_ ?_
  · rw [World.storage_setSlides, Storage.listeners_listen, Finset.mem_insert, or_iff_right hi, (writes_setDeck ..).listeners]
  · exact (hok.writes (writes_setDeck ..) hi hmem).congr rfl (Function.update_of_ne hi ..)
  · exact ofDeck_setDeck hsound (c := 0) (.inr hlast) h.destSlide
  · simp
  · intro win hwin
    rw [World.windows_setSlides, Function.update_self] at hwin
    obtain rfl := Option.some.inj hwin
    refine ⟨⟨⟨hsound.shown, hsound.inRange, hsound.length, hsound.notesEnabled⟩, rfl, rfl, ?_⟩, .inl fun no hitem => ?_⟩
    · intro notesWindow hnotes
      cases hnotes
    · rw [World.storage_setSlides, Storage.items_listen, destSlide_setDeck, hlast] at hitem
      exact Option.some.inj hitem

theorem Synced.closeNotes (h : Synced p w) (notesWindow : NotesWindow ι) : Synced p (w.closeNotes notesWindow) := by
  unfold World.closeNotes
  split
  · exact (h.closeWindow _).closeWindow _
  · exact h.closeWindow _

/-- Nothing changes for the windows but `notesWindow` of one of them. -/
theorem Synced.setNotesWindow (h : Synced p w) (hwin : w.windows j = some (.slides sw))
    {notesWindow : Option (NotesWindow ι)} (hnotes : ∀ nw, notesWindow = some nw → OfDeck p (nw.slidesUrl - 1)) :
    Synced p (w.setSlides j ({ sw with notesWindow := notesWindow }, w.storage)) := by
  have hok : Follows p w.storage j sw := h.windows j _ hwin
  exact h.setSlides (by rw [hwin]; rfl) (.refl ..) h.destSlide ⟨⟨hok.sound, hok.flushed, hok.running, hnotes⟩, hok.current⟩

theorem synced_toggleNotesWindow {n : ι} (h : Synced p w) (hwin : w.windows j = some (.slides sw))
    (hs : w.toggleNotesWindow p j n sw = some w') : Synced p w' := by
  have hok : Follows p w.storage j sw := h.windows j _ hwin
  unfold World.toggleNotesWindow at hs
  split at hs
  · split at hs
    · next notesWindow hnotes =>
      obtain rfl := Option.some.inj hs
      exact (h.setNotesWindow hwin fun nw hnw => by cases hnw).closeNotes notesWindow
    · obtain ⟨hfree, hs⟩ := Option.ite_none_right_eq_some.mp hs
      obtain rfl := Option.some.inj hs
      refine (h.setNotesWindow hwin fun nw hnw => ?_).openWindow n (.inl ?_)
      · exact Option.some.inj hnw ▸ ofDeck_hash hok.sound
      · exact initNotes_eq ..
  · obtain rfl := Option.some.inj hs
    exact h

theorem synced_frameLoaded {f : ι} (h : Synced p w) (hwin : w.windows j = some (.slides sw))
    (hs : w.frameLoaded p j f sw = some w') : Synced p w' := by
  have hok : Follows p w.storage j sw := h.windows j _ hwin
  unfold World.frameLoaded at hs
  split at hs
  · next notesWindow hnotes =>
    obtain ⟨hfree, hs⟩ := Option.ite_none_right_eq_some.mp hs
    obtain rfl := Option.some.inj hs
    have hurl := hok.notesWindow notesWindow hnotes
    have hset := @Synced.setNotesWindow _ _ w _ _ _ h hwin (some { notesWindow with frame := some f })
      fun nw hnw => Option.some.inj hnw ▸ hurl
    refine hset.load ?_ false
    have hne : notesWindow.slidesUrl ≠ 0 := fun hzero => by
      have hneg := hurl.1
      omega
    rw [Deck.getCurSlideFromHash, if_pos hne]
    exact hurl
  · cases hs

theorem Synced.clear (h : Synced p w) (hwin : w.windows j = some (.slides sw)) :
    Synced p { w with storage := w.storage.clear j } := by
  have hok : Follows p w.storage j sw := h.windows j _ hwin
  have hnone : (w.storage.clear j).items .destSlide = none := Storage.items_clear ..
  have hset := @Synced.handle _ _ w _ _ _ (.slides sw) _ h (by rw [hwin]; rfl) (.inl rfl) (Storage.writes_clear w.storage j)
    (fun no hno => by rw [hnone] at hno; cases hno)
    ⟨hok.toStands, .inl fun no hno => by rw [hnone] at hno; cases hno⟩
  rwa [← hwin, Function.update_eq_self] at hset

theorem synced_close (h : Synced p w) (hwin : w.windows j = some (.slides sw)) (hs : w.close j sw = some w') :
    Synced p w' := by
  unfold World.close at hs
  obtain ⟨_, hs⟩ := Option.ite_none_right_eq_some.mp hs
  obtain rfl := Option.some.inj hs
  have hclear := h.clear hwin
  split
  · exact (hclear.closeNotes _).closeWindow j
  · exact hclear.closeWindow j

/-- Every window is opened at a slide of the deck. -/
def OpensInDeck (p : Presentation) (_ : World ι) : World.Action ι → Prop
  | .load _ slideNo => OfDeck p (Deck.getCurSlideFromHash slideNo)
  | _ => True

instance (p : Presentation) (w : World ι) : ∀ a, Decidable (OpensInDeck p w a)
  | .load _ slideNo => inferInstanceAs (Decidable (OfDeck p (Deck.getCurSlideFromHash slideNo)))
  | .input .. | .toggleNotesWindow .. | .frameLoaded .. | .close .. | .click .. | .edit .. | .resize .. | .deliver .. =>
    inferInstanceAs (Decidable True)

theorem synced_step {a : World.Action ι} (h : Synced p w) (hok : OpensInDeck p w a) (hs : w.step p a = some w') :
    Synced p w' := by
  cases a with
  | load j slideNo =>
    obtain ⟨_, hs⟩ := Option.ite_none_right_eq_some.mp hs
    obtain rfl := Option.some.inj hs
    exact h.load hok true
  | input j a =>
    obtain ⟨sw, hslides, hs⟩ := Option.bind_eq_some_iff.mp hs
    obtain ⟨deck, hdeck, rfl⟩ := Option.map_eq_some_iff.mp hs
    obtain ⟨hwin, _⟩ := slides_eq_some.mp hslides
    have hfollows : Follows p w.storage j sw := h.windows j _ hwin
    have hrecords := records_step hfollows.sound hfollows.flushed hdeck
    exact h.setSlides (by rw [hwin]; rfl) (writes_setDeck sw w.storage j deck)
      (@ofDeck_setDeck _ _ _ _ sw _ _ _ (hfollows.sound.step hdeck) hrecords h.destSlide)
      (hfollows.setDeck (hfollows.sound.step hdeck) hrecords)
  | toggleNotesWindow j n =>
    obtain ⟨sw, hslides, hs⟩ := Option.bind_eq_some_iff.mp hs
    exact synced_toggleNotesWindow h (slides_eq_some.mp hslides).1 hs
  | frameLoaded j f =>
    obtain ⟨sw, hslides, hs⟩ := Option.bind_eq_some_iff.mp hs
    exact synced_frameLoaded h (slides_eq_some.mp hslides).1 hs
  | close j =>
    obtain ⟨sw, hslides, hs⟩ := Option.bind_eq_some_iff.mp hs
    exact synced_close h (slides_eq_some.mp hslides).1 hs
  | click j action index shiftKey =>
    obtain ⟨sw, hslides, hs⟩ := Option.bind_eq_some_iff.mp hs
    obtain ⟨_, hs⟩ := Option.ite_none_right_eq_some.mp hs
    obtain rfl := Option.some.inj hs
    exact h.aside (slides_eq_some.mp hslides).1 (aside_playgroundHandler ..)
  | edit j index innerHTML =>
    obtain ⟨sw, hslides, hs⟩ := Option.bind_eq_some_iff.mp hs
    obtain ⟨_, hs⟩ := Option.ite_none_right_eq_some.mp hs
    obtain rfl := Option.some.inj hs
    exact h.aside (slides_eq_some.mp hslides).1 (aside_inputHandler ..)
  | resize j =>
    obtain ⟨sw, hslides, rfl⟩ := Option.map_eq_some_iff.mp hs
    exact h.aside (slides_eq_some.mp hslides).1 (aside_resizeHandler ..)
  | deliver j => exact synced_deliver h hs

theorem synced_of_reach (h : Reach (World.step p) (OpensInDeck p) World.start w) : Synced p w :=
  Reach.invariant (Synced p) (synced_start p) (fun _ _ _ _ hi hok hs => synced_step hi hok hs) h

/-- In every state that the windows reach, opened and closed, moved and told of each other in any
order, but none opened outside the deck: no window with the slides hangs and each shows its slide as it
should; one without an event that would move it shows the stored slide, and one with the notes that has
read its events shows the notes of the stored slide. -/
theorem windows_synced (p : Presentation) (w : World ι) (h : Reach (World.step p) (OpensInDeck p) World.start w) :
    (∀ j sw, w.windows j = some (.slides sw) →
      sw.hung = false ∧ Shown sw.deck.toScreen ∧ InRange sw.deck.toScreen ∧
        ((∀ e ∈ w.storage.events j, isRemoveStorageEvent e = true) →
          ∀ no : ℤ, w.storage.items .destSlide = some no → sw.deck.curSlide = no)) ∧
      ∀ j innerHTML, w.windows j = some (.notes innerHTML) → w.storage.events j = [] →
        innerHTML = p.updateNotes (w.storage.items .destSlide) := by
  have hsynced := synced_of_reach h
  refine ⟨fun j sw hwin => ?_, fun j innerHTML hwin hread => ?_⟩
  · have hfollows : Follows p w.storage j sw := hsynced.windows j _ hwin
    refine ⟨hfollows.running, hfollows.sound.shown, hfollows.sound.inRange, fun hread => ?_⟩
    rcases hfollows.current with hcur | ⟨e, he, hwakes⟩
    · exact hcur
    · rw [hread e he] at hwakes
      cases hwakes
  · have hnotes : ShowsNotes p w.storage j innerHTML := hsynced.windows j _ hwin
    exact hnotes.settled hread

end

def demoPresentation : Presentation where
  slideEls := demoSlides
  titleNotes := some ["Welcome", "to the mesh"]
  sections := [some ["Setup"], none]
  playgrounds := ["package main", "package mesh"]
  localhost := true

/-- A presenter with notes and a second window: the frame of the notes loads behind the presenter's
slide, and the second window goes back to the first one. -/
def demoActions : List (World.Action ℕ) :=
  [.load 0 none, .toggleNotesWindow 0 1, .input 0 .clickNext, .frameLoaded 0 2, .load 3 (some 4), .deliver 2, .deliver 0,
    .input 3 (.keydown 37 false), .click 0 .onRun 1 true, .deliver 0, .deliver 1, .deliver 2]

theorem demoActions_enabled : (runActions (guarded (World.step demoPresentation) (OpensInDeck demoPresentation))
    World.start demoActions).isSome := by decide

def demoWorld : World ℕ := (runActions (guarded (World.step demoPresentation) (OpensInDeck demoPresentation))
  World.start demoActions).get demoActions_enabled

theorem demoWorld_reached : Reach (World.step demoPresentation) (OpensInDeck demoPresentation) World.start demoWorld :=
  Reach.of_guarded (Option.some_get _).symm

theorem windows_synced_demo :
    (∀ j sw, demoWorld.windows j = some (.slides sw) →
      sw.hung = false ∧ Shown sw.deck.toScreen ∧ InRange sw.deck.toScreen ∧
        ((∀ e ∈ demoWorld.storage.events j, isRemoveStorageEvent e = true) →
          ∀ no : ℤ, demoWorld.storage.items .destSlide = some no → sw.deck.curSlide = no)) ∧
      ∀ j innerHTML, demoWorld.windows j = some (.notes innerHTML) → demoWorld.storage.events j = [] →
        innerHTML = demoPresentation.updateNotes (demoWorld.storage.items .destSlide) :=
  windows_synced demoPresentation demoWorld demoWorld_reached

end HalfMesh.Slides
