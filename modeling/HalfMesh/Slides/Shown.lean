import HalfMesh.Foundations.Progress
import HalfMesh.Slides.Deck

/-! What the window shows. Whatever keys, clicks, swipes and timeouts come in whatever order, each
slide has the one class that its distance from the current slide gives it, the hash names the
current slide, and the frames from one slide before it to two slides after it are loaded. Behind
these, a timeout unloads one slide, two before the one that is current when it fires: who moves on
before it fires leaves frames loaded, and who waits leaves none. -/
namespace HalfMesh.Slides
open HalfMesh.Foundations
set_option autoImplicit false
set_option maxHeartbeats 250000
set_option maxRecDepth 120000

section
variable {slideEls : List Slide} {curSlide no : ℤ}

/-! ## Slides by number -/

theorem getElem?_modifySlide (slideEls : List Slide) (no : ℤ) (f : Slide → Slide) (i : ℕ) :
    (modifySlide slideEls no f)[i]? = if (i : ℤ) = no then slideEls[i]?.map f else slideEls[i]? := by
  unfold modifySlide
  by_cases hout : no < 0 ∨ no ≥ slideEls.length
  · rw [if_pos hout]
    by_cases hi : (i : ℤ) = no
    · have hnone : slideEls[i]? = none := List.getElem?_eq_none (by omega)
      rw [if_pos hi, hnone, Option.map_none]
    · rw [if_neg hi]
  · rw [if_neg hout, List.getElem?_modify]
    by_cases hi : (i : ℤ) = no
    · have hno : no.toNat = i := by omega
      simp [hi, hno]
    · have hno : no.toNat ≠ i := by omega
      simp [hi, hno]

/-- A loop that changes one slide after the other. -/
theorem getElem?_foldl_modifySlide (slideEls : List Slide) (f : ℕ → Slide → Slide) (n i : ℕ) :
    ((List.range n).foldl (fun els (k : ℕ) => modifySlide els k (f k)) slideEls)[i]? =
      if i < n then slideEls[i]?.map (f i) else slideEls[i]? := by
  induction n with
  | zero => simp
  | succ n ih =>
    rw [List.range_succ, List.foldl_append, List.foldl_cons, List.foldl_nil, getElem?_modifySlide, ih]
    by_cases hn : i = n
    · simp [hn]
    · have hcast : (i : ℤ) ≠ n := by omega
      have hlt : i < n + 1 ↔ i < n := by omega
      rw [if_neg hcast, if_congr hlt rfl rfl]

theorem getElem?_updateClasses (slideEls : List Slide) (curSlide : ℤ) (i : ℕ) :
    (updateClasses slideEls curSlide)[i]? = slideEls[i]?.map fun el =>
      { el with classList := placeClass (slideClass curSlide i) el.classList } := by
  unfold updateClasses updateSlideClass
  rw [getElem?_foldl_modifySlide slideEls
    (fun k el => { el with classList := placeClass (slideClass curSlide k) el.classList })]
  by_cases hi : i < slideEls.length
  · rw [if_pos hi]
  · rw [if_neg hi, List.getElem?_eq_none (by omega), Option.map_none]

/-! ## Classes -/

theorem mem_foldl_removeClass (className : Option String) (classes : List String) (classList : List String)
    (c : String) :
    c ∈ classes.foldl (fun l x => if className ≠ some x then removeClass x l else l) classList ↔
      c ∈ classList ∧ (c ∈ classes → className = some c) := by
  induction classes generalizing classList with
  | nil => simp
  | cons x classes ih =>
    rw [List.foldl_cons, ih]
    by_cases hx : className = some x
    · rw [if_neg (not_not.mpr hx), List.mem_cons]
      grind
    · rw [if_pos hx, removeClass, List.mem_filter, decide_eq_true_iff, List.mem_cons]
      grind

/-- The class given is there, the other classes of the five are not, the rest stays. -/
theorem mem_placeClass (className : Option String) (classList : List String) (c : String) :
    c ∈ placeClass className classList ↔
      (className = some c ∨ c ∈ classList) ∧ (c ∈ slideClasses → className = some c) := by
  unfold placeClass
  rw [mem_foldl_removeClass]
  cases className with
  | none => simp
  | some x =>
    unfold addClass
    split
    · grind
    · grind

/-- Each slide has, of the five classes, the one of its distance from the current slide. -/
def Placed (slideEls : List Slide) (curSlide : ℤ) : Prop :=
  ∀ (i : ℕ) el, slideEls[i]? = some el → ∀ c ∈ slideClasses, c ∈ el.classList ↔ slideClass curSlide i = some c

theorem placed_updateClasses (slideEls : List Slide) (curSlide : ℤ) :
    Placed (updateClasses slideEls curSlide) curSlide := by
  intro i el hel c hc
  rw [getElem?_updateClasses, Option.map_eq_some_iff] at hel
  obtain ⟨old, _, rfl⟩ := hel
  rw [mem_placeClass]
  exact ⟨fun h => h.2 hc, fun h => ⟨.inl h, fun _ => h⟩⟩

/-- Frames come and go without the classes. -/
theorem Placed.modifySlide (h : Placed slideEls curSlide) (no : ℤ) {f : Slide → Slide}
    (hf : ∀ el, (f el).classList = el.classList) : Placed (modifySlide slideEls no f) curSlide := by
  intro i el hel
  rw [getElem?_modifySlide] at hel
  split at hel
  · obtain ⟨old, hold, rfl⟩ := Option.map_eq_some_iff.mp hel
    rw [hf]
    exact h i old hold
  · exact h i el hel

theorem Placed.enable (h : Placed slideEls curSlide) (no : ℤ) : Placed (enableSlideFrames slideEls no) curSlide :=
  h.modifySlide no fun _ => rfl

theorem Placed.disable (h : Placed slideEls curSlide) (no : ℤ) : Placed (disableSlideFrames slideEls no) curSlide :=
  h.modifySlide no fun _ => rfl

/-! ## Frames -/

/-- Every frame shows its page or nothing, and those of the slides in `P` show their page. -/
def Loaded (slideEls : List Slide) (P : ℤ → Prop) : Prop :=
  ∀ (i : ℕ) el, slideEls[i]? = some el → ∀ frame ∈ el.frames,
    (frame.src = frame.saved ∨ frame.src = aboutBlank) ∧ (P i → frame.src = frame.saved)

variable {P Q : ℤ → Prop}

theorem Loaded.mono (h : Loaded slideEls P) (hPQ : ∀ i, Q i → P i) : Loaded slideEls Q :=
  fun i el hel frame hframe => ⟨(h i el hel frame hframe).1, fun hq => (h i el hel frame hframe).2 (hPQ i hq)⟩

theorem loaded_updateClasses (h : Loaded slideEls P) (curSlide : ℤ) : Loaded (updateClasses slideEls curSlide) P := by
  intro i el hel
  rw [getElem?_updateClasses, Option.map_eq_some_iff] at hel
  obtain ⟨old, hold, rfl⟩ := hel
  exact h i old hold

theorem enableFrame_src {frame : Frame} (h : frame.src = frame.saved ∨ frame.src = aboutBlank) :
    (enableFrame frame).src = (enableFrame frame).saved := by
  unfold enableFrame
  by_cases hgo : frame.src ≠ frame.saved ∧ frame.saved ≠ aboutBlank
  · rw [if_pos hgo]
  · rw [if_neg hgo]
    rcases h with h | h
    · exact h
    · by_contra hne
      exact hgo ⟨hne, fun hblank => hne (h.trans hblank.symm)⟩

theorem Loaded.enable (h : Loaded slideEls P) (no : ℤ) :
    Loaded (enableSlideFrames slideEls no) (fun i => P i ∨ i = no) := by
  intro i el hel frame hframe
  unfold enableSlideFrames at hel
  rw [getElem?_modifySlide] at hel
  by_cases hi : (i : ℤ) = no
  · rw [if_pos hi] at hel
    obtain ⟨old, hold, rfl⟩ := Option.map_eq_some_iff.mp hel
    obtain ⟨frame₀, hframe₀, rfl⟩ := List.mem_map.mp hframe
    have hsrc := enableFrame_src (h i old hold frame₀ hframe₀).1
    exact ⟨.inl hsrc, fun _ => hsrc⟩
  · rw [if_neg hi] at hel
    have hkeep := h i el hel frame hframe
    exact ⟨hkeep.1, fun hP => hkeep.2 (hP.resolve_right hi)⟩

theorem Loaded.disable (h : Loaded slideEls P) (no : ℤ) :
    Loaded (disableSlideFrames slideEls no) (fun i => P i ∧ i ≠ no) := by
  intro i el hel frame hframe
  unfold disableSlideFrames at hel
  rw [getElem?_modifySlide] at hel
  by_cases hi : (i : ℤ) = no
  · rw [if_pos hi] at hel
    obtain ⟨old, hold, rfl⟩ := Option.map_eq_some_iff.mp hel
    obtain ⟨frame₀, hframe₀, rfl⟩ := List.mem_map.mp hframe
    exact ⟨.inr rfl, fun hP => absurd hi hP.2⟩
  · rw [if_neg hi] at hel
    have hkeep := h i el hel frame hframe
    exact ⟨hkeep.1, fun hP => hkeep.2 hP.1⟩

theorem loaded_setupFrames (slideEls : List Slide) (curSlide : ℤ) :
    Loaded (setupFrames slideEls curSlide) (fun i => curSlide ≤ i ∧ i ≤ curSlide + 2) := by
  have hnone : Loaded (slideEls.map fun el =>
      { el with frames := el.frames.map fun frame => disableFrame { frame with saved := frame.src } })
      (fun _ => False) := by
    intro i el hel frame hframe
    rw [List.getElem?_map, Option.map_eq_some_iff] at hel
    obtain ⟨old, _, rfl⟩ := hel
    obtain ⟨frame₀, _, rfl⟩ := List.mem_map.mp hframe
    exact ⟨.inr rfl, False.elim⟩
  refine (((hnone.enable curSlide).enable (curSlide + 1)).enable (curSlide + 2)).mono fun i hi => ?_
  omega

end

/-! ## What an input does -/

/-- The two windows differ in nothing but the help text and the touch in progress. -/
def Alike (d d' : Deck) : Prop :=
  d.toScreen = d'.toScreen ∧ d.stored = d'.stored ∧ d.notesEnabled = d'.notesEnabled ∧ d.timeouts = d'.timeouts

section
variable {d d' : Deck} {a : Deck.Input}

theorem alike_handleBodyKeyDown (d : Deck) (keyCode : ℕ) (inCode : Bool) :
    Alike (d.handleBodyKeyDown keyCode inCode) d ∨ d.handleBodyKeyDown keyCode inCode = d.prevSlide ∨
      d.handleBodyKeyDown keyCode inCode = d.nextSlide := by
  unfold Deck.handleBodyKeyDown
  split
  all_goals first
    | exact .inr (.inr rfl)
    | exact .inr (.inl rfl)
    | exact .inl ⟨rfl, rfl, rfl, rfl⟩
    | cases inCode <;> first
      | exact .inr (.inr rfl)
      | exact .inr (.inl rfl)
      | exact .inl ⟨rfl, rfl, rfl, rfl⟩

theorem alike_handleTouchEnd (d : Deck) :
    Alike d.handleTouchEnd d ∨ Alike d.handleTouchEnd d.prevSlide ∨ Alike d.handleTouchEnd d.nextSlide := by
  unfold Deck.handleTouchEnd
  dsimp only
  split
  · split
    · exact .inr (.inl ⟨rfl, rfl, rfl, rfl⟩)
    · exact .inr (.inr ⟨rfl, rfl, rfl, rfl⟩)
  · exact .inl ⟨rfl, rfl, rfl, rfl⟩

/-- An input moves one slide on or back, or lets a timeout fire, or changes nothing that counts. -/
theorem step_alike (h : d.step a = some d') :
    Alike d' d ∨ Alike d' d.prevSlide ∨ Alike d' d.nextSlide ∨ Alike d' d.timeout := by
  have hself : ∀ u : Deck, Alike u u := fun u => ⟨rfl, rfl, rfl, rfl⟩
  cases a with
  | keydown keyCode inCode =>
    obtain rfl := Option.some.inj h
    rcases alike_handleBodyKeyDown d keyCode inCode with hs | hp | hn
    · exact .inl hs
    · exact .inr (.inl (hp ▸ hself _))
    · exact .inr (.inr (.inl (hn ▸ hself _)))
  | clickPrev =>
    obtain rfl := Option.some.inj h
    exact .inr (.inl (hself _))
  | clickNext =>
    obtain rfl := Option.some.inj h
    exact .inr (.inr (.inl (hself _)))
  | touchstart touches x y =>
    obtain rfl := Option.some.inj h
    unfold Deck.handleTouchStart
    split <;> exact .inl ⟨rfl, rfl, rfl, rfl⟩
  | touchmove touches x y =>
    obtain ⟨_, hd⟩ := Option.ite_none_right_eq_some.mp h
    obtain rfl := Option.some.inj hd
    unfold Deck.handleTouchMove
    split <;> exact .inl ⟨rfl, rfl, rfl, rfl⟩
  | touchend =>
    obtain ⟨_, hd⟩ := Option.ite_none_right_eq_some.mp h
    obtain rfl := Option.some.inj hd
    rcases alike_handleTouchEnd d with hs | hp | hn
    · exact .inl hs
    · exact .inr (.inl hp)
    · exact .inr (.inr (.inl hn))
  | timeout =>
    obtain ⟨_, hd⟩ := Option.ite_none_left_eq_some.mp h
    obtain rfl := Option.some.inj hd
    exact .inr (.inr (.inr (hself _)))

/-! ## What is shown -/

structure Shown (s : Screen) : Prop where
  placed : Placed s.slideEls s.curSlide
  loaded : Loaded s.slideEls fun i => s.curSlide - 1 ≤ i ∧ i ≤ s.curSlide + 2
  hash : s.hash = s.curSlide + 1

theorem shown_updateSlides {P : ℤ → Prop} (h : Loaded d.slideEls P)
    (hP : ∀ i, d.curSlide ≤ i → i ≤ d.curSlide + 1 → P i) : Shown d.updateSlides.toScreen where
  placed := ((placed_updateClasses d.slideEls d.curSlide).enable _).enable _
  loaded := by
    refine (((loaded_updateClasses h d.curSlide).enable (d.curSlide - 1)).enable (d.curSlide + 2)).mono ?_
    intro i (hi : d.curSlide - 1 ≤ i ∧ i ≤ d.curSlide + 2)
    by_cases hfirst : i = d.curSlide - 1
    · exact .inl (.inr hfirst)
    · by_cases hlast : i = d.curSlide + 2
      · exact .inr hlast
      · exact .inl (.inl (hP i (by omega) (by omega)))
  hash := rfl

/-- One slide further, the frames that come into sight are loaded. -/
theorem Shown.moveTo (h : Shown d.toScreen) {c : ℤ} (hc : c = d.curSlide + 1 ∨ c = d.curSlide - 1) :
    Shown (d.moveTo c).toScreen := by
  refine @shown_updateSlides { d with curSlide := c } _ h.loaded ?_
  intro i hlo hhi
  dsimp only at hlo hhi
  omega

theorem toScreen_storeSlide (d : Deck) : d.storeSlide.toScreen = d.toScreen := by
  unfold Deck.storeSlide
  split <;> rfl

theorem Shown.prevSlide (h : Shown d.toScreen) : Shown d.prevSlide.toScreen := by
  unfold Deck.prevSlide
  rw [toScreen_storeSlide]
  split
  · exact @Shown.moveTo d.hideHelpText h _ (.inr rfl)
  · exact h

theorem Shown.nextSlide (h : Shown d.toScreen) : Shown d.nextSlide.toScreen := by
  unfold Deck.nextSlide
  rw [toScreen_storeSlide]
  split
  · exact @Shown.moveTo d.hideHelpText h _ (.inl rfl)
  · exact h

theorem Shown.timeout (h : Shown d.toScreen) : Shown d.timeout.toScreen where
  placed := h.placed.disable _
  loaded := by
    refine (h.loaded.disable (d.curSlide - 2)).mono ?_
    intro i (hi : d.curSlide - 1 ≤ i ∧ i ≤ d.curSlide + 2)
    exact ⟨hi, by omega⟩
  hash := h.hash

theorem Shown.step (h : Shown d.toScreen) (hs : d.step a = some d') : Shown d'.toScreen := by
  rcases step_alike hs with hd | hd | hd | hd <;> rw [hd.1]
  · exact h
  · exact h.prevSlide
  · exact h.nextSlide
  · exact h.timeout

end

/-- A loaded window is one that has set up its frames and updated its slides. -/
theorem toScreen_handleDomLoaded (slideEls : List Slide) (slideNo : Option ℤ) (localhost notesEnabled : Bool) :
    ∃ d : Deck, d.slideEls = setupFrames slideEls (Deck.getCurSlideFromHash slideNo) ∧
      d.curSlide = Deck.getCurSlideFromHash slideNo ∧
      (Deck.handleDomLoaded slideEls slideNo localhost notesEnabled).toScreen = d.updateSlides.toScreen := by
  let d : Deck := {
    slideEls := setupFrames slideEls (Deck.getCurSlideFromHash slideNo)
    curSlide := Deck.getCurSlideFromHash slideNo
    hash := slideNo.getD 0
    timeouts := 0
    touch := { listening := false, startX := 0, startY := 0, dX := 0, dY := 0 }
    helpShown := true
    notesEnabled := notesEnabled
    stored := [] }
  refine ⟨d, rfl, rfl, ?_⟩
  unfold Deck.handleDomLoaded
  rw [toScreen_storeSlide]
  cases localhost <;> rfl

theorem shown_handleDomLoaded (slideEls : List Slide) (slideNo : Option ℤ) (localhost notesEnabled : Bool) :
    Shown (Deck.handleDomLoaded slideEls slideNo localhost notesEnabled).toScreen := by
  obtain ⟨d, hels, hcur, hscreen⟩ := toScreen_handleDomLoaded slideEls slideNo localhost notesEnabled
  have hloaded := loaded_setupFrames slideEls (Deck.getCurSlideFromHash slideNo)
  rw [← hels, ← hcur] at hloaded
  rw [hscreen]
  exact shown_updateSlides hloaded fun i hlo hhi => ⟨hlo, by omega⟩

/-! ## What is kept -/

/-- What the document says of a slide: its other classes, and the pages of its frames. -/
def Slide.page (el : Slide) : List String × List String :=
  (el.classList.filter fun c => c ∉ slideClasses, el.frames.map Frame.saved)

/-- The same before `setupFrames`. -/
def Slide.source (el : Slide) : List String × List String :=
  (el.classList.filter fun c => c ∉ slideClasses, el.frames.map Frame.src)

section
variable {slideEls : List Slide} {f : Slide → Slide}

theorem slideClass_mem {curSlide i : ℤ} {c : String} (h : slideClass curSlide i = some c) : c ∈ slideClasses := by
  unfold slideClass at h
  split_ifs at h <;> obtain rfl := Option.some.inj h <;> decide

theorem filter_foldl_removeClass (className : Option String) {classes : List String}
    (hsub : ∀ c ∈ classes, c ∈ slideClasses) (classList : List String) :
    ((classes.foldl (fun l x => if className ≠ some x then removeClass x l else l) classList).filter
      fun c => c ∉ slideClasses) = classList.filter fun c => c ∉ slideClasses := by
  induction classes generalizing classList with
  | nil => rfl
  | cons x classes ih =>
    rw [List.foldl_cons, ih fun c hc => hsub c (List.mem_cons_of_mem _ hc)]
    split
    · rw [removeClass, List.filter_filter]
      refine List.filter_congr fun c _ => ?_
      have hx := hsub x (List.mem_cons_self ..)
      by_cases hc : c = x
      · subst hc
        simp [hx]
      · simp [hc]
    · rfl

theorem filter_placeClass {className : Option String} (h : ∀ c, className = some c → c ∈ slideClasses)
    (classList : List String) : ((placeClass className classList).filter fun c => c ∉ slideClasses) =
      classList.filter fun c => c ∉ slideClasses := by
  unfold placeClass
  rw [filter_foldl_removeClass className fun c hc => hc]
  cases className with
  | none => rfl
  | some x =>
    have hx := h x rfl
    dsimp only
    unfold addClass
    split
    · rfl
    · simp [hx]

theorem page_modifySlide (hf : ∀ el, (f el).page = el.page) (slideEls : List Slide) (no : ℤ) :
    (modifySlide slideEls no f).map Slide.page = slideEls.map Slide.page := by
  refine List.ext_getElem? fun i => ?_
  rw [List.getElem?_map, List.getElem?_map, getElem?_modifySlide]
  split
  · rw [Option.map_map]
    exact Option.map_congr fun el _ => hf el
  · rfl

theorem page_updateClasses (slideEls : List Slide) (curSlide : ℤ) :
    (updateClasses slideEls curSlide).map Slide.page = slideEls.map Slide.page := by
  refine List.ext_getElem? fun i => ?_
  rw [List.getElem?_map, List.getElem?_map, getElem?_updateClasses, Option.map_map]
  refine Option.map_congr fun el _ => ?_
  exact congrArg (·, el.frames.map Frame.saved) (filter_placeClass (fun _ => slideClass_mem) el.classList)

theorem saved_enableFrame (frame : Frame) : (enableFrame frame).saved = frame.saved := by
  unfold enableFrame
  split <;> rfl

theorem page_enableSlideFrames (slideEls : List Slide) (no : ℤ) :
    (enableSlideFrames slideEls no).map Slide.page = slideEls.map Slide.page := by
  refine page_modifySlide (fun el => ?_) slideEls no
  simp only [Slide.page, List.map_map, Prod.mk.injEq, true_and]
  exact List.map_congr_left fun frame _ => saved_enableFrame frame

theorem page_disableSlideFrames (slideEls : List Slide) (no : ℤ) :
    (disableSlideFrames slideEls no).map Slide.page = slideEls.map Slide.page := by
  refine page_modifySlide (fun el => ?_) slideEls no
  simp only [Slide.page, List.map_map, Prod.mk.injEq, true_and]
  rfl

theorem page_setupFrames (slideEls : List Slide) (curSlide : ℤ) :
    (setupFrames slideEls curSlide).map Slide.page = slideEls.map Slide.source := by
  unfold setupFrames
  dsimp only
  rw [page_enableSlideFrames, page_enableSlideFrames, page_enableSlideFrames, List.map_map]
  refine List.map_congr_left fun el _ => ?_
  simp only [Function.comp_apply, Slide.page, Slide.source, List.map_map, Prod.mk.injEq, true_and]
  rfl

end

section
variable {d d' : Deck} {a : Deck.Input}

theorem page_updateSlides (d : Deck) : d.updateSlides.slideEls.map Slide.page = d.slideEls.map Slide.page := by
  unfold Deck.updateSlides
  dsimp only
  rw [page_enableSlideFrames, page_enableSlideFrames, page_updateClasses]

theorem page_step (hs : d.step a = some d') : d'.slideEls.map Slide.page = d.slideEls.map Slide.page := by
  have hmove : ∀ u : Deck, d'.toScreen = u.toScreen → u.slideEls.map Slide.page = d.slideEls.map Slide.page →
      d'.slideEls.map Slide.page = d.slideEls.map Slide.page := fun u hu hpage => by rw [hu, hpage]
  rcases step_alike hs with hd | hd | hd | hd
  · rw [hd.1]
  · refine hmove _ hd.1 ?_
    unfold Deck.prevSlide
    rw [toScreen_storeSlide]
    split
    · exact page_updateSlides _
    · rfl
  · refine hmove _ hd.1 ?_
    unfold Deck.nextSlide
    rw [toScreen_storeSlide]
    split
    · exact page_updateSlides _
    · rfl
  · exact hmove _ hd.1 (page_disableSlideFrames _ _)

/-! ## Where the current slide can be -/

theorem length_slideEls (hs : d.step a = some d') : d'.slideEls.length = d.slideEls.length := by
  have hpage := congrArg List.length (page_step hs)
  rwa [List.length_map, List.length_map] at hpage

theorem curSlide_prevSlide (d : Deck) :
    d.prevSlide.curSlide = if d.curSlide > 0 then d.curSlide - 1 else d.curSlide := by
  unfold Deck.prevSlide
  rw [toScreen_storeSlide]
  by_cases hpos : d.curSlide > 0
  · simp [Deck.hideHelpText, Deck.moveTo, Deck.updateSlides, hpos]
  · simp [Deck.hideHelpText, hpos]

theorem curSlide_nextSlide (d : Deck) : d.nextSlide.curSlide =
    if d.curSlide < d.slideEls.length - 1 then d.curSlide + 1 else d.curSlide := by
  unfold Deck.nextSlide
  rw [toScreen_storeSlide]
  by_cases hmore : d.curSlide < d.slideEls.length - 1
  · simp [Deck.hideHelpText, Deck.moveTo, Deck.updateSlides, hmore]
  · simp [Deck.hideHelpText, hmore]

def InRange (s : Screen) : Prop := 0 ≤ s.curSlide ∧ s.curSlide < s.slideEls.length

theorem inRange_step (h : InRange d.toScreen) (hs : d.step a = some d') : InRange d'.toScreen := by
  have hlen := length_slideEls hs
  unfold InRange at *
  rw [hlen]
  rcases step_alike hs with hd | hd | hd | hd <;> rw [hd.1]
  · exact h
  · rw [curSlide_prevSlide]
    split <;> omega
  · rw [curSlide_nextSlide]
    split <;> omega
  · exact h

end

/-! ## What is unloaded -/

/-- The frames of the slides in `P` show nothing. -/
def Unloaded (slideEls : List Slide) (P : ℤ → Prop) : Prop :=
  ∀ (i : ℕ) el, slideEls[i]? = some el → P i → ∀ frame ∈ el.frames, frame.src = aboutBlank

section
variable {slideEls : List Slide} {P Q : ℤ → Prop}

theorem Unloaded.mono (h : Unloaded slideEls P) (hPQ : ∀ i, Q i → P i) : Unloaded slideEls Q :=
  fun i el hel hq => h i el hel (hPQ i hq)

theorem unloaded_updateClasses (h : Unloaded slideEls P) (curSlide : ℤ) :
    Unloaded (updateClasses slideEls curSlide) P := by
  intro i el hel
  rw [getElem?_updateClasses, Option.map_eq_some_iff] at hel
  obtain ⟨old, hold, rfl⟩ := hel
  exact h i old hold

theorem Unloaded.enable (h : Unloaded slideEls P) (no : ℤ) :
    Unloaded (enableSlideFrames slideEls no) (fun i => P i ∧ i ≠ no) := by
  intro i el hel hP
  unfold enableSlideFrames at hel
  rw [getElem?_modifySlide, if_neg hP.2] at hel
  exact h i el hel hP.1

theorem Unloaded.disable (h : Unloaded slideEls P) (no : ℤ) :
    Unloaded (disableSlideFrames slideEls no) (fun i => P i ∨ i = no) := by
  intro i el hel hP frame hframe
  unfold disableSlideFrames at hel
  rw [getElem?_modifySlide] at hel
  by_cases hi : (i : ℤ) = no
  · rw [if_pos hi] at hel
    obtain ⟨old, _, rfl⟩ := Option.map_eq_some_iff.mp hel
    obtain ⟨frame₀, _, rfl⟩ := List.mem_map.mp hframe
    rfl
  · rw [if_neg hi] at hel
    exact h i el hel (hP.resolve_right hi) frame hframe

end

section
variable {d d' : Deck} {a : Deck.Input}

theorem unloaded_updateSlides {P : ℤ → Prop} (h : Unloaded d.slideEls P) :
    Unloaded d.updateSlides.slideEls (fun i => (P i ∧ i ≠ d.curSlide - 1) ∧ i ≠ d.curSlide + 2) :=
  ((unloaded_updateClasses h d.curSlide).enable (d.curSlide - 1)).enable (d.curSlide + 2)

/-- No timeout is left to fire, and the last one has unloaded the slide behind. -/
def Rested (d : Deck) : Prop := d.timeouts = 0 → Unloaded d.slideEls fun i => i = d.curSlide - 2

/-- The slides behind are unloaded, but for the one that a timeout is still to unload. -/
structure Tidy (d : Deck) : Prop where
  behind : Unloaded d.slideEls fun i => i ≤ d.curSlide - 3
  rested : d.timeouts = 0 → Unloaded d.slideEls fun i => i ≤ d.curSlide - 2

/-- No move before the timeouts of the last one have fired. -/
def Unhurried (d : Deck) (a : Deck.Input) : Prop :=
  ∀ d', d.step a = some d' → d'.curSlide ≠ d.curSlide → d.timeouts = 0

instance (d : Deck) (a : Deck.Input) : Decidable (Unhurried d a) :=
  inferInstanceAs (Decidable (∀ d' ∈ d.step a, d'.curSlide ≠ d.curSlide → d.timeouts = 0))

theorem Rested.alike (h : Rested d) (hd : Alike d' d) : Rested d' := by
  unfold Rested
  rw [hd.2.2.2, hd.1]
  exact h

theorem Tidy.alike (h : Tidy d) (hd : Alike d' d) : Tidy d' := by
  refine ⟨?_, ?_⟩
  · rw [hd.1]
    exact h.behind
  · rw [hd.2.2.2, hd.1]
    exact h.rested

theorem timeouts_storeSlide (d : Deck) : d.storeSlide.timeouts = d.timeouts := by
  unfold Deck.storeSlide
  split <;> rfl

/-- The slides are updated for another current slide, or all stays as it is. -/
def MayMove (d : Deck) (c : ℤ) (d' : Deck) : Prop :=
  (d'.toScreen = (d.moveTo c).toScreen ∧ d'.timeouts = d.timeouts + 1) ∨
    d'.toScreen = d.toScreen ∧ d'.timeouts = d.timeouts

theorem mayMove_prevSlide (d : Deck) : MayMove d (d.curSlide - 1) d.prevSlide := by
  unfold MayMove Deck.prevSlide
  rw [toScreen_storeSlide, timeouts_storeSlide]
  split
  · exact .inl ⟨rfl, rfl⟩
  · exact .inr ⟨rfl, rfl⟩

theorem mayMove_nextSlide (d : Deck) : MayMove d (d.curSlide + 1) d.nextSlide := by
  unfold MayMove Deck.nextSlide
  rw [toScreen_storeSlide, timeouts_storeSlide]
  split
  · exact .inl ⟨rfl, rfl⟩
  · exact .inr ⟨rfl, rfl⟩

theorem Rested.moved (h : Rested d) {c : ℤ} (hd : MayMove d c d') : Rested d' := by
  rcases hd with ⟨_, ht⟩ | ⟨hscreen, ht⟩
  · intro hrest
    omega
  · unfold Rested
    rw [ht, hscreen]
    exact h

theorem Tidy.moved (h : Tidy d) {c : ℤ} (hc : c = d.curSlide + 1 ∨ c = d.curSlide - 1)
    (hslow : d'.curSlide ≠ d.curSlide → d.timeouts = 0) (hd : MayMove d c d') : Tidy d' := by
  rcases hd with ⟨hscreen, ht⟩ | ⟨hscreen, ht⟩
  · have hcur : d'.curSlide = c := by
      rw [hscreen]
      rfl
    have hrest := h.rested (hslow (by omega))
    have hmoved := @unloaded_updateSlides { d with curSlide := c } _ hrest
    refine ⟨?_, fun hnone => by omega⟩
    rw [hcur, hscreen]
    refine hmoved.mono fun i (hi : i ≤ c - 3) => ?_
    dsimp only
    omega
  · refine ⟨?_, ?_⟩
    · rw [hscreen]
      exact h.behind
    · rw [ht, hscreen]
      exact h.rested

theorem Tidy.timeout (h : Tidy d) : Tidy d.timeout := by
  have hmore : Unloaded d.timeout.slideEls fun i => i ≤ d.timeout.curSlide - 2 := by
    refine (h.behind.disable (d.curSlide - 2)).mono fun i (hi : i ≤ d.curSlide - 2) => ?_
    omega
  exact ⟨hmore.mono fun i hi => by omega, fun _ => hmore⟩

theorem tidy_step (h : Tidy d) (hslow : Unhurried d a) (hs : d.step a = some d') : Tidy d' := by
  have hwait := hslow d' hs
  rcases step_alike hs with hd | hd | hd | hd
  · exact h.alike hd
  · rw [hd.1] at hwait
    exact (h.moved (.inr rfl) hwait (mayMove_prevSlide d)).alike hd
  · rw [hd.1] at hwait
    exact (h.moved (.inl rfl) hwait (mayMove_nextSlide d)).alike hd
  · exact h.timeout.alike hd

end

theorem page_handleDomLoaded (slideEls : List Slide) (slideNo : Option ℤ) (localhost notesEnabled : Bool) :
    (Deck.handleDomLoaded slideEls slideNo localhost notesEnabled).slideEls.map Slide.page =
      slideEls.map Slide.source := by
  obtain ⟨d, hels, _, hscreen⟩ := toScreen_handleDomLoaded slideEls slideNo localhost notesEnabled
  rw [hscreen, page_updateSlides, hels, page_setupFrames]

theorem curSlide_handleDomLoaded (slideEls : List Slide) (slideNo : Option ℤ) (localhost notesEnabled : Bool) :
    (Deck.handleDomLoaded slideEls slideNo localhost notesEnabled).curSlide = Deck.getCurSlideFromHash slideNo := by
  obtain ⟨d, _, hcur, hscreen⟩ := toScreen_handleDomLoaded slideEls slideNo localhost notesEnabled
  rw [hscreen]
  exact hcur

/-- Four slides, the first and the third with a frame, as the template writes them. -/
def demoSlides : List Slide :=
  [{ classList := [], frames := [{ src := "/intro", saved := "" }] }, { classList := ["smaller"], frames := [] },
    { classList := [], frames := [{ src := "/demo", saved := "" }] }, { classList := [], frames := [] }]

end HalfMesh.Slides
