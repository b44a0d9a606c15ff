import HalfMesh.Slides.Shown
import HalfMesh.Slides.Windows

/-! What a window makes of the stored slide. It moves there one slide at a time and stores each slide
on the way, so it has stored the last one it shows. The two loops of `updateOtherWindow` end exactly
when the stored slide is one that the window can move to; one that a hash put outside the deck keeps
the window in the loop for ever. -/
namespace HalfMesh.Slides
open HalfMesh.Foundations
set_option autoImplicit false
set_option maxHeartbeats 250000
set_option maxRecDepth 120000

/-! ## What is stored -/

section
variable {d d' : Deck} {a : Deck.Input}

theorem notesEnabled_prevSlide (d : Deck) : d.prevSlide.notesEnabled = d.notesEnabled := by
  unfold Deck.prevSlide Deck.storeSlide
  dsimp only
  split <;> split <;> rfl

theorem notesEnabled_nextSlide (d : Deck) : d.nextSlide.notesEnabled = d.notesEnabled := by
  unfold Deck.nextSlide Deck.storeSlide
  dsimp only
  split <;> split <;> rfl

theorem stored_storeSlide (h : d.notesEnabled = true) : d.storeSlide.stored.getLast? = some d.storeSlide.curSlide := by
  unfold Deck.storeSlide
  rw [if_pos h, List.getLast?_concat]

theorem stored_prevSlide (h : d.notesEnabled = true) : d.prevSlide.stored.getLast? = some d.prevSlide.curSlide := by
  unfold Deck.prevSlide
  refine stored_storeSlide ?_
  split <;> exact h

theorem stored_nextSlide (h : d.notesEnabled = true) : d.nextSlide.stored.getLast? = some d.nextSlide.curSlide := by
  unfold Deck.nextSlide
  refine stored_storeSlide ?_
  split <;> exact h

/-- A window with the slides of a presentation of `n`, that shares its slide with the others. -/
structure Sound (n : ℕ) (d : Deck) : Prop where
  shown : Shown d.toScreen
  inRange : InRange d.toScreen
  length : d.slideEls.length = n
  notesEnabled : d.notesEnabled = true

/-- A deck that started at the slide `c` has stored the slide it shows, or is still there. -/
def Records (c : ℤ) (d : Deck) : Prop :=
  (d.stored = [] ∧ d.curSlide = c) ∨ d.stored.getLast? = some d.curSlide

variable {n : ℕ}

theorem Sound.step (h : Sound n d) (hs : d.step a = some d') : Sound n d' where
  shown := h.shown.step hs
  inRange := inRange_step h.inRange hs
  length := (length_slideEls hs).trans h.length
  notesEnabled := by
    rcases step_alike hs with hd | hd | hd | hd
    · exact hd.2.2.1.trans h.notesEnabled
    · exact hd.2.2.1.trans ((notesEnabled_prevSlide d).trans h.notesEnabled)
    · exact hd.2.2.1.trans ((notesEnabled_nextSlide d).trans h.notesEnabled)
    · exact hd.2.2.1.trans h.notesEnabled

theorem Sound.prevSlide (h : Sound n d) : Sound n d.prevSlide := h.step (a := .clickPrev) rfl

theorem Sound.nextSlide (h : Sound n d) : Sound n d.nextSlide := h.step (a := .clickNext) rfl

theorem records_step (h : Sound n d) (hstored : d.stored = []) (hs : d.step a = some d') :
    Records d.curSlide d' := by
  rcases step_alike hs with hd | hd | hd | hd <;> rw [Records, hd.1, hd.2.1]
  · exact .inl ⟨hstored, rfl⟩
  · exact .inr (stored_prevSlide h.notesEnabled)
  · exact .inr (stored_nextSlide h.notesEnabled)
  · exact .inl ⟨hstored, rfl⟩

end

/-! ## The loops -/

section
variable {d : Deck} {destSlide : ℤ}

/-- The slide lies between the current one and an end of the deck. -/
def InReach (destSlide : ℤ) (d : Deck) : Prop :=
  (destSlide > d.curSlide → destSlide < d.slideEls.length) ∧ (destSlide < d.curSlide → 0 ≤ destSlide)

theorem length_nextSlide (d : Deck) : d.nextSlide.slideEls.length = d.slideEls.length :=
  length_slideEls (a := .clickNext) rfl

theorem length_prevSlide (d : Deck) : d.prevSlide.slideEls.length = d.slideEls.length :=
  length_slideEls (a := .clickPrev) rfl

/-- How far the window has to go. -/
def distance (destSlide : ℤ) (d : Deck) : ℕ := (destSlide - d.curSlide).natAbs

theorem forth_round (d : Deck) (h : d.curSlide ≤ destSlide ∧ InReach destSlide d) (hmore : d.isBehind destSlide = true) :
    (d.nextSlide.curSlide ≤ destSlide ∧ InReach destSlide d.nextSlide) ∧
      distance destSlide d.nextSlide < distance destSlide d := by
  have hgt := of_decide_eq_true hmore
  have hlen := h.2.1 hgt
  have hcan : d.curSlide < d.slideEls.length - 1 := by omega
  unfold InReach distance
  rw [length_nextSlide, curSlide_nextSlide, if_pos hcan]
  omega

theorem back_round (d : Deck) (h : destSlide ≤ d.curSlide ∧ InReach destSlide d) (hmore : d.isAhead destSlide = true) :
    (destSlide ≤ d.prevSlide.curSlide ∧ InReach destSlide d.prevSlide) ∧
      distance destSlide d.prevSlide < distance destSlide d := by
  have hlt := of_decide_eq_true hmore
  have hpos := h.2.2 hlt
  have hcan : d.curSlide > 0 := by omega
  unfold InReach distance
  rw [length_prevSlide, curSlide_prevSlide, if_pos hcan]
  omega

theorem forth_ends (hlo : d.curSlide ≤ destSlide) (h : InReach destSlide d) {n : ℕ} (hn : distance destSlide d ≤ n) :
    (whileDo (Deck.isBehind destSlide) Deck.nextSlide n d).2 = true ∧
      (whileDo (Deck.isBehind destSlide) Deck.nextSlide n d).1.curSlide = destSlide := by
  have hends := whileDo_ends _ _ forth_round ⟨hlo, h⟩ hn
  have hlast := (@whileDo_keeps _ (Deck.isBehind destSlide) _ _ (fun x hx hc => (forth_round x hx hc).1) n _ ⟨hlo, h⟩).1
  have hstop := whileDo_cond hends
  rw [Deck.isBehind, decide_eq_false_iff_not] at hstop
  exact ⟨hends, by omega⟩

theorem back_ends (hhi : destSlide ≤ d.curSlide) (h : InReach destSlide d) {n : ℕ} (hn : distance destSlide d ≤ n) :
    (whileDo (Deck.isAhead destSlide) Deck.prevSlide n d).2 = true ∧
      (whileDo (Deck.isAhead destSlide) Deck.prevSlide n d).1.curSlide = destSlide := by
  have hends := whileDo_ends _ _ back_round ⟨hhi, h⟩ hn
  have hlast := (@whileDo_keeps _ (Deck.isAhead destSlide) _ _ (fun x hx hc => (back_round x hx hc).1) n _ ⟨hhi, h⟩).1
  have hstop := whileDo_cond hends
  rw [Deck.isAhead, decide_eq_false_iff_not] at hstop
  exact ⟨hends, by omega⟩

theorem goTo_ends (h : InReach destSlide d) :
    (d.goTo destSlide).2 = true ∧ (d.goTo destSlide).1.curSlide = destSlide := by
  unfold Deck.goTo
  dsimp only
  by_cases hgt : destSlide > d.curSlide
  · obtain ⟨hends, hcur⟩ := forth_ends (by omega) h (le_refl (distance destSlide d))
    have hthere : Deck.isAhead destSlide (whileDo (Deck.isBehind destSlide) Deck.nextSlide
        (destSlide - d.curSlide).natAbs d).1 = false := decide_eq_false (by rw [← distance, hcur]; omega)
    rw [← distance] at hthere ⊢
    rw [if_pos hends, whileDo_of_false hthere]
    exact ⟨rfl, hcur⟩
  · have hthere : Deck.isBehind destSlide d = false := decide_eq_false hgt
    rw [whileDo_of_false hthere, if_pos rfl]
    exact back_ends (by omega) h (le_refl _)

/-- What moving on and back keeps, `goTo` keeps, whether it ends or not. -/
theorem goTo_keeps (I : Deck → Prop) (hprev : ∀ x, I x → I x.prevSlide) (hnext : ∀ x, I x → I x.nextSlide) (h : I d) :
    I (d.goTo destSlide).1 := by
  have hforth := @whileDo_keeps _ (Deck.isBehind destSlide) _ I (fun x hx _ => hnext x hx)
    (destSlide - d.curSlide).natAbs _ h
  unfold Deck.goTo
  dsimp only
  split
  · exact whileDo_keeps I (fun x hx _ => hprev x hx) _ hforth
  · exact hforth

theorem Sound.goTo {n : ℕ} (h : Sound n d) (destSlide : ℤ) : Sound n (d.goTo destSlide).1 :=
  goTo_keeps (Sound n) (fun _ hx => hx.prevSlide) (fun _ hx => hx.nextSlide) h

theorem records_goTo {n : ℕ} (h : Sound n d) (hstored : d.stored = []) (destSlide : ℤ) :
    Records d.curSlide (d.goTo destSlide).1 :=
  (goTo_keeps (fun x => Sound n x ∧ Records d.curSlide x)
    (fun _ hx => ⟨hx.1.prevSlide, .inr (stored_prevSlide hx.1.notesEnabled)⟩)
    (fun _ hx => ⟨hx.1.nextSlide, .inr (stored_nextSlide hx.1.notesEnabled)⟩) ⟨h, .inl ⟨hstored, rfl⟩⟩).2

end
end HalfMesh.Slides
