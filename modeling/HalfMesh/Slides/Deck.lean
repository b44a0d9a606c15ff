import Mathlib.Data.Int.Basic
import Mathlib.Tactic.Common

/-! The slides of the talk in one browser window (`theme/static/slides.js`): the classes that place
each slide on the screen, the frames that are loaded ahead and unloaded behind, the hash, and the
keys, clicks and swipes that move on. What a window writes under its key of `localStorage` is
recorded in `stored`, for the windows beside it. -/
namespace HalfMesh.Slides
set_option autoImplicit false
set_option maxHeartbeats 250000
set_option maxRecDepth 120000

/-- An `iframe`, with its `_src`. -/
structure Frame where
  src : String
  saved : String
  deriving DecidableEq

structure Slide where
  classList : List String
  frames : List Frame
  deriving DecidableEq

/-- `listening` while the handlers of `touchmove` and `touchend` are registered. -/
structure Touch where
  listening : Bool
  startX : ℤ
  startY : ℤ
  dX : ℤ
  dY : ℤ
  deriving DecidableEq

/-- The slides, the current one, and the number after `#`. -/
structure Screen where
  slideEls : List Slide
  curSlide : ℤ
  hash : ℤ

structure Deck extends Screen where
  /-- The timeouts of `updateSlides` that are still to fire. -/
  timeouts : ℕ
  touch : Touch
  helpShown : Bool
  notesEnabled : Bool
  /-- The values set under `destSlideKey()` so far. -/
  stored : List ℤ

def slideClasses : List String := ["far-past", "past", "current", "next", "far-next"]

def touchSensitivity : ℤ := 15

def aboutBlank : String := "about:blank"

/-! ## Classes -/

/-- `classList.add`. -/
def addClass (className : String) (classList : List String) : List String :=
  if className ∈ classList then classList else classList ++ [className]

/-- `classList.remove`. -/
def removeClass (className : String) (classList : List String) : List String :=
  classList.filter fun c => c ≠ className

/-- Nothing happens to a slide that is not there. -/
def modifySlide (slideEls : List Slide) (no : ℤ) (f : Slide → Slide) : List Slide :=
  if no < 0 ∨ no ≥ slideEls.length then slideEls else slideEls.modify no.toNat f

def placeClass (className : Option String) (classList : List String) : List String :=
  let classList :=
    match className with
    | some c => addClass c classList
    | none => classList
  slideClasses.foldl (fun l c => if className ≠ some c then removeClass c l else l) classList

def updateSlideClass (slideEls : List Slide) (slideNo : ℤ) (className : Option String) : List Slide :=
  modifySlide slideEls slideNo fun el => { el with classList := placeClass className el.classList }

/-- The `switch` of `updateSlides`. -/
def slideClass (curSlide i : ℤ) : Option String :=
  if i = curSlide - 2 then some "far-past"
  else if i = curSlide - 1 then some "past"
  else if i = curSlide then some "current"
  else if i = curSlide + 1 then some "next"
  else if i = curSlide + 2 then some "far-next"
  else none

def updateClasses (slideEls : List Slide) (curSlide : ℤ) : List Slide :=
  (List.range slideEls.length).foldl (fun els (i : ℕ) => updateSlideClass els i (slideClass curSlide i)) slideEls

/-! ## Frames -/

def disableFrame (frame : Frame) : Frame := { frame with src := aboutBlank }

def enableFrame (frame : Frame) : Frame :=
  if frame.src ≠ frame.saved ∧ frame.saved ≠ aboutBlank then { frame with src := frame.saved } else frame

def disableSlideFrames (slideEls : List Slide) (no : ℤ) : List Slide :=
  modifySlide slideEls no fun el => { el with frames := el.frames.map disableFrame }

def enableSlideFrames (slideEls : List Slide) (no : ℤ) : List Slide :=
  modifySlide slideEls no fun el => { el with frames := el.frames.map enableFrame }

def setupFrames (slideEls : List Slide) (curSlide : ℤ) : List Slide :=
  let slideEls := slideEls.map fun el =>
    { el with frames := el.frames.map fun frame => disableFrame { frame with saved := frame.src } }
  enableSlideFrames (enableSlideFrames (enableSlideFrames slideEls curSlide) (curSlide + 1)) (curSlide + 2)

/-! ## Slide movement -/

namespace Deck

def hideHelpText (d : Deck) : Deck := { d with helpShown := false }

def updateSlides (d : Deck) : Deck :=
  { d with
    slideEls := enableSlideFrames (enableSlideFrames (updateClasses d.slideEls d.curSlide) (d.curSlide - 1))
      (d.curSlide + 2)
    timeouts := d.timeouts + 1
    hash := d.curSlide + 1 }

/-- `if (notesEnabled) localStorage.setItem(destSlideKey(), curSlide)`. -/
def storeSlide (d : Deck) : Deck := if d.notesEnabled then { d with stored := d.stored ++ [d.curSlide] } else d

def moveTo (d : Deck) (curSlide : ℤ) : Deck := updateSlides { d with curSlide := curSlide }

def prevSlide (d : Deck) : Deck :=
  let d := d.hideHelpText
  (if d.curSlide > 0 then d.moveTo (d.curSlide - 1) else d).storeSlide

def nextSlide (d : Deck) : Deck :=
  let d := d.hideHelpText
  (if d.curSlide < d.slideEls.length - 1 then d.moveTo (d.curSlide + 1) else d).storeSlide

/-- The function that `updateSlides` gives to `setTimeout`. -/
def timeout (d : Deck) : Deck :=
  { d with slideEls := disableSlideFrames d.slideEls (d.curSlide - 2), timeouts := d.timeouts - 1 }

/-! ## Keys, clicks and swipes -/

/-- In a code element only PgUp and PgDn move. -/
def handleBodyKeyDown (d : Deck) (keyCode : ℕ) (inCode : Bool) : Deck :=
  match keyCode with
  | 72 | 27 => if inCode then d else d.hideHelpText
  | 39 | 13 | 32 => if inCode then d else d.nextSlide
  | 34 => d.nextSlide
  | 37 | 8 => if inCode then d else d.prevSlide
  | 33 => d.prevSlide
  | 40 => if inCode then d else d.nextSlide
  | 38 => if inCode then d else d.prevSlide
  | _ => d

def handleTouchStart (d : Deck) (touches : ℕ) (pageX pageY : ℤ) : Deck :=
  if touches = 1 then
    { d with touch := { listening := true, startX := pageX, startY := pageY, dX := 0, dY := 0 } }
  else d

def cancelTouch (d : Deck) : Deck := { d with touch := { d.touch with listening := false } }

def handleTouchMove (d : Deck) (touches : ℕ) (pageX pageY : ℤ) : Deck :=
  if touches > 1 then d.cancelTouch
  else { d with touch := { d.touch with dX := pageX - d.touch.startX, dY := pageY - d.touch.startY } }

/-- A swipe is wide enough and flat enough: `dy < (dx * 2) / 3`. -/
def handleTouchEnd (d : Deck) : Deck :=
  let dx : ℤ := d.touch.dX.natAbs
  let dy : ℤ := d.touch.dY.natAbs
  let d :=
    if dx > touchSensitivity ∧ dy * 3 < dx * 2 then
      if d.touch.dX > 0 then d.prevSlide else d.nextSlide
    else d
  d.cancelTouch

inductive Input
  | keydown (keyCode : ℕ) (inCode : Bool)
  | clickPrev
  | clickNext
  | touchstart (touches : ℕ) (pageX pageY : ℤ)
  | touchmove (touches : ℕ) (pageX pageY : ℤ)
  | touchend
  | timeout

def step (d : Deck) : Input → Option Deck
  | .keydown keyCode inCode => some (d.handleBodyKeyDown keyCode inCode)
  | .clickPrev => some d.prevSlide
  | .clickNext => some d.nextSlide
  | .touchstart touches x y => some (d.handleTouchStart touches x y)
  | .touchmove touches x y => if d.touch.listening then some (d.handleTouchMove touches x y) else none
  | .touchend => if d.touch.listening then some d.handleTouchEnd else none
  | .timeout => if d.timeouts = 0 then none else some d.timeout

/-! ## Loading -/

/-- `getCurSlideFromHash`; `slideNo` is what `parseInt` makes of the hash, none for `NaN`. -/
def getCurSlideFromHash (slideNo : Option ℤ) : ℤ :=
  match slideNo with
  | some n => if n ≠ 0 then n - 1 else 0
  | none => 0

/-- `initialize` and `handleDomLoaded`, `setupNotesSync` included. -/
def handleDomLoaded (slideEls : List Slide) (slideNo : Option ℤ) (localhost notesEnabled : Bool) : Deck :=
  let curSlide := getCurSlideFromHash slideNo
  let d : Deck := {
    slideEls := setupFrames slideEls curSlide
    curSlide := curSlide
    hash := slideNo.getD 0
    timeouts := 0
    touch := { listening := false, startX := 0, startY := 0, dX := 0, dY := 0 }
    helpShown := true
    notesEnabled := notesEnabled
    stored := [] }
  let d := d.updateSlides
  (if localhost then d.hideHelpText else d).storeSlide

end Deck
end HalfMesh.Slides
