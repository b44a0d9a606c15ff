import HalfMesh.Foundations.Loop
import HalfMesh.Foundations.Storage
import HalfMesh.Slides.Deck
import Mathlib.Data.Finset.Insert

/-! The windows of one presentation with presenter notes (`theme/static/slides.js`, `notes.js` and
`play.js`): windows with the slides, each with its playgrounds, and windows with the notes. They
share `localStorage`, and what one window sets there the others hear of by `storage` events, each in
its own time. -/
namespace HalfMesh.Slides
open HalfMesh.Foundations
set_option autoImplicit false
set_option maxHeartbeats 250000
set_option maxRecDepth 120000

/-! ## `localStorage` -/

inductive PlayAction
  | onRun | onKill | onClose
  deriving DecidableEq

/-- `destSlideKey()`, and the keys that begin with `play-`. -/
inductive Key
  | destSlide | playIndex | playAction | playShiftKey | playCode
  deriving DecidableEq

instance : Fintype Key where
  elems := {.destSlide, .playIndex, .playAction, .playShiftKey, .playCode}
  complete k := by cases k <;> decide

/-- `play-shiftKey` is only ever set to `true`. -/
abbrev Key.Value : Key → Type
  | .destSlide => ℤ
  | .playIndex => ℕ
  | .playAction => PlayAction
  | .playShiftKey => Unit
  | .playCode => String

instance : ∀ k : Key, DecidableEq k.Value
  | .destSlide => inferInstanceAs (DecidableEq ℤ)
  | .playIndex => inferInstanceAs (DecidableEq ℕ)
  | .playAction => inferInstanceAs (DecidableEq PlayAction)
  | .playShiftKey => inferInstanceAs (DecidableEq Unit)
  | .playCode => inferInstanceAs (DecidableEq String)

abbrev LocalStorage (ι : Type) := Storage ι Key.Value

abbrev Event := StorageEvent Key.Value

/-- `!e.newValue`: the empty string counts as none. -/
def isRemoveStorageEvent : Event → Bool
  | .item .playCode (some html) => decide (html = "")
  | .item _ (some _) => false
  | .item _ none => true
  | .clear => true

/-! ## The document -/

/-- What the server sends every window: the slides, the notes of the title and of each section, and
what stands in each playground. -/
structure Presentation where
  slideEls : List Slide
  titleNotes : Option (List String)
  sections : List (Option (List String))
  playgrounds : List String
  localhost : Bool

def formatNotes : Option (List String) → String
  | some notes => notes.foldl (fun formattedNotes note => formattedNotes ++ "<p>" ++ note ++ "</p>") ""
  | none => ""

namespace Presentation

/-- `sections[no - 1]`; `no` is none for `NaN`. -/
def sectionAt (p : Presentation) : Option ℤ → Option (Option (List String))
  | some no => if no ≥ 1 then p.sections[(no - 1).toNat]? else none
  | none => none

/-- The notes that `initNotes` shows. -/
def initNotes (p : Presentation) (curSlide : Option ℤ) : String :=
  match p.sectionAt curSlide with
  | some notes => formatNotes notes
  | none => if curSlide = some 0 then formatNotes p.titleNotes else ""

/-- The notes that `updateNotes` shows. -/
def updateNotes (p : Presentation) (destSlide : Option ℤ) : String :=
  match p.sectionAt destSlide with
  | some (some notes) => formatNotes (some notes)
  | _ => if destSlide = some 0 then formatNotes p.titleNotes else ""

end Presentation

/-! ## Windows -/

structure Playground where
  innerHTML : String
  running : Bool
  /-- `output.style.display`. -/
  displayed : Bool
  deriving DecidableEq

/-- What a playground asks of its transport. -/
inductive Request
  | run (race : Bool)
  | kill
  deriving DecidableEq

/-- `notesWindow` of a window: the window with the notes, the number after `#` in `slides.src`, and
the window in the frame `presenter-slides` once it has loaded. -/
structure NotesWindow (ι : Type) where
  id : ι
  slidesUrl : ℤ
  frame : Option ι

structure SlidesWindow (ι : Type) where
  deck : Deck
  playgrounds : List Playground
  /-- The requests of the playgrounds, with their index. -/
  requests : List (ℕ × Request)
  isParentWindow : Bool
  notesWindow : Option (NotesWindow ι)
  /-- In a loop that does not end. -/
  hung : Bool
  /-- The handlers that ended in a `TypeError`. -/
  errors : ℕ

inductive Window (ι : Type)
  | slides (w : SlidesWindow ι)
  | notes (innerHTML : String)

namespace Deck

/-- `destSlide > curSlide`. -/
def isBehind (destSlide : ℤ) (d : Deck) : Bool := decide (destSlide > d.curSlide)

/-- `destSlide < curSlide`. -/
def isAhead (destSlide : ℤ) (d : Deck) : Bool := decide (destSlide < d.curSlide)

/-- The two loops of `updateOtherWindow`, and whether they end: no round brings the slide further
than one, so they need no more rounds than slides lie between. -/
def goTo (d : Deck) (destSlide : ℤ) : Deck × Bool :=
  let forth := whileDo (isBehind destSlide) nextSlide (destSlide - d.curSlide).natAbs d
  if forth.2 then whileDo (isAhead destSlide) prevSlide (destSlide - forth.1.curSlide).natAbs forth.1 else forth

end Deck

section
variable {ι : Type} [DecidableEq ι]

/-! ## Playgrounds -/

/-- The window that runs a handler sends the message if the action is not there yet, and has received
it if it is. -/
def updatePlayAction (st : LocalStorage ι) (j : ι) (action : PlayAction) : LocalStorage ι :=
  if st.items .playAction = some action then st.removeItem j .playAction else st.setItem j .playAction action

def updatePlayShiftKey (st : LocalStorage ι) (j : ι) (shiftKey : Bool) : LocalStorage ι :=
  if st.items .playShiftKey = some () then st.removeItem j .playShiftKey
  else if shiftKey then st.setItem j .playShiftKey () else st

def updatePlayStorage (st : LocalStorage ι) (j : ι) (action : PlayAction) (index : ℕ) (shiftKey : Bool) :
    LocalStorage ι :=
  let st := updatePlayAction (st.setItem j .playIndex index) j action
  if action = .onRun then updatePlayShiftKey st j shiftKey else st

namespace SlidesWindow

/-- `if (running) running.Kill()`. -/
def kill (w : SlidesWindow ι) (index : ℕ) : SlidesWindow ι :=
  match w.playgrounds[index]? with
  | some pl => if pl.running then { w with requests := w.requests ++ [(index, .kill)] } else w
  | none => w

def onKill (w : SlidesWindow ι) (st : LocalStorage ι) (j : ι) (index : ℕ) : SlidesWindow ι × LocalStorage ι :=
  (w.kill index, updatePlayStorage st j .onKill index false)

def onRun (w : SlidesWindow ι) (st : LocalStorage ι) (j : ι) (index : ℕ) (shiftKey : Bool) :
    SlidesWindow ι × LocalStorage ι :=
  let sk := shiftKey || (st.items .playShiftKey).isSome
  let w := w.kill index
  ({ w with
      playgrounds := w.playgrounds.modify index fun pl => { pl with running := true, displayed := true }
      requests := w.requests ++ [(index, .run sk)] },
    updatePlayStorage st j .onRun index shiftKey)

def onClose (w : SlidesWindow ι) (st : LocalStorage ι) (j : ι) (index : ℕ) : SlidesWindow ι × LocalStorage ι :=
  let w := w.kill index
  ({ w with playgrounds := w.playgrounds.modify index fun pl => { pl with displayed := false } },
    updatePlayStorage st j .onClose index false)

/-- `playgroundHandlers[action][index]`. -/
def playgroundHandler (w : SlidesWindow ι) (st : LocalStorage ι) (j : ι) (action : PlayAction) (index : ℕ)
    (shiftKey : Bool) : SlidesWindow ι × LocalStorage ι :=
  match action with
  | .onRun => w.onRun st j index shiftKey
  | .onKill => w.onKill st j index
  | .onClose => w.onClose st j index

/-- None for a `TypeError`: no action, or no playground at the index. -/
def updatePlay (w : SlidesWindow ι) (st : LocalStorage ι) (j : ι) : Event → Option (SlidesWindow ι × LocalStorage ι)
  | .item .playAction _ =>
    match st.items .playAction, st.items .playIndex with
    | some action, some i =>
      if i < w.playgrounds.length then some (w.playgroundHandler st j action i false) else none
    | _, _ => none
  | .item .playCode _ =>
    match st.items .playIndex with
    | some i =>
      if i < w.playgrounds.length then
        some ({ w with playgrounds := w.playgrounds.modify i fun pl =>
          { pl with innerHTML := (st.items .playCode).getD "" } }, st)
      else none
    | none => none
  | _ => some (w, st)

/-! ## Slides -/

/-- What the slides wrote under `destSlideKey()` goes to the storage. -/
def setDeck (w : SlidesWindow ι) (st : LocalStorage ι) (j : ι) (deck : Deck) : SlidesWindow ι × LocalStorage ι :=
  ({ w with deck := { deck with stored := [] } }, st.setItems j .destSlide deck.stored)

/-- Whether it comes to `updateNotes` is the last part. -/
def updateOtherWindow (w : SlidesWindow ι) (st : LocalStorage ι) (j : ι) (e : Event) :
    SlidesWindow ι × LocalStorage ι × Bool :=
  if isRemoveStorageEvent e then (w, st, false)
  else
    let destSlide : ℤ := (st.items .destSlide).getD (0 : ℤ)
    let moved := w.deck.goTo destSlide
    let (w, st) := w.setDeck st j moved.1
    if moved.2 then
      match w.updatePlay st j e with
      | some (w, st) => (w, st, true)
      | none => ({ w with errors := w.errors + 1 }, st, false)
    else ({ w with hung := true }, st, false)

/-- The listener of `input`. Its `i` is the variable of the loop that registered it, and stands at the
number of playgrounds when it runs. -/
def inputHandler (w : SlidesWindow ι) (st : LocalStorage ι) (j : ι) (index : ℕ) (innerHTML : String) :
    SlidesWindow ι × LocalStorage ι :=
  ({ w with playgrounds := w.playgrounds.modify index fun pl => { pl with innerHTML := innerHTML } },
    (st.setItem j .playIndex w.playgrounds.length).setItem j .playCode innerHTML)

/-- The listener of `resize`: `out[i]` is not there, for the same reason. -/
def resizeHandler (w : SlidesWindow ι) (st : LocalStorage ι) (j : ι) : SlidesWindow ι × LocalStorage ι :=
  ({ w with errors := w.errors + 1 }, st.setItem j .playIndex w.playgrounds.length)

end SlidesWindow

/-- `initialize` and `handleDomLoaded` in a window of the presentation. -/
def Presentation.load (p : Presentation) (st : LocalStorage ι) (j : ι) (slideNo : Option ℤ) (isParentWindow : Bool) :
    SlidesWindow ι × LocalStorage ι :=
  let deck := Deck.handleDomLoaded p.slideEls slideNo p.localhost true
  let w : SlidesWindow ι := {
    deck := deck
    playgrounds := p.playgrounds.map fun html => { innerHTML := html, running := false, displayed := false }
    requests := []
    isParentWindow := isParentWindow
    notesWindow := none
    hung := false
    errors := 0 }
  let (w, st) := w.setDeck st j deck
  (w, st.listen j)

/-! ## The world -/

structure World (ι : Type) where
  windows : ι → Option (Window ι)
  storage : LocalStorage ι

/-- No window is open and nothing is stored. -/
def World.start : World ι where
  windows _ := none
  storage := { items := fun _ => none, listeners := ∅, events := fun _ => [] }

namespace World

def setSlides (w : World ι) (j : ι) (x : SlidesWindow ι × LocalStorage ι) : World ι :=
  { windows := Function.update w.windows j (some (.slides x.1)), storage := x.2 }

def openWindow (w : World ι) (j : ι) (window : Window ι) : World ι :=
  { windows := Function.update w.windows j (some window), storage := w.storage.listen j }

def closeWindow (w : World ι) (j : ι) : World ι :=
  { windows := Function.update w.windows j none, storage := w.storage.leave j }

@[simp] theorem windows_setSlides (w : World ι) (j : ι) (x : SlidesWindow ι × LocalStorage ι) :
    (w.setSlides j x).windows = Function.update w.windows j (some (.slides x.1)) := rfl
@[simp] theorem storage_setSlides (w : World ι) (j : ι) (x : SlidesWindow ι × LocalStorage ι) :
    (w.setSlides j x).storage = x.2 := rfl
@[simp] theorem windows_openWindow (w : World ι) (j : ι) (window : Window ι) :
    (w.openWindow j window).windows = Function.update w.windows j (some window) := rfl
@[simp] theorem storage_openWindow (w : World ι) (j : ι) (window : Window ι) :
    (w.openWindow j window).storage = w.storage.listen j := rfl
@[simp] theorem windows_closeWindow (w : World ι) (j : ι) :
    (w.closeWindow j).windows = Function.update w.windows j none := rfl
@[simp] theorem storage_closeWindow (w : World ι) (j : ι) : (w.closeWindow j).storage = w.storage.leave j := rfl

/-- `notesWindow.close()`; its frame goes with it. -/
def closeNotes (w : World ι) (notesWindow : NotesWindow ι) : World ι :=
  let w := w.closeWindow notesWindow.id
  match notesWindow.frame with
  | some f => w.closeWindow f
  | none => w

/-- `updateNotes` of a window with the slides: `if (!el) return`. -/
def updateNotes (w : World ι) (p : Presentation) : Option (NotesWindow ι) → World ι
  | some notesWindow =>
    match w.windows notesWindow.id with
    | some (.notes _) =>
      { windows := Function.update w.windows notesWindow.id
          (some (.notes (p.updateNotes (w.storage.items .destSlide))))
        storage := w.storage }
    | _ => w
  | none => w

/-- The window with the notes is closed by `toggleNotesWindow` or with the window that has opened it. A
user who closes it by its own button, which leaves `notesWindow` set to a closed window, is left out. -/
inductive Action (ι : Type)
  | load (j : ι) (slideNo : Option ℤ)
  | input (j : ι) (a : Deck.Input)
  | toggleNotesWindow (j n : ι)
  | frameLoaded (j f : ι)
  | close (j : ι)
  | click (j : ι) (action : PlayAction) (index : ℕ) (shiftKey : Bool)
  | edit (j : ι) (index : ℕ) (innerHTML : String)
  | resize (j : ι)
  | deliver (j : ι)

/-- The window with the slides, if it is open and not in an endless loop. -/
def slides (w : World ι) (j : ι) : Option (SlidesWindow ι) :=
  match w.windows j with
  | some (.slides sw) => if sw.hung then none else some sw
  | _ => none

def isFree (w : World ι) (j : ι) : Bool := (w.windows j).isNone

/-- In a frame `isParentWindow` is false, and `toggleNotesWindow` returns. -/
def toggleNotesWindow (w : World ι) (p : Presentation) (j n : ι) (sw : SlidesWindow ι) : Option (World ι) :=
  if sw.isParentWindow then
    match sw.notesWindow with
    | some notesWindow =>
      some ((w.setSlides j ({ sw with notesWindow := none }, w.storage)).closeNotes notesWindow)
    | none =>
      if w.isFree n then
        let notesWindow := { id := n, slidesUrl := sw.deck.hash, frame := none }
        let w := w.setSlides j ({ sw with notesWindow := some notesWindow }, w.storage)
        some (w.openWindow n (.notes (p.initNotes (w.storage.items .destSlide))))
      else none
  else some w

def frameLoaded (w : World ι) (p : Presentation) (j f : ι) (sw : SlidesWindow ι) : Option (World ι) :=
  match sw.notesWindow with
  | some notesWindow =>
    if notesWindow.frame = none ∧ w.isFree f then
      let w := w.setSlides j ({ sw with notesWindow := some { notesWindow with frame := some f } }, w.storage)
      some (w.setSlides f (p.load w.storage f (some notesWindow.slidesUrl) false))
    else none
  | none => none

/-- `window.onbeforeunload` of a window that is no frame. -/
def close (w : World ι) (j : ι) (sw : SlidesWindow ι) : Option (World ι) :=
  if sw.isParentWindow then
    let w := { w with storage := w.storage.clear j }
    let w := match sw.notesWindow with
      | some notesWindow => w.closeNotes notesWindow
      | none => w
    some (w.closeWindow j)
  else none

/-- The first event of a window is handled: `updateOtherWindow` in a window with the slides,
`updateNotes` in one with the notes. -/
def deliver (w : World ι) (p : Presentation) (j : ι) : Option (World ι) :=
  match w.storage.events j with
  | [] => none
  | e :: _ =>
    match w.windows j with
    | some (.slides sw) =>
      if sw.hung then none
      else
        let x := sw.updateOtherWindow (w.storage.read j) j e
        let w := w.setSlides j (x.1, x.2.1)
        some (if x.2.2 then w.updateNotes p sw.notesWindow else w)
    | some (.notes _) =>
      some
        { windows := Function.update w.windows j (some (.notes (p.updateNotes (w.storage.items .destSlide))))
          storage := w.storage.read j }
    | none => none

def step (p : Presentation) (w : World ι) : Action ι → Option (World ι)
  | .load j slideNo => if w.isFree j then some (w.setSlides j (p.load w.storage j slideNo true)) else none
  | .input j a => (w.slides j).bind fun sw =>
    (sw.deck.step a).map fun deck => w.setSlides j (sw.setDeck w.storage j deck)
  | .toggleNotesWindow j n => (w.slides j).bind (w.toggleNotesWindow p j n)
  | .frameLoaded j f => (w.slides j).bind (w.frameLoaded p j f)
  | .close j => (w.slides j).bind (w.close j)
  | .click j action index shiftKey => (w.slides j).bind fun sw =>
    if index < sw.playgrounds.length then some (w.setSlides j (sw.playgroundHandler w.storage j action index shiftKey))
    else none
  | .edit j index innerHTML => (w.slides j).bind fun sw =>
    if index < sw.playgrounds.length then some (w.setSlides j (sw.inputHandler w.storage j index innerHTML)) else none
  | .resize j => (w.slides j).map fun sw => w.setSlides j (sw.resizeHandler w.storage j)
  | .deliver j => w.deliver p j

end World
end
end HalfMesh.Slides
