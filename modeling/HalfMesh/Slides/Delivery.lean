import HalfMesh.Slides.Sync
import Mathlib.Algebra.BigOperators.Group.Finset.Basic
import Mathlib.Algebra.Order.BigOperators.Group.Finset
import Mathlib.Data.Prod.Lex

/-! The events run dry. A window that moves to the stored slide stores every slide on its way, and
the others get an event for each, so handling one event can put many in its place. It comes to an end
all the same: the stored slide is the same afterwards, and the window is not astray any more. Left to
themselves, the windows all end at the slide that was stored. -/
namespace HalfMesh.Slides
open HalfMesh.Foundations
set_option autoImplicit false
set_option maxHeartbeats 250000
set_option maxRecDepth 120000

section
variable {ι : Type} {p : Presentation} {w w' : World ι} {st : LocalStorage ι} {j : ι} {sw : SlidesWindow ι}
  {d : Deck} {e : Event}

/-! ## The measure -/

/-- Where the windows go: to the stored slide, to the first one if none is stored. -/
def LocalStorage.goal (st : LocalStorage ι) : ℤ := (st.items .destSlide).getD (0 : ℤ)

theorem LocalStorage.goal_eq (st : LocalStorage ι) : st.goal = (st.items .destSlide).getD (0 : ℤ) := rfl

def World.astray (w : World ι) (j : ι) : Bool :=
  match w.windows j with
  | some (.slides sw) => decide (sw.deck.curSlide ≠ w.storage.goal)
  | _ => false

/-- The windows astray, whether a playground's action waits to be received, and the unread events. -/
def World.left (w : World ι) : ℕ ×ₗ ℕ ×ₗ ℕ :=
  toLex ((w.storage.listeners.filter fun j => w.astray j).card,
    toLex ((w.storage.items .playAction).isSome.toNat, ∑ j ∈ w.storage.listeners, (w.storage.events j).length))

variable [DecidableEq ι]

/-! ## What one event does -/

theorem storage_updateNotes (w : World ι) (p : Presentation) (notesWindow : Option (NotesWindow ι)) :
    (w.updateNotes p notesWindow).storage = w.storage := by
  unfold World.updateNotes
  split
  · split <;> rfl
  · rfl

end

end HalfMesh.Slides
